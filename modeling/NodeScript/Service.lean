import NodeScript.Catalogue
import NodeScript.Json.Encoding
import NodeScript.Json.Reader
import NodeScript.Program.Compile
import NodeScript.Settings

/-!
# The compile service

A web server answers requests to compile a script. The body of a request is a JSON object with the
root definition, further definitions, a header and parameter values; definitions of the host are
known to every request. The answer is the text of the program, or a message with a status that tells
whether the request, the script or a parameter is at fault.
-/

namespace NodeScript.Service

/-- A request to compile a script. -/
structure Request where
  contentType : String
  body : String
  /-- Texts hold whole characters only, and so does the body of a request. -/
  whole : Json.isWhole body = true := by decide +kernel

/-- The answer to a request; a request that brings the server down has no body. -/
structure Reply where
  status : Nat
  body : Option Value
deriving DecidableEq

/-- Whether a content type says that a body is JSON. Parameters and case do not matter. -/
def isJson (contentType : String) : Bool :=
  let media := Text.trimChars (contentType.toList.takeWhile (· != ';'))
  let media := (Text.lower (String.ofList media)).toList
  media == "application/json".toList ||
    ("application/".toList.isPrefixOf media && "+json".toList.isSuffixOf media)

/-- How deep the data of a request may be nested. -/
def nestingLimit : Nat := 980

/-- The data of a request, if its body is JSON. Data that is nested too deep is not foreseen. -/
def Request.data? (r : Request) : Except Fault (Option Value) :=
  if isJson r.contentType then
    match Json.decode? r.body with
    | none => .ok none
    | some cs => if nestingLimit < Json.nesting cs then .error .tooNested else .ok (Json.read? cs)
  else .ok none

/-- The answer to a request that is refused. -/
def refusal (status : Nat) (message : String) (extra : List (String × Value)) : Reply where
  status := status
  body :=
    let entries : List (String × Value) := [("success", .bool false), ("error", .text message)]
    some (.table ((entries ++ extra).map fun e => (.text e.1, e.2)))

/-- The answer to a request that fails in a way that nobody foresaw. -/
def breakdown : Reply := ⟨500, none⟩

/-- The answer for a fault in the data of a request. Faults of some classes are not foreseen. -/
def faultReply (f : Fault) : Reply :=
  match f.faultClass with
  | .lookup | .value | .kind => refusal 400 ("Malformed request: " ++ f.message) []
  | .operation | .range | .position | .room | .nesting => breakdown

/-- What a request asks to compile. -/
structure Job where
  root : Definition
  catalogue : Catalogue
  header : Header
  values : Value

/-! ### Servers -/

/-- A server at work. -/
structure Server where
  /-- The definitions of the host, which every request may use. -/
  host : Catalogue
  /-- The definitions that the request in hand may use. -/
  catalogue : Catalogue
  /-- What was reported so far. -/
  journal : Journal

/-- Work of a server that may fail; what was done before a fault stays. -/
abbrev Serving := ExceptT Fault (StateM Server)

namespace Server

/-- The server of a host before its first request. -/
def ofHost (host : Catalogue) : Server := ⟨host, [], []⟩

/-- Adds reports. -/
def report (s : Server) (reports : Journal) : Server :=
  { s with journal := s.journal ++ reports }

/-- Gives the request in hand the definitions of the host, in the order of their names. -/
def copyHost : Serving Unit := do
  let s ← get
  let catalogue ← s.host.sorted
  set { s with catalogue }

/-- Adds a definition for the request in hand. -/
def register (d : Definition) : Serving Unit := do
  let s ← get
  let (catalogue, reports) ← s.catalogue.register d
  set { s with catalogue, journal := s.journal ++ reports }

/-- Reads definitions for the request in hand and adds each. -/
def registerAll : List Value → Serving Unit
  | [] => return ()
  | v :: rest => do
    let d ← Definition.ofValue v
    register d
    registerAll rest

end Server

/-- The data of the definitions that come with a request; a missing member stands for none. -/
def definitionData (record : Table Value Value) : Except Fault (List Value) :=
  ((Value.getD record "definitions" .null).orElse (.list [])).items

/-- Reads what a request asks to compile. -/
def Job.read (env : Environment) (record : Table Value Value) (script : Value) : Serving Job := do
  let root ← Definition.ofValue script
  Server.copyHost
  let items ← definitionData record
  Server.registerAll items
  let base ← Settings.header env
  let header ← Header.ofValue (Value.getD record "header" .null) base
  let s ← get
  return ⟨root, s.catalogue, header, Value.getD record "values" .null⟩

/-- The answer for a failure of a compilation, with its report. -/
def failureReply (root : Definition) (f : Failure) : Reply × Journal :=
  match f with
  | .notFound message name => (refusal 404 message [("name", name)], [])
  | .required message field script _ _ =>
    (refusal 422 message [("field", field), ("script", script)], [])
  | .listUnwritable _ _ _ | .variablesUnwritable _ _ | .sourceIncomplete _ =>
    (refusal 400 f.message [],
      [⟨.error, s!"Compilation of '{root.name.render}' failed: {f.message}"⟩])
  | _ => (breakdown, [])

/-- How deep uses of definitions may be nested in a compilation for a request. -/
def stackLimit : Nat := 195

/-- Does what a request asks for. -/
def Job.reply (job : Job) : Reply × Journal :=
  let work := Compile.programWithin job.header job.catalogue stackLimit job.root job.values
  let (result, _, reports) := Draft.empty.perform work
  match result with
  | .ok program =>
    (⟨200, some (.table [("success", .bool true), ("source", .text program.render)])⟩, reports)
  | .error failure =>
    let (reply, more) := failureReply job.root failure
    (reply, reports ++ more)

/-- Answers a request. -/
def serve (env : Environment) (r : Request) (s : Server) : Reply × Server :=
  let malformed := refusal 400 "Request must contain a 'script' object" []
  match r.data? with
  | .error fault => (faultReply fault, s)
  | .ok (some (.table record)) =>
    match Table.get? record (.text "script") with
    | none => (malformed, s)
    | some script =>
      match (Job.read env record script).run s with
      | (.error fault, s) => (faultReply fault, s)
      | (.ok job, s) =>
        let (reply, reports) := job.reply
        (reply, s.report reports)
  | _ => (malformed, s)

/-- The answer to a single request, with the reports that it causes. -/
def answer (env : Environment) (host : Catalogue) (r : Request) : Reply × Journal :=
  let (reply, s) := serve env r (.ofHost host)
  (reply, s.journal)

end NodeScript.Service
