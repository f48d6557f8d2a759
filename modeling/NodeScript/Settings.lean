import NodeScript.Script.Header
import NodeScript.Script.LogLevel

/-!
# Settings

The configuration that a program takes from its environment: the language of users who name none,
the ambient log level and the pattern of time stamps. A variable that is not set, or blank, leaves
the default.
-/

namespace NodeScript

/-- Environment variables by name. -/
abbrev Environment := Table String String

/-- What can be configured. -/
inductive SettingKey where
  | defaultLang
  | logLevel
  | logTimeFormat
deriving DecidableEq

/-- The value of a setting. -/
inductive Setting where
  | text (s : String)
  | level (l : LogLevel)

namespace SettingKey

/-- All settings. -/
def all : List SettingKey := [.defaultLang, .logLevel, .logTimeFormat]

/-- The name of a setting. -/
def name : SettingKey → String
  | .defaultLang => "default_lang"
  | .logLevel => "log_level"
  | .logTimeFormat => "log_time_format"

/-- The environment variable of a setting. -/
def variableName : SettingKey → String
  | .defaultLang => "VSC_DEFAULT_LANG"
  | .logLevel => "VSC_LOG_LEVEL"
  | .logTimeFormat => "VSC_LOG_TIME_FORMAT"

/-- The text of a setting that the environment leaves open. -/
def default : SettingKey → String
  | .defaultLang => "en"
  | .logLevel => "INFO"
  | .logTimeFormat => "%Y/%m/%d %H:%M:%S"

/-- The setting with a name. -/
def ofValue (v : Value) : Except Fault SettingKey := do
  v.checkKey
  match all.find? fun k => Value.same v (.text k.name) with
  | some k => return k
  | none => throw (.missingKey v)

/-- The text of a setting. -/
def text (k : SettingKey) (env : Environment) : String :=
  let given := Text.trim ((env.get? k.variableName).getD "")
  if given.isEmpty then k.default else given

end SettingKey

namespace Settings

/-- The language of users who name none. -/
def lang (env : Environment) : String :=
  SettingKey.defaultLang.text env

/-- The ambient log level. -/
def logLevel (env : Environment) : Except Fault LogLevel := do
  let level ← LogLevel.parse (.text (SettingKey.logLevel.text env)) .info
  if level == .inherit then throw .ambientInherits
  return level

/-- The pattern of time stamps. -/
def logTimeFormat (env : Environment) : String :=
  SettingKey.logTimeFormat.text env

/-- The value of a setting. -/
def get (env : Environment) : SettingKey → Except Fault Setting
  | .defaultLang => .ok (.text (lang env))
  | .logLevel => return .level (← logLevel env)
  | .logTimeFormat => .ok (.text (logTimeFormat env))

/-- The values of all settings, by name. -/
def getAll (env : Environment) : Except Fault (List (String × Setting)) :=
  SettingKey.all.mapM fun k => return (k.name, ← get env k)

/-- The header of a caller who gives none. -/
def header (env : Environment) : Except Fault Header := do
  let level ← logLevel env
  return { Header.standard with lang := .text (lang env), logLevel := level }

end Settings

end NodeScript
