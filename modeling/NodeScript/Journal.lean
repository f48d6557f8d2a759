/-!
# Journal

What the library reports about its own work, in the order in which it happens.
-/

namespace NodeScript

/-- How much attention a report asks for. -/
inductive Severity where
  | debug
  | info
  | warning
  | error
deriving DecidableEq

/-- One report. -/
structure Report where
  severity : Severity
  message : String
deriving DecidableEq

/-- Reports in order. -/
abbrev Journal := List Report

end NodeScript
