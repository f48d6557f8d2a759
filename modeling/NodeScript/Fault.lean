import NodeScript.Value.Show

/-!
# Faults

A fault says why data cannot be used: an entry that is missing, a number out of range, a value of
the wrong kind. Its class tells callers how to treat it, its message tells people what is wrong.
-/

namespace NodeScript

/-- The classes of faults that callers tell apart. -/
inductive FaultClass where
  /-- An entry is missing. -/
  | lookup
  /-- A value of the right kind is not acceptable. -/
  | value
  /-- A value is of the wrong kind. -/
  | kind
  /-- A value lacks an operation that is asked of it. -/
  | operation
  /-- A number is too large. -/
  | range
  /-- A position is outside a sequence. -/
  | position
  /-- A text is too long to be held. -/
  | room
  /-- Data is nested too deep, or within itself without end. -/
  | nesting
deriving DecidableEq

/-- Why data cannot be used. -/
inductive Fault where
  /-- A table has no entry under a key. -/
  | missingKey (key : Value)
  /-- A value is no log level. -/
  | notALevel (value : Value)
  /-- A header asks to inherit its log level. -/
  | headerInherits
  /-- The ambient log level is set to inherit. -/
  | ambientInherits
  /-- The code of a parameter kind is too large. -/
  | unknownKindCode (text : String)
  /-- A text is no integer numeral. -/
  | notAnInteger (base : Nat) (text : String)
  /-- An integer numeral is too long. -/
  | tooManyDigits (count : Nat)
  /-- An integer is too long to be written. -/
  | unwritableInteger
  /-- A text is no numeral. -/
  | notAReal (text : String)
  /-- A not-a-number code has no integer part. -/
  | nanToInteger
  /-- An infinity has no integer part. -/
  | infinityToInteger
  /-- A value of this kind is no numeral. -/
  | noNumeral (kindName : String)
  /-- An item among key and value pairs has the wrong length. -/
  | pairLength (index count : Nat)
  /-- An item among key and value pairs is no sequence. -/
  | pairKind (index : Nat)
  /-- A value of this kind has no entries. -/
  | noEntries (kindName : String)
  /-- A list has positions and no named entries. -/
  | listEntries
  /-- A tuple has positions and no named entries. -/
  | tupleEntries
  /-- A text has positions and no named entries. -/
  | textEntries
  /-- A value of this kind has no items. -/
  | noItems (kindName : String)
  /-- A value of this kind cannot be a key. -/
  | unkeyable (kindName : String)
  /-- Two values of these kinds have no order. -/
  | unordered (left right : String)
  /-- A value has no operation of a table or a text. -/
  | noOperation
  /-- A value of another kind is needed. -/
  | wrongKind
  /-- Numbers that make no date. -/
  | calendar (fault : CalendarFault)
  /-- A number is no code point. -/
  | notACodePoint
  /-- A number is too large for a code point. -/
  | codePointRange
  /-- A number is too large for what is made of it. -/
  | tooLarge
  /-- A position is outside a sequence. -/
  | outOfRange
  /-- A text is too long to be held. -/
  | noRoom
  /-- Data is nested too deep, or within itself without end. -/
  | tooNested
deriving DecidableEq

namespace Fault

/-- The class of a fault. -/
def faultClass : Fault → FaultClass
  | .missingKey _ => .lookup
  | .notALevel _ => .value
  | .headerInherits => .value
  | .ambientInherits => .value
  | .unknownKindCode _ => .value
  | .notAnInteger _ _ => .value
  | .tooManyDigits _ => .value
  | .unwritableInteger => .value
  | .notAReal _ => .value
  | .nanToInteger => .value
  | .infinityToInteger => .range
  | .noNumeral _ => .kind
  | .pairLength _ _ => .value
  | .pairKind _ => .kind
  | .noEntries _ => .kind
  | .listEntries => .kind
  | .tupleEntries => .kind
  | .textEntries => .kind
  | .noItems _ => .kind
  | .unkeyable _ => .kind
  | .unordered _ _ => .kind
  | .noOperation => .operation
  | .wrongKind => .kind
  | .calendar _ => .value
  | .notACodePoint => .value
  | .codePointRange => .range
  | .tooLarge => .range
  | .outOfRange => .position
  | .noRoom => .room
  | .tooNested => .nesting

/-- The message of a fault. -/
def message : Fault → String
  | .missingKey key => key.quoted
  | .notALevel value => value.quoted ++ " is not a valid LogLevel"
  | .headerInherits => "Header log level must be one of DISABLE..DEBUG, not INHERIT"
  | .ambientInherits => "INHERIT is not a valid ambient log level"
  | .unknownKindCode text => "Unknown parameter kind code: " ++ text
  | .notAnInteger base text =>
    -- a long text is cut
    let shown := String.ofList ((Text.quoted text).toList.take 200)
    s!"invalid literal for int() with base {base}: {shown}"
  | .tooManyDigits count =>
    "Exceeds the limit (4300 digits) for integer string conversion: value has " ++ toString count ++
      " digits; use sys.set_int_max_str_digits() to increase the limit"
  | .unwritableInteger =>
    "Exceeds the limit (4300 digits) for integer string conversion; " ++
      "use sys.set_int_max_str_digits() to increase the limit"
  | .notAReal text => "could not convert string to float: " ++ Text.quoted text
  | .nanToInteger => "cannot convert float NaN to integer"
  | .infinityToInteger => "cannot convert float infinity to integer"
  | .noNumeral kindName =>
    s!"int() argument must be a string, a bytes-like object or a real number, not '{kindName}'"
  | .pairLength index count =>
    s!"dictionary update sequence element #{index} has length {count}; 2 is required"
  | .pairKind index =>
    s!"cannot convert dictionary update sequence element #{index} to a sequence"
  | .noEntries kindName => s!"'{kindName}' object is not subscriptable"
  | .listEntries => "list indices must be integers or slices, not str"
  | .tupleEntries => "tuple indices must be integers or slices, not str"
  | .textEntries => "string indices must be integers, not 'str'"
  | .noItems kindName => s!"'{kindName}' object is not iterable"
  | .unkeyable kindName => s!"unhashable type: '{kindName}'"
  | .unordered left right =>
    s!"'<' not supported between instances of '{left}' and '{right}'"
  | .noOperation => "no such operation"
  | .wrongKind => "value of the wrong kind"
  | .calendar fault => fault.message
  | .notACodePoint => "chr() arg not in range(0x110000)"
  | .codePointRange => "signed integer is greater than maximum"
  | .tooLarge => "number too large"
  | .outOfRange => "index out of range"
  | .noRoom => "text too long"
  | .tooNested => "nested too deep"

end Fault

end NodeScript
