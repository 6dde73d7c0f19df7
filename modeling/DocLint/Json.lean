/-!
# JSON values

The value type of the reports and of the settings given as data. Object
members are kept in written order, repeated keys included.
-/

set_option autoImplicit false

namespace DocLint

/-- A number is kept as a natural number when it is written as one, and by its text otherwise:
no other number occurs in a report. -/
inductive JsonNumber where
  | natural (n : Nat)
  | other (text : String)
  deriving DecidableEq, Repr

inductive Json where
  | null
  | bool (b : Bool)
  | number (n : JsonNumber)
  | string (s : String)
  | array (items : List Json)
  | object (members : List (String × Json))
  deriving Repr

namespace Json

def nat (n : Nat) : Json := .number (.natural n)

def ofOption {α : Type} (f : α → Json) : Option α → Json
  | none => .null
  | some a => f a

def strings (items : List String) : Json := .array (items.map .string)

def members? : Json → Option (List (String × Json))
  | .object ms => some ms
  | _ => none

def items? : Json → Option (List Json)
  | .array items => some items
  | _ => none

def string? : Json → Option String
  | .string s => some s
  | _ => none

def bool? : Json → Option Bool
  | .bool b => some b
  | _ => none

def nat? : Json → Option Nat
  | .number (.natural n) => if n < UInt64.size then some n else none
  | _ => none

def get? (v : Json) (key : String) : Option Json :=
  match v with
  | .object ms => (ms.reverse.find? fun m => m.1 == key).map (·.2)
  | _ => none

end Json

end DocLint
