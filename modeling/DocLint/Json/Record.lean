import DocLint.Json

/-!
# Records in JSON

A record is written as an object, or as an array of its fields in order. In an
object unknown members are passed over and a known one stands there once.
-/

set_option autoImplicit false

namespace DocLint.Json

def hasRepeat : List String → Bool
  | [] => false
  | k :: ks => ks.contains k || hasRepeat ks

def fields? (names : List String) : Json → Option (List (String × Json))
  | .object ms =>
    let known := ms.filter fun m => names.contains m.1
    if hasRepeat (known.map (·.1)) then none else some known
  | .array items => if items.length ≤ names.length then some (names.zip items) else none
  | _ => none

def need? {α : Type} (fs : List (String × Json)) (name : String) (read : Json → Option α) :
    Option α :=
  (fs.lookup name).bind read

def listOf? {α : Type} (read : Json → Option α) (v : Json) : Option (List α) :=
  v.items?.bind (·.mapM read)

end DocLint.Json
