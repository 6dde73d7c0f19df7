/-!
# Finding one text in another
-/

set_option autoImplicit false

namespace DocLint.Text

def occursIn (needle : List Char) : List Char → Bool
  | [] => needle.isEmpty
  | c :: cs => needle.isPrefixOf (c :: cs) || occursIn needle cs

def strip? : List Char → List Char → Option (List Char)
  | [], cs => some cs
  | _ :: _, [] => none
  | p :: ps, c :: cs => if p == c then strip? ps cs else none

def stripEnd? (suffix cs : List Char) : Option (List Char) :=
  (strip? suffix.reverse cs.reverse).map List.reverse

def firstAt {α : Type} (f : List Char → Option α) : List Char → Option α
  | [] => f []
  | c :: cs => match f (c :: cs) with
    | some a => some a
    | none => firstAt f cs

def cutAt (sep : Char) : List Char → Option (List Char × List Char)
  | [] => none
  | c :: cs => if c == sep then some ([], cs) else (cutAt sep cs).map fun r => (c :: r.1, r.2)

end DocLint.Text
