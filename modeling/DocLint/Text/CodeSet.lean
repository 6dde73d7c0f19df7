/-!
# Sets of code points

A property of characters is kept as the ascending list of the code points at
which membership changes, starting outside the set. Membership is read off by
walking the list up to the first boundary above the code point.
-/

set_option autoImplicit false

namespace DocLint.Text

def sideOf (n : Nat) : Bool → List Nat → Bool
  | side, [] => side
  | side, b :: bs => if n < b then side else sideOf n (!side) bs

def inSet (bounds : List Nat) (n : Nat) : Bool := sideOf n false bounds

end DocLint.Text
