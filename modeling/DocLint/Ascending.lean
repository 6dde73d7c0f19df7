/-!
# Ascending numbers

Finite sets of numbers, written in ascending order.
-/

set_option autoImplicit false

namespace DocLint

def mergeAscending : List Nat → List Nat → List Nat
  | [], ys => ys
  | x :: xs, ys => ys.takeWhile (· < x) ++ x :: mergeAscending xs (ys.dropWhile (· ≤ x))

end DocLint
