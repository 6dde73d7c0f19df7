import DocLint.Line
import DocLint.Text.Lines

/-!
# Documentation blocks

The block that documents a declaration ends on the nearest line above it that
is not blank, a decorator or a line comment.
-/

set_option autoImplicit false

namespace DocLint

/-- The lines from `start` to `stop`, joined by line feeds. -/
structure DocBlock where
  start : Nat
  stop : Nat
  text : List Char
  deriving DecidableEq, Repr

inductive BlockLookup where
  | found (block : DocBlock)
  | missing
  | unopened
  deriving DecidableEq, Repr

/-- Looks for the opener of a comment, upward from a line of it. The lines below that line are
collected in order; the lines above are listed upward. -/
def findOpening (stop : Nat) : Line → List Line → List Line → BlockLookup
  | line, collected, [] =>
    if line.opensDoc then .found ⟨0, stop, Text.join ['\n'] (line :: collected)⟩
    else if line.opensComment then .missing
    else .unopened
  | line, collected, next :: above =>
    if line.opensDoc then
      .found ⟨above.length + 1, stop, Text.join ['\n'] (line :: collected)⟩
    else if line.opensComment then .missing
    else if next.closesComment then .unopened
    else findOpening stop next (line :: collected) above

/-- Looks for a block, upward through lines that may stand between it and its declaration. -/
def findClosing : List Line → BlockLookup
  | [] => .missing
  | line :: above =>
    if line.kind.isSpacer then findClosing above
    else if line.closesComment then findOpening above.length line [] above
    else .missing

def findDocBlock (lines : List Line) (index : Nat) : BlockLookup :=
  findClosing (lines.take index).reverse

end DocLint
