import DocLint.Nesting

/-!
# Scopes

The scope of a line is decided by the innermost block around it: a class body
when the header of that block declares a class, a plain block otherwise.
-/

set_option autoImplicit false

namespace DocLint

inductive Scope where
  | topLevel
  | classBody
  | block
  deriving DecidableEq, Repr

namespace Scope

def name : Scope → String
  | .topLevel => "top_level"
  | .classBody => "class_body"
  | .block => "block"

def accepts (scope : Scope) (shape : DeclarationShape) : Bool :=
  match shape.form with
  | .explicit => true
  | .binding => scope == .topLevel
  | .bare => scope == .classBody

end Scope

def nearestText (above : List Line) : Option Line :=
  above.find? fun line => !(Text.trim line).isEmpty

/-- The header of a block opened on a line. A brace that starts its line belongs to the nearest
text above it, if there is any. -/
def blockHeader (lines : List Line) (openLine : Nat) : Line :=
  let line := lines[openLine]?.getD []
  if ['{'].isPrefixOf (Text.trim line) then
    (nearestText (lines.take openLine).reverse).getD line
  else line

def enclosingScope (lines : List Line) (index : Nat) : Scope :=
  match enclosingOpen lines index with
  | none => .topLevel
  | some openLine =>
    match DeclarationShape.ofText? (Text.trim (blockHeader lines openLine)) with
    | some ⟨.classLike, _⟩ => .classBody
    | _ => .block

end DocLint
