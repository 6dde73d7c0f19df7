import DocLint.Scope

/-!
# From a line to its declaration

A line of code belongs to the nearest declaration above it, where the blocks
closed on the way are passed over. A line of a documentation block belongs to
the declaration right below the block.
-/

set_option autoImplicit false

namespace DocLint

/-- The declaration on a line, if its scope accepts the shape of the line and it is no parameter
line of a signature. -/
def declarationAt (lines : List Line) (index : Nat) : Option Declaration :=
  match lines[index]? with
  | none => none
  | some line =>
    match line.kind with
    | .declaration shape =>
      if (enclosingScope lines index).accepts shape && !insideOpenParen lines index then
        some ⟨index, shape.kind⟩
      else none
    | _ => none

/-- Looks for a declaration among the first `count` lines, from below. Lines at or above `limit`
belong to a block that was closed further down and are passed over with it; a closing brace
without a partner ends the search. -/
def climb (lines : List Line) : Nat → Nat → Option Declaration
  | 0, _ => none
  | index + 1, limit =>
    if limit ≤ index then climb lines index limit
    else match lines[index]?.map Line.kind with
      | some .closeBrace =>
        match matchClose lines index with
        | some m => climb lines index m.openLine
        | none => none
      | some (.declaration _) =>
        match declarationAt lines index with
        | some d => some d
        | none => climb lines index limit
      | _ => climb lines index limit

/-- The declaration that owns a line of code: the one on the line itself or else the nearest one
above it. -/
def findDeclaration (lines : List Line) (start : Nat) : Option Declaration :=
  if start < lines.length then
    match declarationAt lines start with
    | some d => some d
    | none => climb lines start start
  else none

def throughClose : List Line → Option Nat
  | [] => none
  | line :: rest => if line.closesComment then some 1 else (throughClose rest).map (· + 1)

/-- The number of lines that may stand between a block and its declaration, at the start of a
list of lines. -/
def spacers (lines : List Line) : Nat := (lines.takeWhile fun line => line.kind.isSpacer).length

def findDocumentedDeclaration (lines : List Line) (index : Nat) : Option Declaration :=
  match throughClose (lines.drop index) with
  | none => none
  | some n => declarationAt lines (index + n + spacers (lines.drop (index + n)))

/-- Upward from a line that is not the one asked about: the opener of a documentation block is
reached without meeting code or another comment. -/
def reachesOpener : List Line → Bool
  | [] => false
  | line :: above =>
    if line.opensDoc then true
    else if line.opensComment || line.closesComment then false
    else match line.kind with
      | .commentInterior | .blank => reachesOpener above
      | _ => false

def reachesClose : List Line → Bool
  | [] => false
  | line :: below =>
    if line.closesComment then true
    else match line.kind with
      | .commentInterior | .blank | .docOpen => reachesClose below
      | _ => false

def underOpener (line : Line) (above : List Line) : Bool :=
  match line.kind with
  | .docOpen => true
  | .commentInterior | .commentClose | .blank => reachesOpener above
  | _ => false

/-- A line lies in a closed documentation block, its delimiters included. -/
def isInsideDocBlock (lines : List Line) (index : Nat) : Bool :=
  match lines[index]? with
  | none => false
  | some line => underOpener line (lines.take index).reverse && reachesClose (lines.drop index)

def resolve (lines : List Line) (index : Nat) : Option Declaration :=
  if isInsideDocBlock lines index then findDocumentedDeclaration lines index
  else findDeclaration lines index

end DocLint
