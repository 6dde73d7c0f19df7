import DocLint.Code

/-!
# Nesting of braces and parentheses

The braces of a source are read upward: a closing brace is put on a stack and
an opening brace takes one off. The downward reading, which stacks the opening
braces, is `openLines`.
-/

set_option autoImplicit false

namespace DocLint

inductive Brace where
  | opening
  | closing
  deriving DecidableEq, Repr

namespace Brace

def toChar : Brace → Char
  | opening => '{'
  | closing => '}'

def ofChar? (c : Char) : Option Brace :=
  if c == '{' then some opening else if c == '}' then some closing else none

end Brace

/-- Closing braces that wait for their opening brace, the latest first, with counts of the
braces taken so far. -/
structure BraceStack where
  pending : List Nat := []
  opened : Nat := 0
  closed : Nat := 0
  deriving DecidableEq, Repr

namespace BraceStack

def empty : BraceStack := {}

def close (s : BraceStack) (line : Nat) : BraceStack :=
  { s with pending := line :: s.pending, closed := s.closed + 1 }

def takeOpen (s : BraceStack) : Option Nat × BraceStack :=
  match s.pending with
  | [] => (none, s)
  | line :: rest => (some line, { s with pending := rest, opened := s.opened + 1 })

def depth (s : BraceStack) : Nat := s.pending.length

def isEmpty (s : BraceStack) : Bool := s.pending.isEmpty

end BraceStack

/-- A closing brace matched to its opening brace. -/
structure BraceMatch where
  openLine : Nat
  opened : Nat
  closed : Nat
  deriving DecidableEq, Repr

def Line.braces (line : Line) : List Brace := line.codeChars.filterMap Brace.ofChar?

def bracesBefore (lines : List Line) (count : Nat) : List (Nat × Brace) :=
  (lines.take count).zipIdx.flatMap fun entry => entry.1.braces.map fun b => (entry.2, b)

namespace BraceStack

def readLine (line : Nat) : BraceStack → List Brace → BraceStack
  | s, [] => s
  | s, .closing :: rest => readLine line (s.close line) rest
  | s, .opening :: rest => readLine line s.takeOpen.2 rest

def findOpener : BraceStack → List (Nat × Brace) → Option BraceMatch
  | _, [] => none
  | s, (line, .closing) :: rest => findOpener (s.close line) rest
  | s, (line, .opening) :: rest =>
    match s.takeOpen with
    | (some _, s') =>
      if s'.isEmpty then some ⟨line, s'.opened, s'.closed⟩ else findOpener s' rest
    | (none, s') => findOpener s' rest

def findUnmatched : BraceStack → List (Nat × Brace) → Option Nat
  | _, [] => none
  | s, (line, .closing) :: rest => findUnmatched (s.close line) rest
  | s, (line, .opening) :: rest =>
    match s.takeOpen with
    | (some _, s') => findUnmatched s' rest
    | (none, _) => some line

end BraceStack

/-- The opener of the block that is closed at the start of a line. The braces of the line itself
are read from right to left, so that a line closing one block and opening another closes one. -/
def matchClose (lines : List Line) (closeLine : Nat) : Option BraceMatch :=
  match lines[closeLine]? with
  | none => none
  | some line =>
    let s := BraceStack.empty.readLine closeLine line.braces.reverse
    if s.isEmpty then none else s.findOpener (bracesBefore lines closeLine).reverse

def enclosingOpen (lines : List Line) (index : Nat) : Option Nat :=
  BraceStack.empty.findUnmatched (bracesBefore lines index).reverse

/-- One step of the downward reading: the lines of the opening braces left unmatched, innermost
first. -/
def openStep (stack : List Nat) : Nat × Brace → List Nat
  | (line, .opening) => line :: stack
  | (_, .closing) => stack.tail

/-- The lines of the opening braces before line `count` that are left unmatched, innermost
first. -/
def openLines (lines : List Line) (count : Nat) : List Nat :=
  (bracesBefore lines count).foldl openStep []

/-- Reads code characters upward for an unclosed parenthesis, with the numbers of parentheses and
braces to be opened first. An unmatched opening brace, or a semicolon outside of both, ends the
search. -/
def findOpenParen : Nat → Nat → List Char → Bool
  | _, _, [] => false
  | parens, braces, c :: rest =>
    if c == ')' then findOpenParen (parens + 1) braces rest
    else if c == '(' then
      match parens with
      | 0 => true
      | p + 1 => findOpenParen p braces rest
    else if c == '}' then findOpenParen parens (braces + 1) rest
    else if c == '{' then
      match braces with
      | 0 => false
      | b + 1 => findOpenParen parens b rest
    else if c == ';' && parens == 0 && braces == 0 then false
    else findOpenParen parens braces rest

def codeBefore (lines : List Line) (count : Nat) : List Char :=
  (lines.take count).flatMap Line.codeChars

/-- A line starts inside a parenthesis that was opened above it, as the parameter lines of a
signature over several lines do. -/
def insideOpenParen (lines : List Line) (index : Nat) : Bool :=
  findOpenParen 0 0 (codeBefore lines index).reverse

end DocLint
