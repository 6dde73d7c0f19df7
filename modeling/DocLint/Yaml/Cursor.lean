/-!
# Reading positions in a YAML text

A cursor is the rest of the text with the place it starts at. Line breaks are
line feed, carriage return, both together, next line, line separator and
paragraph separator; a break is read as a line feed unless it is one of the
last two.
-/

set_option autoImplicit false

namespace DocLint.Yaml

def isBreak (c : Char) : Bool :=
  c == '\n' || c == '\r' || c.toNat == 0x85 || c.toNat == 0x2028 || c.toNat == 0x2029

def isBlank (c : Char) : Bool := c == ' ' || c == '\t'

def isAllowed (c : Char) : Bool :=
  let n := c.toNat
  n == 9 || n == 10 || n == 13 || (0x20 ≤ n && n ≤ 0x7E) || n == 0x85 ||
    (0xA0 ≤ n && n ≤ 0xFFFD) || 0x10000 ≤ n

def isHandleChar (c : Char) : Bool := c.isAlphanum || c == '_' || c == '-'

structure Cursor where
  rest : List Char
  index : Nat := 0
  line : Nat := 0
  column : Nat := 0
  deriving Repr

namespace Cursor

def atEnd (c : Cursor) : Bool := c.rest.isEmpty

def sees (c : Cursor) (k : Nat) (ch : Char) : Bool := c.rest[k]? == some ch

def nextIs (c : Cursor) (p : Char → Bool) : Bool :=
  match c.rest with
  | [] => false
  | ch :: _ => p ch

def gapAt (c : Cursor) (k : Nat) : Bool :=
  match c.rest[k]? with
  | none => true
  | some ch => isBlank ch || isBreak ch

def atLineEnd (c : Cursor) : Bool :=
  match c.rest with
  | [] => true
  | ch :: _ => isBreak ch

def skip (c : Cursor) (n : Nat) : Cursor :=
  { c with rest := c.rest.drop n, index := c.index + n, column := c.column + n }

def skipWhile (c : Cursor) (p : Char → Bool) : Cursor := c.skip (c.rest.takeWhile p).length

def skipLineText (c : Cursor) : Cursor := c.skipWhile fun ch => !isBreak ch

def readBreak (c : Cursor) : List Char × Cursor :=
  match c.rest with
  | '\r' :: '\n' :: rest => (['\n'], ⟨rest, c.index + 2, c.line + 1, 0⟩)
  | ch :: rest =>
    if isBreak ch then
      let read := if ch.toNat == 0x2028 || ch.toNat == 0x2029 then ch else '\n'
      ([read], ⟨rest, c.index + 1, c.line + 1, 0⟩)
    else ([], c)
  | [] => ([], c)

def atMark (c : Cursor) (mark : Char) : Bool :=
  c.column == 0 && c.sees 0 mark && c.sees 1 mark && c.sees 2 mark && c.gapAt 3

def atDocumentMark (c : Cursor) : Bool := c.atMark '-' || c.atMark '.'

def restOfLine? (c : Cursor) : Option Cursor :=
  let c := c.skipWhile isBlank
  let c := if c.sees 0 '#' then c.skipLineText else c
  if c.atLineEnd then some c.readBreak.2 else none

end Cursor

end DocLint.Yaml
