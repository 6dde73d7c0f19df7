import DocLint.Yaml.Property

/-!
# The tokens of a YAML text

A block starts where a line is indented further than the block around it, and
ends where one is indented less. A mapping key without a mark of its own is
known only at the colon behind it: until then its place is remembered, one for
each level of flow brackets, and the tokens for it are put in afterwards. Such
a key lies on one line and within 1024 characters.
-/

set_option autoImplicit false

namespace DocLint.Yaml

/-- The place of a token that may turn out to be a key. It is required to be one when it stands at
the indentation of the block. -/
structure PossibleKey where
  required : Bool
  position : Nat
  index : Nat
  line : Nat
  column : Nat
  deriving Repr

structure Scan where
  cursor : Cursor
  /-- The indentation of the current block, which is -1 outside of all blocks. -/
  indent : Int := -1
  outer : List Int := []
  keyAllowed : Bool := true
  keys : List (Option PossibleKey) := [none]
  tokens : List Token := []
  deriving Repr

namespace Scan

def inFlow (s : Scan) : Bool :=
  match s.keys with
  | _ :: _ :: _ => true
  | _ => false

def push (s : Scan) (t : Token) : Scan := { s with tokens := t :: s.tokens }

def moveTo (s : Scan) (c : Cursor) : Scan := { s with cursor := c }

def insertAt (s : Scan) (position : Nat) (t : Token) : Scan :=
  let later := s.tokens.length - position
  { s with tokens := s.tokens.take later ++ t :: s.tokens.drop later }

def openBlock (s : Scan) (column : Nat) (position : Nat) (t : Token) : Scan :=
  if !s.inFlow && s.indent < column then
    { s.insertAt position t with indent := column, outer := s.indent :: s.outer }
  else s

def closeFrom (column : Int) : Int → List Int → List Token → Int × List Int × List Token
  | indent, [], tokens => (indent, [], tokens)
  | indent, i :: rest, tokens =>
    if column < indent then closeFrom column i rest (.blockEnd :: tokens)
    else (indent, i :: rest, tokens)

def closeBlocks (s : Scan) (column : Int) : Scan :=
  if s.inFlow then s
  else
    let (indent, outer, tokens) := closeFrom column s.indent s.outer s.tokens
    { s with indent := indent, outer := outer, tokens := tokens }

def dropKey? (s : Scan) : Option Scan :=
  match s.keys with
  | some key :: rest => if key.required then none else some { s with keys := none :: rest }
  | _ => some s

def saveKey? (s : Scan) : Option Scan :=
  if s.keyAllowed then do
    let c := s.cursor
    let key : PossibleKey :=
      { required := !s.inFlow && s.indent == c.column
        position := s.tokens.length
        index := c.index
        line := c.line
        column := c.column }
    let s ← s.dropKey?
    some { s with keys := some key :: s.keys.drop 1 }
  else some s

def isStale (c : Cursor) (key : PossibleKey) : Bool :=
  key.line < c.line || key.index + 1024 < c.index

def dropStale? (s : Scan) : Option Scan :=
  if s.keys.any fun key? => key?.any fun key => isStale s.cursor key && key.required then none
  else if s.keys.any fun key? => key?.any (isStale s.cursor) then
    some { s with keys := s.keys.map fun key? => key?.filter fun key => !isStale s.cursor key }
  else some s

/-- Moves over blanks, comments and line breaks. Tabs count as blanks where no key may start. -/
def toNextToken : Nat → Scan → Scan
  | 0, s => s
  | fuel + 1, s =>
    let c := s.cursor
    let c := if c.column == 0 && c.nextIs (fun ch => ch.toNat == 0xFEFF) then c.skip 1 else c
    let tabs := s.inFlow || !s.keyAllowed
    let c := c.skipWhile fun ch => ch == ' ' || (tabs && ch == '\t')
    let c := if c.sees 0 '#' then c.skipLineText else c
    if c.nextIs isBreak then
      toNextToken fuel
        { s with cursor := c.readBreak.2, keyAllowed := s.keyAllowed || !s.inFlow }
    else s.moveTo c

def mark (s : Scan) (t : Token) (keyAllowed : Bool) : Scan :=
  { s.push t with cursor := s.cursor.skip 1, keyAllowed := keyAllowed }

def flowStart? (s : Scan) (t : Token) : Option Scan := do
  let s ← s.saveKey?
  some { s.mark t true with keys := none :: s.keys }

def flowEnd? (s : Scan) (t : Token) : Option Scan := do
  let s ← s.dropKey?
  some { s.mark t false with keys := if s.inFlow then s.keys.drop 1 else s.keys }

def flowEntry? (s : Scan) : Option Scan := do
  let s ← s.dropKey?
  some (s.mark .flowEntry true)

def endBlocks? (s : Scan) : Option Scan := do
  let s ← (s.closeBlocks (-1)).dropKey?
  some { s with keyAllowed := false }

def documentMark? (s : Scan) (t : Token) : Option Scan := do
  let s ← s.endBlocks?
  some ((s.push t).moveTo (s.cursor.skip 3))

def directiveLine? (s : Scan) : Option Scan := do
  let s ← s.endBlocks?
  let (t, c) ← directive? s.cursor
  some ((s.push t).moveTo c)

/-- An entry of a block sequence or the mark of a key. In a block it needs a place where a key may
start. -/
def blockMark? (s : Scan) (start t : Token) (keyAllowed : Bool) : Option Scan := do
  if !s.inFlow && !s.keyAllowed then none
  else
    let s ← (s.openBlock s.cursor.column s.tokens.length start).dropKey?
    some (s.mark t keyAllowed)

def value? (s : Scan) : Option Scan :=
  match s.keys with
  | some key :: rest =>
    let s := s.insertAt key.position .key
    let s := s.openBlock key.column key.position .blockMappingStart
    some { s.mark .value false with keys := none :: rest }
  | _ =>
    if s.inFlow then some (s.mark .value false)
    else if !s.keyAllowed then none
    else
      let s := s.openBlock s.cursor.column s.tokens.length .blockMappingStart
      some (s.mark .value true)

def keyToken? (s : Scan) (read : Cursor → Option (Token × Cursor)) : Option Scan := do
  let s ← s.saveKey?
  let (t, c) ← read s.cursor
  some { s.push t with cursor := c, keyAllowed := false }

def plain? (s : Scan) : Option Scan := do
  let s ← s.saveKey?
  let (text, broken, c) ← plainScalar? s.inFlow (s.indent + 1) s.cursor
  some { s.push (.scalar text .plain) with cursor := c, keyAllowed := broken }

def block? (s : Scan) (literal : Bool) : Option Scan := do
  let s ← s.dropKey?
  let (text, c) ← blockScalar? literal s.indent s.cursor
  let style := if literal then ScalarStyle.literal else ScalarStyle.other
  some { s.push (.scalar text style) with cursor := c, keyAllowed := true }

def quoted (quote : Char) (c : Cursor) : Option (Token × Cursor) :=
  (quotedScalar? quote c).map fun r => (.scalar r.1 .other, r.2)

def named (make : String → Token) (c : Cursor) : Option (Token × Cursor) :=
  (anchorName? (c.skip 1)).map fun r => (make r.1, r.2)

def isMark (c : Char) : Bool := "-?:,[]\x7b\x7d#&*!|>'\"%@`".toList.contains c

def startsPlain (flow : Bool) (c : Cursor) : Bool :=
  (!c.gapAt 0 && !c.nextIs isMark) ||
    (c.sees 0 '-' && !(c.skip 1).nextIs isBlank) ||
    (!flow && (c.sees 0 '?' || c.sees 0 ':') && !c.gapAt 1)

def token? (s : Scan) : Option Scan :=
  let c := s.cursor
  let flow := s.inFlow
  if c.column == 0 && c.sees 0 '%' then s.directiveLine?
  else if c.atMark '-' then s.documentMark? .documentStart
  else if c.atMark '.' then s.documentMark? .documentEnd
  else if c.sees 0 '[' then s.flowStart? .flowSequenceStart
  else if c.sees 0 '{' then s.flowStart? .flowMappingStart
  else if c.sees 0 ']' then s.flowEnd? .flowSequenceEnd
  else if c.sees 0 '}' then s.flowEnd? .flowMappingEnd
  else if c.sees 0 ',' then s.flowEntry?
  else if c.sees 0 '-' && c.gapAt 1 then s.blockMark? .blockSequenceStart .blockEntry true
  else if c.sees 0 '?' && (flow || c.gapAt 1) then s.blockMark? .blockMappingStart .key (!flow)
  else if c.sees 0 ':' && (flow || c.gapAt 1) then s.value?
  else if c.sees 0 '*' then s.keyToken? (named .alias)
  else if c.sees 0 '&' then s.keyToken? (named .anchor)
  else if c.sees 0 '!' then s.keyToken? (tag? flow)
  else if c.sees 0 '|' && !flow then s.block? true
  else if c.sees 0 '>' && !flow then s.block? false
  else if c.sees 0 '\x27' then s.keyToken? (quoted '\x27')
  else if c.sees 0 '"' then s.keyToken? (quoted '"')
  else if startsPlain flow c then s.plain?
  else none

def finish? (s : Scan) : Option Scan := do
  let s ← s.endBlocks?
  some (s.push .streamEnd)

/-- Reads all tokens. Each of them takes a character, so `fuel` bounds what is left of the text. -/
def run : Nat → Scan → Option Scan
  | 0, _ => none
  | fuel + 1, s => do
    let s := toNextToken (fuel + 1) s
    let s ← s.dropStale?
    let s := s.closeBlocks s.cursor.column
    if s.cursor.atEnd then s.finish? else run fuel (← s.token?)

end Scan

def tokens? (text : String) : Option (List Token) :=
  let cs := text.toList
  if cs.all isAllowed then
    (Scan.run (cs.length + 1) { cursor := ⟨cs, 0, 0, 0⟩ }).map fun s => s.tokens.reverse
  else none

end DocLint.Yaml
