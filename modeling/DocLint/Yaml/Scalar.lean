import DocLint.Yaml.Cursor

/-!
# Scalars of a YAML text

Plain, quoted and block scalars. In plain and quoted scalars a gap of blanks
within a line is kept, and a gap with line breaks is folded: one break counts
as a blank, several count as one break less.
-/

set_option autoImplicit false

namespace DocLint.Yaml

/-- What stands between two runs of characters of a scalar. -/
inductive Gap where
  | none
  | blanks (text : List Char)
  | breaks (first more : List Char)
  deriving Repr

namespace Gap

def folded : Gap → List Char
  | .none => []
  | .blanks text => text
  | .breaks first more =>
    if first == ['\n'] then (if more.isEmpty then [' '] else more) else first ++ more

def hasBreak : Gap → Bool
  | .breaks _ _ => true
  | _ => false

end Gap

/-- Reads the gap at a cursor. With a limit, a tab to the left of that column is refused in the
indentation of a line. -/
def readGap (limit : Option Int) : Nat → Gap → Cursor → Option (Gap × Cursor)
  | 0, gap, c => some (gap, c)
  | fuel + 1, gap, c =>
    if c.nextIs isBlank then
      match gap with
      | .breaks first more =>
        let misplaced := match limit with
          | some column => (c.column : Int) < column && c.sees 0 '\t'
          | Option.none => false
        if misplaced then Option.none else readGap limit fuel (.breaks first more) (c.skip 1)
      | .blanks text => readGap limit fuel (.blanks (text ++ c.rest.take 1)) (c.skip 1)
      | .none => readGap limit fuel (.blanks (c.rest.take 1)) (c.skip 1)
    else if c.nextIs isBreak then
      let (read, c') := c.readBreak
      match gap with
      | .breaks first more => readGap limit fuel (.breaks first (more ++ read)) c'
      | _ => readGap limit fuel (.breaks read []) c'
    else some (gap, c)

def isFlowMark (c : Char) : Bool := c == ',' || c == '[' || c == ']' || c == '{' || c == '}'

/-- Whether the character at a cursor ends a plain scalar. Between flow brackets a colon before a
flow mark is refused. -/
def endsPlain? (flow : Bool) (c : Cursor) : Option Bool :=
  if c.gapAt 0 then some true
  else if flow && c.sees 0 ':' && (c.skip 1).nextIs (fun ch => isFlowMark ch || ch == '?') then none
  else some ((c.sees 0 ':' && c.gapAt 1) || (flow && c.nextIs isFlowMark))

def plainRun (flow : Bool) : Nat → List Char → Gap → Cursor →
    Option (List Char × Gap × Cursor)
  | 0, text, gap, c => some (text, gap, c)
  | fuel + 1, text, gap, c => do
    if ← endsPlain? flow c then some (text, gap, c)
    else plainRun flow fuel (c.rest.take 1 ++ gap.folded.reverse ++ text) .none (c.skip 1)

def plainLines (flow : Bool) (indent : Int) : Nat → List Char → Gap → Cursor →
    Option (List Char × Gap × Cursor)
  | 0, text, gap, c => some (text, gap, c)
  | fuel + 1, text, gap, c =>
    if c.atDocumentMark || c.sees 0 '#' then some (text, gap, c)
    else do
      let (text, gap, c) ← plainRun flow c.rest.length text gap c
      if c.atEnd || !c.gapAt 0 then some (text, gap, c)
      else
        let (gap, c) ← readGap (some indent) c.rest.length gap c
        if !flow && (c.column : Int) < indent then some (text, gap, c)
        else plainLines flow indent fuel text gap c

def plainScalar? (flow : Bool) (indent : Int) (c : Cursor) :
    Option (String × Bool × Cursor) := do
  let (text, gap, c) ← plainLines flow indent (c.rest.length + 1) [] .none c
  some (String.ofList text.reverse, gap.hasBreak, c)

def hexValue? (c : Char) : Option Nat :=
  if c.isDigit then some (c.toNat - 48)
  else if 'a' ≤ c && c ≤ 'f' then some (c.toNat - 87)
  else if 'A' ≤ c && c ≤ 'F' then some (c.toNat - 55)
  else none

def hexNumber? (cs : List Char) : Option Nat :=
  cs.foldl (fun n? c => do some ((← n?) * 16 + (← hexValue? c))) (some 0)

def codeEscape? (n : Nat) (c : Cursor) : Option (Char × Cursor) := do
  if c.rest.length < n then none
  else
    let code ← hexNumber? (c.rest.take n)
    if (0xD800 ≤ code && code ≤ 0xDFFF) || 0x10FFFF < code then none
    else some (Char.ofNat code, c.skip n)

def escape? (c : Cursor) : Option (Char × Cursor) :=
  match c.rest with
  | [] => none
  | ch :: _ =>
    let code (n : Nat) : Option (Char × Cursor) := some (Char.ofNat n, c.skip 1)
    match ch with
    | '0' => code 0
    | 'a' => code 7
    | 'b' => code 8
    | 't' => code 9
    | '\t' => code 9
    | 'n' => code 10
    | 'v' => code 11
    | 'f' => code 12
    | 'r' => code 13
    | 'e' => code 27
    | ' ' => code 32
    | '"' => code 34
    | '/' => code 47
    | '\\' => code 92
    | 'N' => code 0x85
    | '_' => code 0xA0
    | 'L' => code 0x2028
    | 'P' => code 0x2029
    | 'x' => codeEscape? 2 (c.skip 1)
    | 'u' => codeEscape? 4 (c.skip 1)
    | 'U' => codeEscape? 8 (c.skip 1)
    | _ => none

/-- Reads a run of characters of a quoted scalar. A backslash before a line break opens a gap
that counts as nothing. -/
def quotedRun (quote : Char) : Nat → List Char → Cursor → Option (List Char × Gap × Cursor)
  | 0, text, c => some (text, .none, c)
  | fuel + 1, text, c =>
    if c.gapAt 0 then some (text, .none, c)
    else if quote == '\x27' && c.sees 0 quote && c.sees 1 quote then
      quotedRun quote fuel (quote :: text) (c.skip 2)
    else if c.sees 0 quote then some (text, .none, c)
    else if quote == '"' && c.sees 0 '\\' then
      if (c.skip 1).nextIs isBreak then some (text, .breaks [] [], (c.skip 1).readBreak.2)
      else do
        let (ch, c) ← escape? (c.skip 1)
        quotedRun quote fuel (ch :: text) c
    else quotedRun quote fuel (c.rest.take 1 ++ text) (c.skip 1)

def quotedLines (quote : Char) : Nat → List Char → Cursor → Option (List Char × Cursor)
  | 0, _, _ => none
  | fuel + 1, text, c =>
    if c.atDocumentMark || c.atEnd then none
    else do
      let (text, gap, c) ← quotedRun quote c.rest.length text c
      if c.sees 0 quote then some (text, c.skip 1)
      else
        let (gap, c) ← readGap none c.rest.length gap c
        quotedLines quote fuel (gap.folded.reverse ++ text) c

def quotedScalar? (quote : Char) (c : Cursor) : Option (String × Cursor) :=
  (quotedLines quote (c.rest.length + 2) [] (c.skip 1)).map fun r =>
    (String.ofList r.1.reverse, r.2)

/-- Which of the breaks at the end of a block scalar are kept. -/
inductive Chomping where
  | strip
  | clip
  | keep
  deriving DecidableEq, Repr

def chomping? (c : Cursor) : Option Chomping :=
  if c.sees 0 '+' then some .keep else if c.sees 0 '-' then some .strip else none

def indentDigit? (c : Cursor) : Option Nat :=
  match c.rest with
  | ch :: _ => if ch.isDigit then some (ch.toNat - 48) else none
  | [] => none

/-- The chomping and the indentation (zero if none is given) of a block scalar's header, in
either order. An indentation of zero is refused. -/
def blockHeader? (c : Cursor) : Option (Chomping × Nat × Cursor) := do
  let (chomp, c) := match chomping? c with
    | some ch => (some ch, c.skip 1)
    | none => (none, c)
  let (digit, c) := match indentDigit? c with
    | some d => (some d, c.skip 1)
    | none => (none, c)
  let (chomp, c) := match chomp, digit, chomping? c with
    | none, some _, some ch => (some ch, c.skip 1)
    | _, _, _ => (chomp, c)
  if digit == some 0 then none
  else
    let c ← c.restOfLine?
    some (chomp.getD .clip, digit.getD 0, c)

/-- Reads empty lines and the indentation of the next line. With indentation zero, which is not
known yet, the widest one is measured. A tab in the indentation is refused. -/
def blockBreaks (indent : Nat) : Nat → List Char → Nat → Cursor →
    Option (List Char × Nat × Cursor)
  | 0, breaks, widest, c => some (breaks, widest, c)
  | fuel + 1, breaks, widest, c =>
    let spaces := (c.rest.takeWhile (· == ' ')).length
    let c := c.skip (if indent == 0 then spaces else min spaces (indent - c.column))
    let widest := max widest c.column
    if (indent == 0 || c.column < indent) && c.sees 0 '\t' then none
    else if c.nextIs isBreak then
      let (read, c) := c.readBreak
      blockBreaks indent fuel (breaks ++ read) widest c
    else some (breaks, widest, c)

/-- Reads the lines of a block scalar with known indentation. `first` is the break behind the
last line read and `breaks` the further ones; `blank` tells whether that line starts blank. -/
def blockLines (literal : Bool) (indent : Nat) : Nat → List Char → List Char → List Char →
    Bool → Cursor → Option (List Char × List Char × List Char × Cursor)
  | 0, text, first, breaks, _, c => some (text, first, breaks, c)
  | fuel + 1, text, first, breaks, blank, c =>
    if c.column == indent && !c.atEnd then do
      let startsBlank := c.nextIs isBlank
      let joint :=
        if !literal && first == ['\n'] && !blank && !startsBlank then
          (if breaks.isEmpty then [' '] else [])
        else first
      let line := c.rest.takeWhile fun ch => !isBreak ch
      let (first', c) := (c.skip line.length).readBreak
      let (breaks', _, c) ← blockBreaks indent (c.rest.length + 1) [] 0 c
      blockLines literal indent fuel (text ++ joint ++ breaks ++ line) first' breaks' startsBlank c
    else some (text, first, breaks, c)

def blockScalar? (literal : Bool) (parent : Int) (c : Cursor) : Option (String × Cursor) := do
  let (chomp, digit, c) ← blockHeader? (c.skip 1)
  let given := if digit == 0 then 0 else (max parent 0).toNat + digit
  let (breaks, widest, c) ← blockBreaks given (c.rest.length + 1) [] 0 c
  let indent := if given == 0 then max (max widest (parent + 1).toNat) 1 else given
  let (text, first, breaks, c) ←
    blockLines literal indent (c.rest.length + 1) [] [] breaks false c
  let tail := match chomp with
    | .strip => []
    | .clip => first
    | .keep => first ++ breaks
  some (String.ofList (text ++ tail), c)

end DocLint.Yaml
