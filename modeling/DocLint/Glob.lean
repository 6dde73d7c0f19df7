/-!
# Path patterns

How path patterns are written: `?` stands for one octet of a path, `*` for any
number of them, separators included, and a class for one octet of the written
characters. Two stars between separators stand for any number of directories,
braces for alternatives, and a backslash takes the next character as it is.
-/

set_option autoImplicit false

namespace DocLint

inductive GlobToken where
  | literal (c : Char)
  | any
  | many
  | anyAbove
  | anyBelow
  | anyBetween
  | charClass (negated : Bool) (ranges : List (Char × Char))
  | alternatives (branches : List (List GlobToken))
  deriving Repr

inductive GlobError where
  | unclosedClass
  | invalidRange (first last : Char)
  | unopenedGroup
  | unclosedGroup
  | danglingEscape
  deriving DecidableEq, Repr

namespace GlobError

def message : GlobError → String
  | .unclosedClass => "unclosed character class; missing ']'"
  | .invalidRange first last =>
    "invalid range; '" ++ String.singleton first ++ "' > '" ++ String.singleton last ++ "'"
  | .unopenedGroup =>
    "unopened alternate group; missing '\x7b' (maybe escape '\x7d' with '[\x7d]'?)"
  | .unclosedGroup =>
    "unclosed alternate group; missing '\x7d' (maybe escape '\x7b' with '[\x7b]'?)"
  | .danglingEscape => "dangling '\\'"

end GlobError

abbrev Glob := List GlobToken

namespace Glob

/-- A pattern that is being read. Tokens and branches are kept with the last one first; each open
group holds the tokens before it and its finished branches. -/
structure Draft where
  tokens : List GlobToken := []
  groups : List (List GlobToken × List (List GlobToken)) := []

namespace Draft

def push (d : Draft) (t : GlobToken) : Draft := { d with tokens := t :: d.tokens }

def inGroup (d : Draft) : Bool := !d.groups.isEmpty

def openGroup (d : Draft) : Draft := { tokens := [], groups := (d.tokens, []) :: d.groups }

def nextBranch (d : Draft) : Draft :=
  match d.groups with
  | [] => d.push (.literal ',')
  | (before, done) :: rest =>
    { tokens := [], groups := (before, d.tokens.reverse :: done) :: rest }

def closeGroup? (d : Draft) : Option Draft :=
  match d.groups with
  | [] => none
  | (before, done) :: rest =>
    some { tokens := .alternatives (d.tokens.reverse :: done).reverse :: before, groups := rest }

def pushStars (d : Draft) : Draft := (d.push .many).push .many

/-- Two stars behind a separator take its place, unless they only repeat the stars before it. -/
def pushDirectories (d : Draft) (atEnd : Bool) : Draft :=
  match d.tokens with
  | .anyAbove :: _ => d
  | .anyBelow :: _ => d
  | _ => { d with tokens := (if atEnd then .anyBelow else .anyBetween) :: d.tokens.tail }

/-- Reads two stars, given the character before them and the text behind them, and gives the text
that is left. A separator behind the stars belongs to them when they stand for directories. -/
def doubleStar (d : Draft) (prev : Option Char) (rest : List Char) : Draft × List Char :=
  if d.tokens.isEmpty then
    match rest with
    | [] => (d.push .anyAbove, [])
    | '/' :: rest' => (d.push .anyAbove, rest')
    | _ => (d.pushStars, rest)
  else if prev != some '/' && (!d.inGroup || (prev != some ',' && prev != some '{')) then
    (d.pushStars, rest)
  else
    match rest with
    | [] => (d.pushDirectories true, [])
    | '/' :: rest' => (d.pushDirectories false, rest')
    | c :: _ =>
      if d.inGroup && (c == ',' || c == '}') then (d.pushDirectories true, rest)
      else (d.pushStars, rest)

end Draft

/-- Reads the body of a class behind its opening. The ranges are kept with the last one first;
`inRange` is set behind a dash that may make a range. -/
def classBody : Bool → Bool → List (Char × Char) → List Char →
    Except GlobError (List (Char × Char) × List Char)
  | _, _, _, [] => .error .unclosedClass
  | first, inRange, ranges, c :: rest =>
    if c == ']' && !first then
      .ok ((if inRange then ('-', '-') :: ranges else ranges).reverse, rest)
    else if c == '-' && !first && !inRange then classBody false true ranges rest
    else if inRange then
      match ranges with
      | (lo, _) :: more =>
        if c < lo then .error (.invalidRange lo c)
        else classBody false false ((lo, c) :: more) rest
      | [] => classBody false false [(c, c)] rest
    else classBody false false ((c, c) :: ranges) rest

def charClass (cs : List Char) : Except GlobError (GlobToken × List Char) :=
  let (negated, body) := match cs with
    | '!' :: rest => (true, rest)
    | '^' :: rest => (true, rest)
    | _ => (false, cs)
  (classBody true false [] body).map fun r => (.charClass negated r.1, r.2)

def charBefore (cs rest : List Char) : Option Char := (cs.take (cs.length - rest.length)).getLast?

def read : Nat → Draft → Option Char → List Char → Except GlobError Draft
  | 0, d, _, _ => .ok d
  | _ + 1, d, _, [] => .ok d
  | fuel + 1, d, prev, c :: rest =>
    if c == '?' then read fuel (d.push .any) (some c) rest
    else if c == '*' then
      match rest with
      | '*' :: behind =>
        let (d', rest') := d.doubleStar prev behind
        read fuel d' (charBefore (c :: rest) rest') rest'
      | _ => read fuel (d.push .many) (some c) rest
    else if c == '[' then
      match charClass rest with
      | .ok (t, rest') => read fuel (d.push t) (some ']') rest'
      | .error e => .error e
    else if c == '{' then read fuel d.openGroup (some c) rest
    else if c == '}' then
      match d.closeGroup? with
      | some d' => read fuel d' (some c) rest
      | none => .error .unopenedGroup
    else if c == ',' then read fuel d.nextBranch (some c) rest
    else if c == '\\' then
      match rest with
      | [] => .error .danglingEscape
      | e :: rest' => read fuel (d.push (.literal e)) (some e) rest'
    else read fuel (d.push (.literal c)) (some c) rest

def parse (text : String) : Except GlobError Glob :=
  let cs := text.toList
  match read (cs.length + 1) {} none cs with
  | .error e => .error e
  | .ok d => if d.inGroup then .error .unclosedGroup else .ok d.tokens.reverse

end Glob

end DocLint
