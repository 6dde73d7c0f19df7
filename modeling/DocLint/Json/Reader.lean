import DocLint.Json

/-!
# Reading JSON

Recursive descent over the characters. Every reader returns the value and the
rest of the text. Arrays and objects nest at most 127 deep, a string holds no
raw control character, and an escaped surrogate stands in a pair.
-/

set_option autoImplicit false

namespace DocLint.Json

def isSpace (c : Char) : Bool := c == ' ' || c == '\t' || c == '\n' || c == '\r'

def skipSpace (cs : List Char) : List Char := cs.dropWhile isSpace

def hexValue? (c : Char) : Option Nat :=
  let n := c.toNat
  if 48 ≤ n && n ≤ 57 then some (n - 48)
  else if 97 ≤ n && n ≤ 102 then some (n - 87)
  else if 65 ≤ n && n ≤ 70 then some (n - 55)
  else none

def hexUnit? : List Char → Option (Nat × List Char)
  | a :: b :: c :: d :: rest => do
    let a ← hexValue? a
    let b ← hexValue? b
    let c ← hexValue? c
    let d ← hexValue? d
    some (((a * 16 + b) * 16 + c) * 16 + d, rest)
  | _ => none

/-- The character of a numeric escape, after its marker. A leading surrogate needs a trailing one
right behind it. -/
def unicodeEscape? (cs : List Char) : Option (Char × List Char) := do
  let (u, rest) ← hexUnit? cs
  if 0xD800 ≤ u && u ≤ 0xDBFF then
    match rest with
    | '\\' :: 'u' :: rest' =>
      let (v, rest'') ← hexUnit? rest'
      if 0xDC00 ≤ v && v ≤ 0xDFFF then
        some (Char.ofNat (0x10000 + (u - 0xD800) * 0x400 + (v - 0xDC00)), rest'')
      else none
    | _ => none
  else if 0xDC00 ≤ u && u ≤ 0xDFFF then none
  else some (Char.ofNat u, rest)

def escape? : List Char → Option (Char × List Char)
  | '"' :: rest => some ('"', rest)
  | '\\' :: rest => some ('\\', rest)
  | '/' :: rest => some ('/', rest)
  | 'b' :: rest => some ('\x08', rest)
  | 'f' :: rest => some ('\x0c', rest)
  | 'n' :: rest => some ('\n', rest)
  | 'r' :: rest => some ('\r', rest)
  | 't' :: rest => some ('\t', rest)
  | 'u' :: rest => unicodeEscape? rest
  | _ => none

def stringBody? : Nat → List Char → Option (List Char × List Char)
  | 0, _ => none
  | _ + 1, [] => none
  | fuel + 1, c :: rest =>
    if c == '"' then some ([], rest)
    else if c == '\\' then do
      let (d, rest') ← escape? rest
      let (ds, rest'') ← stringBody? fuel rest'
      some (d :: ds, rest'')
    else if c.toNat < 32 then none
    else do
      let (ds, rest') ← stringBody? fuel rest
      some (c :: ds, rest')

def readString? (fuel : Nat) (cs : List Char) : Option (String × List Char) :=
  (stringBody? fuel cs).map fun r => (String.ofList r.1, r.2)

def digits (cs : List Char) : List Char × List Char := cs.span Char.isDigit

def natOfDigits (ds : List Char) : Nat := ds.foldl (fun n d => 10 * n + (d.toNat - 48)) 0

def integerPart? (cs : List Char) : Option (List Char × List Char) :=
  match cs with
  | '0' :: rest => some (['0'], rest)
  | _ =>
    match digits cs with
    | ([], _) => none
    | (ds, rest) => some (ds, rest)

def fractionPart? (cs : List Char) : Option (List Char × List Char) :=
  match cs with
  | '.' :: rest =>
    match digits rest with
    | ([], _) => none
    | (ds, rest') => some ('.' :: ds, rest')
  | _ => some ([], cs)

def exponentSign : List Char → List Char × List Char
  | '+' :: rest => (['+'], rest)
  | '-' :: rest => (['-'], rest)
  | cs => ([], cs)

def exponentPart? (cs : List Char) : Option (List Char × List Char) :=
  match cs with
  | c :: rest =>
    if c == 'e' || c == 'E' then
      let (sign, rest') := exponentSign rest
      match digits rest' with
      | ([], _) => none
      | (ds, rest'') => some (c :: sign ++ ds, rest'')
    else some ([], cs)
  | [] => some ([], [])

def readNumber? (cs : List Char) : Option (JsonNumber × List Char) := do
  let (sign, cs) := match cs with
    | '-' :: rest => (['-'], rest)
    | _ => ([], cs)
  let (int, cs) ← integerPart? cs
  let (frac, cs) ← fractionPart? cs
  let (exp, cs) ← exponentPart? cs
  if sign.isEmpty && frac.isEmpty && exp.isEmpty then some (.natural (natOfDigits int), cs)
  else some (.other (String.ofList (sign ++ int ++ frac ++ exp)), cs)

mutual

/-- Reads a value. The depth is the number of arrays and objects that may still be entered. -/
def readValue? : Nat → Nat → List Char → Option (Json × List Char)
  | 0, _, _ => none
  | fuel + 1, depth, cs =>
    match skipSpace cs with
    | 'n' :: 'u' :: 'l' :: 'l' :: rest => some (.null, rest)
    | 't' :: 'r' :: 'u' :: 'e' :: rest => some (.bool true, rest)
    | 'f' :: 'a' :: 'l' :: 's' :: 'e' :: rest => some (.bool false, rest)
    | '"' :: rest => (readString? fuel rest).map fun r => (.string r.1, r.2)
    | '[' :: rest =>
      match depth, skipSpace rest with
      | 0, _ => none
      | _ + 1, ']' :: rest' => some (.array [], rest')
      | depth + 1, rest' => (readItems? fuel depth rest').map fun r => (.array r.1, r.2)
    | '{' :: rest =>
      match depth, skipSpace rest with
      | 0, _ => none
      | _ + 1, '}' :: rest' => some (.object [], rest')
      | depth + 1, rest' => (readMembers? fuel depth rest').map fun r => (.object r.1, r.2)
    | cs => (readNumber? cs).map fun r => (.number r.1, r.2)

def readItems? : Nat → Nat → List Char → Option (List Json × List Char)
  | 0, _, _ => none
  | fuel + 1, depth, cs => do
    let (v, cs) ← readValue? fuel depth cs
    match skipSpace cs with
    | ',' :: rest =>
      let (vs, rest') ← readItems? fuel depth rest
      some (v :: vs, rest')
    | ']' :: rest => some ([v], rest)
    | _ => none

def readMembers? : Nat → Nat → List Char → Option (List (String × Json) × List Char)
  | 0, _, _ => none
  | fuel + 1, depth, cs =>
    match skipSpace cs with
    | '"' :: rest => do
      let (key, rest) ← readString? fuel rest
      match skipSpace rest with
      | ':' :: rest => do
        let (v, rest) ← readValue? fuel depth rest
        match skipSpace rest with
        | ',' :: rest => do
          let (ms, rest) ← readMembers? fuel depth rest
          some ((key, v) :: ms, rest)
        | '}' :: rest => some ([(key, v)], rest)
        | _ => none
      | _ => none
    | _ => none

end

/-- Reads a text that holds one value and nothing else. No character takes more than two steps. -/
def parse? (s : String) : Option Json :=
  let cs := s.toList
  match readValue? (2 * cs.length + 2) 127 cs with
  | some (v, rest) => if (skipSpace rest).isEmpty then some v else none
  | none => none

end DocLint.Json
