import DocLint.ChangedLines
import DocLint.Text.Lines
import DocLint.Text.Search
import DocLint.Text.Word

/-!
# Unified diffs

A diff names a file in a header line and the lines of its new version in the
hunk headers below it. Each hunk marks its lines, with a margin on both sides.
-/

set_option autoImplicit false

namespace DocLint

namespace Patch

def behind? (sep : List Char) : List Char → Option (List Char)
  | [] => none
  | c :: cs => match Text.strip? sep (c :: cs) with
    | some rest => some rest
    | none => behind? sep cs

/-- The path of the new version in a file header. The path of the old version ends at the first
separator behind its first character. -/
def newPath? (line : List Char) : Option String :=
  match Text.strip? "diff --git a/".toList line with
  | some (_ :: rest) =>
    match behind? " b/".toList rest with
    | some [] | none => none
    | some path => some (String.ofList path)
  | _ => none

def digits? (cs : List Char) : Option (List Char × List Char) :=
  match cs.takeWhile Text.isDigitChar with
  | [] => none
  | ds => some (ds, cs.dropWhile Text.isDigitChar)

def span? (cs : List Char) : Option (List Char × Option (List Char) × List Char) := do
  let (start, rest) ← digits? cs
  match rest with
  | ',' :: more =>
    match digits? more with
    | some (count, rest') => some (start, some count, rest')
    | none => some (start, none, rest)
  | _ => some (start, none, rest)

def hunk? (line : List Char) : Option (List Char × Option (List Char)) := do
  let rest ← Text.strip? "@@ -".toList line
  let (_, _, rest) ← span? rest
  let rest ← Text.strip? " +".toList rest
  let (start, count, rest) ← span? rest
  let _ ← Text.strip? " @@".toList rest
  some (start, count)

def number? (ds : List Char) : Option Nat :=
  if ds.all Char.isDigit then
    let n := ds.foldl (fun n d => 10 * n + (d.toNat - 48)) 0
    if n < lineBound then some n else none
  else none

/-- The start and the count of a hunk. A count that is left out or cannot be read is one; a hunk
whose start cannot be read does not count. -/
def hunkLines? (line : List Char) : Option (Nat × Nat) := do
  let (start, count) ← hunk? line
  let start ← number? start
  some (start, (count.bind number?).getD 1)

def mark (margin : Nat) (file : String) (hunk : Nat × Nat) (c : ChangedLines) :
    Except LineOverflow ChangedLines :=
  let stop := hunk.1 + hunk.2 + margin
  if stop < lineBound then .ok (c.markRange file (hunk.1 - margin) stop)
  else .error .lineOverflow

def readLines (margin : Nat) : Option String → ChangedLines → List (List Char) →
    Except LineOverflow ChangedLines
  | _, c, [] => .ok c
  | file, c, line :: rest =>
    match newPath? line with
    | some path => readLines margin (some path) c rest
    | none =>
      match file, hunkLines? line with
      | some path, some hunk =>
        match mark margin path hunk c with
        | .ok c' => readLines margin file c' rest
        | .error e => .error e
      | _, _ => readLines margin file c rest

end Patch

def ChangedLines.ofDiff (text : String) (margin : Nat) : Except LineOverflow ChangedLines :=
  Patch.readLines margin none .empty (Text.lines text.toList)

end DocLint
