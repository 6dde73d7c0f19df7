import DocLint.Ascending

/-!
# Changed lines

For each file the numbers of its changed lines, counted from one. Files stand
in ascending order and so do the lines of a file, without repetition; a file
without changed lines is left out.
-/

set_option autoImplicit false

namespace DocLint

def lineBound : Nat := UInt64.size

inductive LineOverflow where
  | lineOverflow
  deriving DecidableEq, Repr

structure ChangedLines where
  files : List (String × List Nat) := []
  deriving DecidableEq, Repr

namespace ChangedLines

def empty : ChangedLines := {}

def addTo (file : String) (lines : List Nat) : List (String × List Nat) → List (String × List Nat)
  | [] => [(file, lines)]
  | (f, ls) :: rest =>
    if file < f then (file, lines) :: (f, ls) :: rest
    else if f < file then (f, ls) :: addTo file lines rest
    else (f, mergeAscending ls lines) :: rest

def markRange (c : ChangedLines) (file : String) (start stop : Nat) : ChangedLines :=
  let start := max start 1
  if stop ≤ start then c
  else ⟨addTo file (List.range' start (stop - start)) c.files⟩

def insert (c : ChangedLines) (file : String) (line : Nat) : Except LineOverflow ChangedLines :=
  if line + 1 < lineBound then .ok (c.markRange file line (line + 1)) else .error .lineOverflow

def union (c d : ChangedLines) : ChangedLines :=
  ⟨d.files.foldl (fun acc entry => addTo entry.1 entry.2 acc) c.files⟩

def linesFor (c : ChangedLines) (file : String) : Option (List Nat) := c.files.lookup file

def size (c : ChangedLines) : Nat := c.files.length

def isEmpty (c : ChangedLines) : Bool := c.files.isEmpty

def totalLines (c : ChangedLines) : Nat := (c.files.flatMap fun entry => entry.2).length

/-- Files and lines ascend, and no file is without lines. -/
def WellFormed (c : ChangedLines) : Prop :=
  c.files.Pairwise (fun e f => e.1 < f.1) ∧
    ∀ e ∈ c.files, e.2 ≠ [] ∧ e.2.Pairwise (· < ·) ∧ ∀ n ∈ e.2, 1 ≤ n

def Has (c : ChangedLines) (file : String) (line : Nat) : Prop :=
  ∃ lines, (file, lines) ∈ c.files ∧ line ∈ lines

end ChangedLines

end DocLint
