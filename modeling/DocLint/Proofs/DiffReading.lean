import DocLint.Patch
import DocLint.Proofs.MarkedLines
import DocLint.Proofs.TextLines

/-!
# What a diff marks

A line of a diff names a file, counts as a hunk of the file named last, or is
skipped. The hunks that count decide everything: if none of them reaches the
bound of line numbers, the diff is read, and it marks their lines.
-/

set_option autoImplicit false

namespace DocLint

namespace Patch

theorem newPath?_eq_none (line : List Char) (h : ¬ "diff --git ".toList <+: line) :
    newPath? line = none := by
  have hlonger : ¬ "diff --git a/".toList <+: line :=
    fun hp => h (List.IsPrefix.trans ⟨"a/".toList, by decide⟩ hp)
  rw [newPath?, Text.strip?_eq_none _ line hlonger]

theorem hunkLines?_eq_none (line : List Char) (h : ¬ "@@".toList <+: line) :
    hunkLines? line = none := by
  have hlonger : ¬ "@@ -".toList <+: line :=
    fun hp => h (List.IsPrefix.trans ⟨" -".toList, by decide⟩ hp)
  rw [hunkLines?, hunk?, Text.strip?_eq_none _ line hlonger]
  rfl

def Plain (line : List Char) : Prop :=
  ¬ "diff --git ".toList <+: line ∧ ¬ "@@".toList <+: line

instance (line : List Char) : Decidable (Plain line) := inferInstanceAs (Decidable (_ ∧ _))

/-- A hunk that counts, with the file that the nearest header above it names. -/
structure FileHunk where
  file : String
  start : Nat
  count : Nat

namespace FileHunk

def Covers (margin : Nat) (h : FileHunk) (file : String) (n : Nat) : Prop :=
  h.file = file ∧ max 1 (h.start - margin) ≤ n ∧ n < h.start + h.count + margin

def Fits (margin : Nat) (h : FileHunk) : Prop := h.start + h.count + margin < lineBound

instance (margin : Nat) (h : FileHunk) : Decidable (h.Fits margin) :=
  inferInstanceAs (Decidable (_ < _))

end FileHunk

/-- The hunk that a line counts as below a file header, if there was one. -/
def hunkAt? (file : Option String) (line : List Char) : Option FileHunk := do
  let path ← file
  let (start, count) ← hunkLines? line
  some ⟨path, start, count⟩

/-- The hunks that count in the lines below a file header, if there was one. -/
def counted : Option String → List (List Char) → List FileHunk
  | _, [] => []
  | file, line :: rest =>
    match newPath? line with
    | some path => counted (some path) rest
    | none => (hunkAt? file line).toList ++ counted file rest

theorem counted_header (file : Option String) (line : List Char) (rest : List (List Char))
    (path : String) (h : newPath? line = some path) :
    counted file (line :: rest) = counted (some path) rest := by
  rw [counted, h]

theorem counted_hunk (path : String) (line : List Char) (rest : List (List Char))
    (hunk : Nat × Nat) (hpath : newPath? line = none) (hhunk : hunkLines? line = some hunk) :
    counted (some path) (line :: rest) =
      ⟨path, hunk.1, hunk.2⟩ :: counted (some path) rest := by
  simp [counted, hpath, hunkAt?, hhunk]

theorem counted_skip (file : Option String) (line : List Char) (rest : List (List Char))
    (hpath : newPath? line = none) (hnone : hunkAt? file line = none) :
    counted file (line :: rest) = counted file rest := by
  rw [counted, hpath, hnone]
  rfl

theorem counted_plain (file : Option String) (skipped rest : List (List Char))
    (h : ∀ line ∈ skipped, Plain line) :
    counted file (skipped ++ rest) = counted file rest := by
  induction skipped with
  | nil => rfl
  | cons line skipped ih =>
    have hline : Plain line := h line List.mem_cons_self
    have hnone : hunkAt? file line = none := by
      cases file with
      | none => rfl
      | some path => simp [hunkAt?, hunkLines?_eq_none line hline.2]
    rw [List.cons_append, counted_skip file line _ (newPath?_eq_none line hline.1) hnone,
      ih fun l hl => h l (List.mem_cons_of_mem line hl)]

theorem hunkAt?_eq_none (file : Option String) (line : List Char)
    (h : ∀ path hunk, file = some path → hunkLines? line = some hunk → False) :
    hunkAt? file line = none := by
  cases file with
  | none => rfl
  | some path =>
    cases hhunk : hunkLines? line with
    | none => simp [hunkAt?, hhunk]
    | some hunk => exact (h path hunk rfl hhunk).elim

def markAll (margin : Nat) (c : ChangedLines) (hunks : List FileHunk) : ChangedLines :=
  hunks.foldl (fun c h => c.markRange h.file (h.start - margin) (h.start + h.count + margin)) c

theorem wellFormed_markAll (margin : Nat) (c : ChangedLines) (hunks : List FileHunk)
    (hc : c.WellFormed) : (markAll margin c hunks).WellFormed := by
  induction hunks generalizing c with
  | nil => exact hc
  | cons h hunks ih => exact ih _ (c.wellFormed_markRange h.file _ _ hc)

theorem has_markAll (margin : Nat) (c : ChangedLines) (hunks : List FileHunk) (file : String)
    (n : Nat) :
    (markAll margin c hunks).Has file n ↔
      (∃ h ∈ hunks, h.Covers margin file n) ∨ c.Has file n := by
  induction hunks generalizing c with
  | nil => simp [markAll]
  | cons h hunks ih =>
    have hcovers : h.Covers margin file n ↔
        file = h.file ∧ max (h.start - margin) 1 ≤ n ∧ n < h.start + h.count + margin := by
      rw [FileHunk.Covers, eq_comm, Nat.max_comm]
    rw [markAll, List.foldl_cons, ← markAll, ih, ChangedLines.has_markRange, ← hcovers]
    simp [or_assoc, or_left_comm]

theorem readLines_eq_markAll (margin : Nat) (file : Option String) (c : ChangedLines)
    (lines : List (List Char)) (hfit : ∀ h ∈ counted file lines, h.Fits margin) :
    readLines margin file c lines = .ok (markAll margin c (counted file lines)) := by
  fun_induction readLines margin file c lines with
  | case1 file c => rfl
  | case2 file c line rest path hpath ih =>
    rw [counted_header file line rest path hpath] at hfit ⊢
    exact ih hfit
  | case3 c line rest hpath path hunk hhunk c' hmark ih =>
    rw [counted_hunk path line rest hunk hpath hhunk] at hfit ⊢
    have hstop : hunk.1 + hunk.2 + margin < lineBound := hfit _ List.mem_cons_self
    have hc' : c' = c.markRange path (hunk.1 - margin) (hunk.1 + hunk.2 + margin) := by
      simpa [mark, hstop] using hmark.symm
    rw [ih fun h hh => hfit h (List.mem_cons_of_mem _ hh), hc']
    rfl
  | case4 c line rest hpath path hunk hhunk e hmark =>
    rw [counted_hunk path line rest hunk hpath hhunk] at hfit
    have hstop : hunk.1 + hunk.2 + margin < lineBound := hfit _ List.mem_cons_self
    simp [mark, hstop] at hmark
  | case5 file c line rest hpath hnone ih =>
    rw [counted_skip file line rest hpath (hunkAt?_eq_none file line hnone)] at hfit ⊢
    exact ih hfit

theorem ofDiff_of_fits (text : String) (margin : Nat)
    (hfit : ∀ h ∈ counted none (Text.lines text.toList), h.Fits margin) :
    ∃ c, ChangedLines.ofDiff text margin = .ok c ∧ c.WellFormed ∧
      ∀ file n, c.Has file n ↔
        ∃ h ∈ counted none (Text.lines text.toList), h.Covers margin file n := by
  have hread := readLines_eq_markAll margin none .empty (Text.lines text.toList) hfit
  have hwf := wellFormed_markAll margin .empty (counted none (Text.lines text.toList))
    ChangedLines.wellFormed_empty
  refine ⟨_, hread, hwf, ?_⟩
  intro file n
  have hempty : ¬ ChangedLines.empty.Has file n := ChangedLines.has_nil file n
  rw [has_markAll, or_iff_left hempty]

theorem readLines_eq_error (margin : Nat) (file : Option String) (c : ChangedLines)
    (lines : List (List Char)) (h : FileHunk) (hmem : h ∈ counted file lines)
    (hfit : ¬ h.Fits margin) : readLines margin file c lines = .error .lineOverflow := by
  fun_induction readLines margin file c lines with
  | case1 file c => simp [counted] at hmem
  | case2 file c line rest path hpath ih =>
    rw [counted_header file line rest path hpath] at hmem
    exact ih hmem
  | case3 c line rest hpath path hunk hhunk c' hmark ih =>
    rw [counted_hunk path line rest hunk hpath hhunk] at hmem
    rcases List.mem_cons.mp hmem with rfl | hmem
    · rw [FileHunk.Fits] at hfit
      simp [mark, hfit] at hmark
    · exact ih hmem
  | case4 c line rest hpath path hunk hhunk e hmark => rfl
  | case5 file c line rest hpath hnone ih =>
    rw [counted_skip file line rest hpath (hunkAt?_eq_none file line hnone)] at hmem
    exact ih hmem

end Patch

end DocLint
