import DocLint.Proofs.DiffHeaders
import DocLint.Proofs.DiffReading
import Mathlib.Data.List.Induction

/-!
# The meaning of any diff

A line of any text counts as a hunk if it has the form of a hunk header, is no
file header, and has a file header above it. The hunks that count say whether
the diff can be read and which lines it marks, and a wider margin marks more.
-/

set_option autoImplicit false

namespace DocLint

namespace Patch

def NamedAbove (above : List (List Char)) (file : String) : Prop :=
  ∃ front header between, above = front ++ header :: between ∧ FileHeader header file.toList ∧
    ∀ line ∈ between, ∀ path, ¬ FileHeader line path

/-- A line counts as the hunk, of the file that the nearest file header above it names. -/
def CountsIn (lines : List (List Char)) (h : FileHunk) : Prop :=
  ∃ above line below start count, lines = above ++ line :: below ∧
    HunkHeader line start count ∧ (∀ path, ¬ FileHeader line path) ∧ NamedAbove above h.file ∧
    Numeral start h.start ∧ Counting count h.count

/-- The file named last, when the lines are read below a file header, if there was one. -/
def fileAfter (file : Option String) (lines : List (List Char)) : Option String :=
  lines.foldl (fun named line => (newPath? line).or named) file

theorem fileAfter_cons (file : Option String) (line : List Char) (lines : List (List Char)) :
    fileAfter file (line :: lines) = fileAfter ((newPath? line).or file) lines := rfl

theorem fileAfter_concat (file : Option String) (lines : List (List Char)) (line : List Char) :
    fileAfter file (lines ++ [line]) = (newPath? line).or (fileAfter file lines) := by
  rw [fileAfter, List.foldl_append]
  rfl

theorem namedAbove_concat_iff (above : List (List Char)) (line : List Char) (file : String) :
    NamedAbove (above ++ [line]) file ↔
      FileHeader line file.toList ∨ (∀ path, ¬ FileHeader line path) ∧ NamedAbove above file := by
  rw [NamedAbove, exists_split_concat above line fun header between =>
    FileHeader header file.toList ∧ ∀ other ∈ between, ∀ path, ¬ FileHeader other path]
  simp only [List.not_mem_nil, false_implies, implies_true, and_true, List.forall_mem_append,
    List.forall_mem_singleton]
  apply or_congr_right
  constructor
  · intro ⟨front, header, between, habove, hheader, hbetween, hline⟩
    exact ⟨hline, front, header, between, habove, hheader, hbetween⟩
  · intro ⟨hline, front, header, between, habove, hheader, hbetween⟩
    exact ⟨front, header, between, habove, hheader, hbetween, hline⟩

theorem fileAfter_eq_some_iff (above : List (List Char)) (file : String) :
    fileAfter none above = some file ↔ NamedAbove above file := by
  induction above using List.reverseRecOn with
  | nil => simp [fileAfter, NamedAbove]
  | append_singleton above line ih =>
    rw [fileAfter_concat, namedAbove_concat_iff, ← ih, ← newPath?_eq_some_iff,
      ← newPath?_eq_none_iff]
    cases newPath? line <;> simp

theorem exists_split_cons {α : Type} (first : α) (rest : List α) (p : List α → α → Prop) :
    (∃ above x below, first :: rest = above ++ x :: below ∧ p above x) ↔
      p [] first ∨ ∃ above x below, rest = above ++ x :: below ∧ p (first :: above) x := by
  constructor
  · intro ⟨above, x, below, hsplit, hp⟩
    cases above with
    | nil =>
      rw [(List.cons.inj hsplit).1]
      exact Or.inl hp
    | cons y above =>
      obtain ⟨rfl, hrest⟩ := List.cons.inj hsplit
      exact Or.inr ⟨above, x, below, hrest, hp⟩
  · intro h
    rcases h with hp | ⟨above, x, below, rfl, hp⟩
    · exact ⟨[], first, rest, rfl, hp⟩
    · exact ⟨first :: above, x, below, rfl, hp⟩

theorem mem_counted_iff_split (file : Option String) (lines : List (List Char)) (h : FileHunk) :
    h ∈ counted file lines ↔
      ∃ above line below, lines = above ++ line :: below ∧ newPath? line = none ∧
        hunkAt? (fileAfter file above) line = some h := by
  induction lines generalizing file with
  | nil => simp [counted]
  | cons first rest ih =>
    rw [exists_split_cons first rest fun above line => newPath? line = none ∧
      hunkAt? (fileAfter file above) line = some h]
    simp only [fileAfter_cons]
    rw [← ih]
    cases hpath : newPath? first with
    | some path =>
      rw [counted_header file first rest path hpath]
      simp
    | none =>
      have hcounted : counted file (first :: rest) =
          (hunkAt? file first).toList ++ counted file rest := by rw [counted, hpath]
      rw [hcounted, List.mem_append, Option.mem_toList]
      simp [fileAfter]

theorem hunkAt?_eq_some_iff (file : Option String) (line : List Char) (h : FileHunk) :
    hunkAt? file line = some h ↔
      file = some h.file ∧ hunkLines? line = some (h.start, h.count) := by
  obtain ⟨path, start, count⟩ := h
  cases file with
  | none => simp [hunkAt?]
  | some path' =>
    cases hread : hunkLines? line with
    | none => simp [hunkAt?, hread]
    | some hunk =>
      obtain ⟨start', count'⟩ := hunk
      simp [hunkAt?, hread]

theorem mem_counted_iff (lines : List (List Char)) (h : FileHunk) :
    h ∈ counted none lines ↔ CountsIn lines h := by
  rw [mem_counted_iff_split]
  constructor
  · intro ⟨above, line, below, hlines, hpath, hhunk⟩
    rw [hunkAt?_eq_some_iff, fileAfter_eq_some_iff, hunkLines?_eq_some_iff] at hhunk
    rw [newPath?_eq_none_iff] at hpath
    obtain ⟨hnamed, start, count, hheader, hstart, hcount⟩ := hhunk
    exact ⟨above, line, below, start, count, hlines, hheader, hpath, hnamed, hstart, hcount⟩
  · intro ⟨above, line, below, start, count, hlines, hheader, hpath, hnamed, hstart, hcount⟩
    refine ⟨above, line, below, hlines, (newPath?_eq_none_iff line).mpr hpath, ?_⟩
    rw [hunkAt?_eq_some_iff, fileAfter_eq_some_iff, hunkLines?_eq_some_iff]
    exact ⟨hnamed, start, count, hheader, hstart, hcount⟩

theorem ofDiff_eq_ok (text : String) (margin : Nat)
    (hfit : ∀ h, CountsIn (Text.lines text.toList) h → h.Fits margin) :
    ∃ c, ChangedLines.ofDiff text margin = .ok c ∧ c.WellFormed ∧
      ∀ file n, c.Has file n ↔
        ∃ h, CountsIn (Text.lines text.toList) h ∧ h.Covers margin file n := by
  have hmarks := ofDiff_of_fits text margin fun h hh => hfit h ((mem_counted_iff _ h).mp hh)
  simpa only [mem_counted_iff] using hmarks

theorem ofDiff_eq_error_iff (text : String) (margin : Nat) :
    ChangedLines.ofDiff text margin = .error .lineOverflow ↔
      ∃ h, CountsIn (Text.lines text.toList) h ∧ ¬ h.Fits margin := by
  constructor
  · intro herror
    by_contra hnone
    have hfit : ∀ h, CountsIn (Text.lines text.toList) h → h.Fits margin := by
      intro h hh
      by_contra hover
      exact hnone ⟨h, hh, hover⟩
    obtain ⟨c, hread, -, -⟩ := ofDiff_eq_ok text margin hfit
    rw [hread] at herror
    cases herror
  · intro ⟨h, hh, hover⟩
    exact readLines_eq_error margin none .empty _ h ((mem_counted_iff _ h).mpr hh) hover

theorem has_of_ofDiff (text : String) (margin : Nat) (c : ChangedLines)
    (h : ChangedLines.ofDiff text margin = .ok c) (file : String) (n : Nat) :
    c.Has file n ↔ ∃ h, CountsIn (Text.lines text.toList) h ∧ h.Covers margin file n := by
  have hfit : ∀ h, CountsIn (Text.lines text.toList) h → h.Fits margin := by
    intro k hk
    by_contra hover
    rw [(ofDiff_eq_error_iff text margin).mpr ⟨k, hk, hover⟩] at h
    cases h
  obtain ⟨c', hread, -, hhas⟩ := ofDiff_eq_ok text margin hfit
  obtain rfl : c' = c := Except.ok.inj (hread.symm.trans h)
  exact hhas file n

theorem FileHunk.Covers.widen {margin wider : Nat} {h : FileHunk} {file : String} {n : Nat}
    (hle : margin ≤ wider) (hcovers : h.Covers margin file n) : h.Covers wider file n := by
  obtain ⟨hfile, hlow, hhigh⟩ := hcovers
  exact ⟨hfile, by omega, by omega⟩

/-- Reading any text as a diff fails exactly if a hunk that counts does not fit. Otherwise it
marks the lines that the hunks cover with the margin, so a wider margin marks them too. -/
theorem any_diff_marks_counted (text : String) (margin : Nat) :
    (ChangedLines.ofDiff text margin = .error .lineOverflow ↔
      ∃ h, CountsIn (Text.lines text.toList) h ∧ lineBound ≤ h.start + h.count + margin) ∧
    ((∀ h, CountsIn (Text.lines text.toList) h → h.start + h.count + margin < lineBound) →
      ∃ c, ChangedLines.ofDiff text margin = .ok c ∧ c.WellFormed ∧
        ∀ file n, c.Has file n ↔ ∃ h, CountsIn (Text.lines text.toList) h ∧ h.file = file ∧
          max 1 (h.start - margin) ≤ n ∧ n < h.start + h.count + margin) ∧
    ∀ wider c d, margin ≤ wider → ChangedLines.ofDiff text margin = .ok c →
      ChangedLines.ofDiff text wider = .ok d → ∀ file n, c.Has file n → d.Has file n := by
  refine ⟨?_, ofDiff_eq_ok text margin, ?_⟩
  · rw [ofDiff_eq_error_iff]
    simp only [FileHunk.Fits, Nat.not_lt]
  · intro wider c d hle hc hd file n hhas
    rw [has_of_ofDiff text margin c hc] at hhas
    rw [has_of_ofDiff text wider d hd]
    obtain ⟨h, hcounts, hcovers⟩ := hhas
    exact ⟨h, hcounts, hcovers.widen hle⟩

/-- A hunk above all headers, one whose count is written in digits of another script, and one
whose start does not fit. -/
def strayHunks : String :=
  "@@ -1 +9 @@\ndiff --git a/old b/x b/new\nindex 1\n@@ -3,2 +2,٣ @@ f\n" ++
    "@@ -4 +99999999999999999999 @@\n"

theorem countsIn_strayHunks (h : FileHunk) :
    CountsIn (Text.lines strayHunks.toList) h ↔ h = ⟨"x b/new", 2, 1⟩ := by
  have hcounted : (counted none (Text.lines strayHunks.toList)).map
      (fun h => (h.file, h.start, h.count)) = [("x b/new", 2, 1)] := by
    decide +kernel
  rw [← mem_counted_iff]
  obtain ⟨file, start, count⟩ := h
  generalize counted none (Text.lines strayHunks.toList) = hunks at hcounted
  obtain ⟨⟨file', start', count'⟩, rfl, hone⟩ := List.map_eq_singleton_iff.mp hcounted
  simp only [Prod.mk.injEq] at hone
  simp [hone]

theorem stray_hunks_mark_one :
    (∀ h, CountsIn (Text.lines strayHunks.toList) h → h.start + h.count + 1 < lineBound) ∧
    ∃ c d, ChangedLines.ofDiff strayHunks 1 = .ok c ∧ ChangedLines.ofDiff strayHunks 3 = .ok d ∧
      (∀ file n, c.Has file n ↔ file = "x b/new" ∧ 1 ≤ n ∧ n ≤ 3) ∧
      ∀ file n, c.Has file n → d.Has file n := by
  have hfit (margin : Nat) (hmargin : margin ≤ 3) :
      ∀ h, CountsIn (Text.lines strayHunks.toList) h → h.start + h.count + margin < lineBound := by
    intro h hh
    rw [(countsIn_strayHunks h).mp hh]
    exact Nat.lt_of_le_of_lt (Nat.add_le_add_left hmargin 3) (by decide)
  obtain ⟨c, hc, -, hhas⟩ := (any_diff_marks_counted strayHunks 1).2.1 (hfit 1 (by decide))
  obtain ⟨d, hd, -, -⟩ := (any_diff_marks_counted strayHunks 3).2.1 (hfit 3 (by decide))
  refine ⟨hfit 1 (by decide), c, d, hc, hd, ?_,
    (any_diff_marks_counted strayHunks 1).2.2 3 c d (by decide) hc hd⟩
  intro file n
  rw [hhas]
  simp only [countsIn_strayHunks, exists_eq_left]
  have hrange : max 1 (2 - 1) ≤ n ∧ n < 2 + 1 + 1 ↔ 1 ≤ n ∧ n ≤ 3 := by omega
  rw [hrange, eq_comm]

end Patch

end DocLint
