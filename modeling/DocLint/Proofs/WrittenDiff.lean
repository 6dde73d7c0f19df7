import DocLint.Proofs.DiffHeaders
import DocLint.Proofs.DiffReading

/-!
# Diffs as they are written

A diff is written file by file: a header with both paths, further header lines,
and hunks, each with its own header and a body of marked lines. Reading what was
written gives the lines of the hunks, whatever text the bodies hold.
-/

set_option autoImplicit false

namespace DocLint

namespace Patch

structure LineText where
  chars : List Char
  oneLine : '\n' ∉ chars := by decide +kernel

inductive BodyMark
  | context
  | added
  | removed
  | note

def BodyMark.char : BodyMark → Char
  | .context => ' '
  | .added => '+'
  | .removed => '-'
  | .note => '\\'

structure Hunk where
  oldStart : Nat
  oldCount : Option Nat
  start : Nat
  count : Option Nat
  heading : LineText
  body : List (BodyMark × LineText)

/-- What a diff holds on one file: both paths, further header lines and the hunks. -/
structure FileSection where
  old : LineText
  new : LineText
  headers : List LineText
  hunks : List Hunk
  headers_plain : ∀ h ∈ headers, Plain h.chars

/-- The changes of one file. The path of the old version cannot be cut too early, and the path of
the new version stands at the end of its line as it is. -/
structure FileDiff extends FileSection where
  old_ne : old.chars ≠ []
  old_whole : ¬ " b/".toList <:+: old.chars
  new_ne : new.chars ≠ []
  new_end : new.chars.getLast? ≠ some '\r'

def spanText (start : Nat) (count : Option Nat) : List Char :=
  Nat.toDigits 10 start ++ (count.map fun n => ',' :: Nat.toDigits 10 n).getD []

namespace Hunk

def size (h : Hunk) : Nat := h.count.getD 1

def ranges (h : Hunk) : List Char :=
  "@@ -".toList ++ spanText h.oldStart h.oldCount ++ " +".toList ++ spanText h.start h.count ++
    " @@".toList

def lines (h : Hunk) : List (List Char) :=
  (h.ranges ++ h.heading.chars) :: h.body.map fun l => l.1.char :: l.2.chars

end Hunk

namespace FileSection

def header (s : FileSection) : List Char :=
  "diff --git a/".toList ++ s.old.chars ++ " b/".toList ++ s.new.chars

def lines (s : FileSection) : List (List Char) :=
  s.header :: (s.headers.map (·.chars) ++ s.hunks.flatMap Hunk.lines)

theorem header_eq (s : FileSection) :
    s.header = "diff --git a/".toList ++ s.old.chars ++ " b/".toList ++ s.new.chars := rfl

end FileSection

def FileDiff.path (f : FileDiff) : String := String.ofList f.new.chars

def written (fs : List FileDiff) : String :=
  String.ofList (Text.terminated (fs.flatMap (·.lines)))

/-- The separator starts with a blank and has no other, so it cannot start in the text before it
and end in itself. -/
theorem separator_starts_behind (c : Char) (before after : List Char)
    (h : ¬ " b/".toList <:+: c :: before) :
    ¬ " b/".toList <+: c :: (before ++ (" b/".toList ++ after)) := by
  rintro ⟨rest, heq⟩
  match before with
  | [] => simp at heq
  | [x] => simp at heq
  | x :: y :: before =>
    simp at heq
    obtain ⟨rfl, rfl, rfl, -⟩ := heq
    exact h ⟨[], before, rfl⟩

theorem behind?_separator (before after : List Char) (h : ¬ " b/".toList <:+: before) :
    behind? " b/".toList (before ++ (" b/".toList ++ after)) = some after := by
  induction before with
  | nil => rfl
  | cons c before ih =>
    have hbefore : ¬ " b/".toList <:+: before :=
      fun hi => h (hi.trans (List.suffix_cons c before).isInfix)
    rw [List.cons_append, behind?_cons,
      Text.strip?_eq_none _ _ (separator_starts_behind c before after h)]
    exact ih hbefore

theorem FileDiff.newPath?_header (f : FileDiff) : newPath? f.header = some f.path := by
  cases hold : f.old.chars with
  | nil => exact absurd hold f.old_ne
  | cons c old =>
    have hwhole : ¬ " b/".toList <:+: old := fun hi =>
      f.old_whole (hold ▸ hi.trans (List.suffix_cons c old).isInfix)
    have hpath : f.path.toList = f.new.chars := String.toList_ofList
    have hheader : f.header =
        "diff --git a/".toList ++ c :: (old ++ (" b/".toList ++ f.new.chars)) := by
      rw [FileSection.header_eq, hold]
      simp only [List.append_assoc, List.cons_append]
    rw [newPath?_eq_some_behind, hpath]
    exact ⟨c, _, hheader, behind?_separator old f.new.chars hwhole, f.new_ne⟩

theorem isDigitChar_of_isDigit (c : Char) (h : c.isDigit = true) : Text.isDigitChar c = true := by
  have hascii : c.toNat < 128 := by
    simp only [Char.isDigit, ge_iff_le, Bool.and_eq_true, decide_eq_true_eq, UInt32.le_iff_toNat_le]
      at h
    exact Nat.lt_of_le_of_lt h.2 (by decide)
  rw [Text.isDigitChar, if_pos hascii, h]

theorem isDigitChar_of_mem_toDigits (n : Nat) :
    ∀ c ∈ Nat.toDigits 10 n, Text.isDigitChar c = true :=
  fun c hc => isDigitChar_of_isDigit c (Nat.isDigit_of_mem_toDigits (by decide) (by decide) hc)

theorem digitRun_toDigits (n : Nat) : DigitRun (Nat.toDigits 10 n) :=
  ⟨Nat.toDigits_ne_nil, isDigitChar_of_mem_toDigits n⟩

theorem isRange_toDigits (start : Nat) (count : Option Nat) :
    IsRange (Nat.toDigits 10 start) (count.map (Nat.toDigits 10)) := by
  refine ⟨digitRun_toDigits start, ?_⟩
  cases count with
  | none => simp
  | some n => simpa using digitRun_toDigits n

theorem rangeText_toDigits (start : Nat) (count : Option Nat) :
    rangeText (Nat.toDigits 10 start) (count.map (Nat.toDigits 10)) = spanText start count := by
  rw [rangeText, Option.map_map]
  rfl

theorem numeral_toDigits (n : Nat) (h : n < lineBound) : Numeral (Nat.toDigits 10 n) n :=
  ⟨fun _ hc => Nat.isDigit_of_mem_toDigits (by decide) (by decide) hc,
    Nat.ofDigitChars_ten_toDigits, h⟩

namespace Hunk

theorem ranges_eq (h : Hunk) :
    h.ranges = "@@ -".toList ++ spanText h.oldStart h.oldCount ++ " +".toList ++
      spanText h.start h.count ++ " @@".toList := rfl

theorem getLast?_ranges (h : Hunk) : h.ranges.getLast? = some '@' := by
  rw [ranges_eq, List.getLast?_append]
  rfl

theorem hunkHeader_ranges (h : Hunk) (heading : List Char) :
    HunkHeader (h.ranges ++ heading) (Nat.toDigits 10 h.start)
      (h.count.map (Nat.toDigits 10)) := by
  refine ⟨Nat.toDigits 10 h.oldStart, h.oldCount.map (Nat.toDigits 10), heading,
    isRange_toDigits _ _, isRange_toDigits _ _, ?_⟩
  rw [rangeText_toDigits, rangeText_toDigits, ranges_eq]
  simp only [List.append_assoc]

theorem hunkLines?_ranges (h : Hunk) (heading : List Char) (hfit : h.start + h.size < lineBound) :
    hunkLines? (h.ranges ++ heading) = some (h.start, h.size) := by
  have hcount : Counting (h.count.map (Nat.toDigits 10)) h.size := by
    rw [size] at hfit ⊢
    cases hc : h.count with
    | none => exact Or.inr ⟨rfl, by simp⟩
    | some n =>
      rw [hc, Option.getD_some] at hfit
      exact Or.inl ⟨Nat.toDigits 10 n, rfl, numeral_toDigits n (by omega)⟩
  exact (hunkLines?_eq_some_iff _ _).mpr ⟨_, _, h.hunkHeader_ranges heading,
    numeral_toDigits h.start (by omega), hcount⟩

end Hunk

theorem not_prefix_of_head (front text : List Char) (c d : Char) (hfront : front.head? = some c)
    (htext : text.head? = some d) (hne : c ≠ d) : ¬ front <+: text := by
  rintro ⟨rest, rfl⟩
  rw [List.head?_append, hfront, Option.some_or] at htext
  exact hne (Option.some.inj htext)

theorem counted_plain_lines (file : Option String) (skipped rest : List (List Char))
    (h : ∀ line ∈ skipped, Plain line) :
    counted file (skipped.map Text.dropReturn ++ rest) = counted file rest := by
  apply counted_plain
  intro line hline
  obtain ⟨text, hmem, rfl⟩ := List.mem_map.mp hline
  have hfront := Text.dropReturn_prefix text
  exact ⟨fun hp => (h text hmem).1 (hp.trans hfront), fun hp => (h text hmem).2 (hp.trans hfront)⟩

theorem plain_body (mark : BodyMark) (text : List Char) : Plain (mark.char :: text) :=
  ⟨not_prefix_of_head _ _ 'd' mark.char rfl rfl (by cases mark <;> decide),
    not_prefix_of_head _ _ '@' mark.char rfl rfl (by cases mark <;> decide)⟩

theorem Hunk.counted_lines (h : Hunk) (path : String) (rest : List (List Char))
    (hfit : h.start + h.size < lineBound) :
    counted (some path) (h.lines.map Text.dropReturn ++ rest) =
      ⟨path, h.start, h.size⟩ :: counted (some path) rest := by
  have hkept : Text.dropReturn (h.ranges ++ h.heading.chars) =
      h.ranges ++ Text.dropReturn h.heading.chars := by
    apply Text.dropReturn_append
    rw [h.getLast?_ranges]
    decide
  have hnew : newPath? (h.ranges ++ Text.dropReturn h.heading.chars) = none :=
    newPath?_eq_none _ (not_prefix_of_head _ _ 'd' '@' rfl rfl (by decide))
  have hbody : ∀ line ∈ h.body.map (fun l => l.1.char :: l.2.chars), Plain line := by
    intro line hline
    obtain ⟨l, -, rfl⟩ := List.mem_map.mp hline
    exact plain_body l.1 l.2.chars
  rw [Hunk.lines, List.map_cons, hkept, List.cons_append,
    counted_hunk path _ _ _ hnew (h.hunkLines?_ranges _ hfit), counted_plain_lines _ _ rest hbody]

theorem counted_hunks (path : String) (hunks : List Hunk) (rest : List (List Char))
    (hfit : ∀ h ∈ hunks, h.start + h.size < lineBound) :
    counted (some path) ((hunks.flatMap Hunk.lines).map Text.dropReturn ++ rest) =
      hunks.map (fun h => ⟨path, h.start, h.size⟩) ++ counted (some path) rest := by
  induction hunks with
  | nil => rfl
  | cons h hunks ih =>
    rw [List.flatMap_cons, List.map_append, List.append_assoc,
      h.counted_lines path _ (hfit h List.mem_cons_self),
      ih fun k hk => hfit k (List.mem_cons_of_mem h hk)]
    rfl

theorem dropReturn_path (front path : List Char) (hne : path ≠ [])
    (hend : path.getLast? ≠ some '\r') : Text.dropReturn (front ++ path) = front ++ path := by
  apply Text.dropReturn_eq_self
  have hlast : path.getLast? = some (path.getLast hne) := List.getLast?_eq_some_getLast hne
  rw [List.getLast?_append, hlast, Option.some_or, ← hlast]
  exact hend

theorem FileSection.counted_lines (s : FileSection) (file : Option String) (path : String)
    (rest : List (List Char)) (hne : s.new.chars ≠ []) (hend : s.new.chars.getLast? ≠ some '\r')
    (hpath : newPath? s.header = some path)
    (hfit : ∀ h ∈ s.hunks, h.start + h.size < lineBound) :
    counted file (s.lines.map Text.dropReturn ++ rest) =
      s.hunks.map (fun h => ⟨path, h.start, h.size⟩) ++ counted (some path) rest := by
  have hkept : Text.dropReturn s.header = s.header := dropReturn_path _ s.new.chars hne hend
  have hheaders : ∀ line ∈ s.headers.map (·.chars), Plain line := by
    intro line hline
    obtain ⟨text, htext, rfl⟩ := List.mem_map.mp hline
    exact s.headers_plain text htext
  rw [lines, List.map_cons, hkept, List.cons_append, counted_header file _ _ path hpath,
    List.map_append, List.append_assoc, counted_plain_lines _ _ _ hheaders,
    counted_hunks path s.hunks rest hfit]

def FileDiff.fileHunks (f : FileDiff) : List FileHunk :=
  f.hunks.map fun h => ⟨f.path, h.start, h.size⟩

theorem counted_written (fs : List FileDiff) (file : Option String)
    (hfit : ∀ f ∈ fs, ∀ h ∈ f.hunks, h.start + h.size < lineBound) :
    counted file ((fs.flatMap (·.lines)).map Text.dropReturn) = fs.flatMap FileDiff.fileHunks := by
  induction fs generalizing file with
  | nil => rfl
  | cons f fs ih =>
    rw [List.flatMap_cons, List.map_append, f.counted_lines file f.path _ f.new_ne f.new_end
      f.newPath?_header (hfit f List.mem_cons_self),
      ih _ fun g hg => hfit g (List.mem_cons_of_mem f hg), List.flatMap_cons]
    rfl

theorem newline_not_mem_spanText (start : Nat) (count : Option Nat) :
    '\n' ∉ spanText start count := by
  have hdigits : ∀ n, '\n' ∉ Nat.toDigits 10 n := by
    intro n hmem
    have hdigit : Char.isDigit '\n' = true :=
      Nat.isDigit_of_mem_toDigits (by decide) (by decide) hmem
    exact absurd hdigit (by decide)
  cases count <;> simp [spanText, hdigits]

theorem Hunk.newline_not_mem (h : Hunk) : ∀ line ∈ h.lines, '\n' ∉ line := by
  intro line hline
  rcases List.mem_cons.mp hline with rfl | hline
  · simp [ranges_eq, newline_not_mem_spanText, h.heading.oneLine]
  · obtain ⟨l, -, rfl⟩ := List.mem_map.mp hline
    have hmark : '\n' ≠ l.1.char := by cases l.1 <;> decide
    simp [hmark, l.2.oneLine]

theorem FileSection.newline_not_mem (s : FileSection) : ∀ line ∈ s.lines, '\n' ∉ line := by
  intro line hline
  rcases List.mem_cons.mp hline with rfl | hline
  · simp [header_eq, s.old.oneLine, s.new.oneLine]
  · rcases List.mem_append.mp hline with hline | hline
    · obtain ⟨text, -, rfl⟩ := List.mem_map.mp hline
      exact text.oneLine
    · obtain ⟨hunk, -, hline⟩ := List.mem_flatMap.mp hline
      exact hunk.newline_not_mem line hline

theorem lines_written (fs : List FileDiff) :
    Text.lines (written fs).toList = (fs.flatMap (·.lines)).map Text.dropReturn := by
  rw [written, String.toList_ofList]
  apply Text.lines_terminated
  intro line hline
  obtain ⟨f, -, hline⟩ := List.mem_flatMap.mp hline
  exact f.newline_not_mem line hline

/-- A hunk of the file, widened by the margin and cut at the first line, holds the line. -/
def FileDiff.Marks (margin : Nat) (f : FileDiff) (path : String) (n : Nat) : Prop :=
  f.path = path ∧ ∃ h ∈ f.hunks, max 1 (h.start - margin) ≤ n ∧ n < h.start + h.size + margin

theorem FileDiff.covers_iff_marks (f : FileDiff) (margin : Nat) (path : String) (n : Nat) :
    (∃ h ∈ f.fileHunks, h.Covers margin path n) ↔ f.Marks margin path n := by
  constructor
  · rintro ⟨k, hmem, hpath, hn⟩
    obtain ⟨h, hh, rfl⟩ := List.mem_map.mp hmem
    exact ⟨hpath, h, hh, hn⟩
  · rintro ⟨hpath, h, hh, hn⟩
    exact ⟨⟨f.path, h.start, h.size⟩, List.mem_map.mpr ⟨h, hh, rfl⟩, hpath, hn⟩

theorem has_markAll_fileHunks (fs : List FileDiff) (margin : Nat) (path : String) (n : Nat) :
    (markAll margin .empty (fs.flatMap FileDiff.fileHunks)).Has path n ↔
      ∃ f ∈ fs, f.Marks margin path n := by
  have hempty : ¬ ChangedLines.empty.Has path n := ChangedLines.has_nil path n
  rw [has_markAll, or_iff_left hempty]
  constructor
  · rintro ⟨h, hmem, hcovers⟩
    obtain ⟨f, hf, hh⟩ := List.mem_flatMap.mp hmem
    exact ⟨f, hf, (f.covers_iff_marks margin path n).mp ⟨h, hh, hcovers⟩⟩
  · rintro ⟨f, hf, hmarks⟩
    obtain ⟨h, hh, hcovers⟩ := (f.covers_iff_marks margin path n).mpr hmarks
    exact ⟨h, List.mem_flatMap.mpr ⟨f, hf, hh⟩, hcovers⟩

/-- Reading a written diff gives each path the lines of its hunks, and a path without such lines
is left out. -/
theorem written_diff_marks_hunks (fs : List FileDiff) (margin : Nat)
    (hfit : ∀ f ∈ fs, ∀ h ∈ f.hunks, h.start + h.size + margin < lineBound) :
    ∃ c, ChangedLines.ofDiff (written fs) margin = .ok c ∧ c.WellFormed ∧
      (∀ path, c.linesFor path = none ↔ ∀ f ∈ fs, ∀ n, ¬ f.Marks margin path n) ∧
      ∀ path lines, c.linesFor path = some lines →
        ∀ n, n ∈ lines ↔ ∃ f ∈ fs, f.Marks margin path n := by
  have hcounted : counted none (Text.lines (written fs).toList) =
      fs.flatMap FileDiff.fileHunks := by
    rw [lines_written]
    apply counted_written
    intro f hf h hh
    have := hfit f hf h hh
    omega
  have hfits : ∀ h ∈ fs.flatMap FileDiff.fileHunks, h.Fits margin := by
    intro h hmem
    obtain ⟨f, hf, hh⟩ := List.mem_flatMap.mp hmem
    obtain ⟨k, hk, rfl⟩ := List.mem_map.mp hh
    exact hfit f hf k hk
  have hread := readLines_eq_markAll margin none .empty (Text.lines (written fs).toList)
    (hcounted ▸ hfits)
  have hwf := wellFormed_markAll margin .empty (fs.flatMap FileDiff.fileHunks)
    ChangedLines.wellFormed_empty
  rw [hcounted] at hread
  refine ⟨_, hread, hwf, ?_, ?_⟩
  · intro path
    rw [ChangedLines.linesFor_eq_none_iff _ hwf path]
    simp only [has_markAll_fileHunks, not_exists, not_and]
    exact ⟨fun h f hf n => h n f hf, fun h n f hf => h f hf n⟩
  · intro path lines hlines n
    rw [ChangedLines.mem_linesFor_iff _ hwf path lines hlines n, has_markAll_fileHunks]

def replacing : Hunk where
  oldStart := 1
  oldCount := none
  start := 1
  count := none
  heading := { chars := " class A\r".toList }
  body := [(.removed, { chars := "a".toList }), (.added, { chars := "diff --git a/x b/y".toList }),
    (.added, { chars := "@@ -1 +40 @@".toList })]

def removing : Hunk where
  oldStart := 7
  oldCount := some 2
  start := 8
  count := some 0
  heading := { chars := [] }
  body := [(.removed, { chars := [] }), (.removed, { chars := "b".toList })]

def renamed : FileDiff where
  old := { chars := "old.php".toList }
  new := { chars := "new b/name.php".toList }
  headers := [{ chars := "rename from old.php".toList }]
  hunks := [replacing, removing]
  old_ne := by decide +kernel
  old_whole := by decide +kernel
  new_ne := by decide +kernel
  new_end := by decide +kernel
  headers_plain := by decide +kernel

theorem renamed_file_marks_four_lines :
    (∀ f ∈ [renamed], ∀ h ∈ f.hunks, h.start + h.size + 1 < lineBound) ∧
      ∃ c lines, ChangedLines.ofDiff (written [renamed]) 1 = .ok c ∧
        c.linesFor "new b/name.php" = some lines ∧ c.linesFor "old.php" = none ∧
        ∀ n, n ∈ lines ↔ n = 1 ∨ n = 2 ∨ n = 7 ∨ n = 8 := by
  have hfit : ∀ f ∈ [renamed], ∀ h ∈ f.hunks, h.start + h.size + 1 < lineBound := by
    decide +kernel
  have hpath : renamed.path = "new b/name.php" := by decide +kernel
  have hmarks : ∀ n, (∃ f ∈ [renamed], f.Marks 1 "new b/name.php" n) ↔
      n = 1 ∨ n = 2 ∨ n = 7 ∨ n = 8 := by
    intro n
    have hhunks : renamed.hunks = [replacing, removing] := rfl
    have hfirst : replacing.start = 1 ∧ replacing.size = 1 := ⟨rfl, rfl⟩
    have hsecond : removing.start = 8 ∧ removing.size = 0 := ⟨rfl, rfl⟩
    simp only [FileDiff.Marks, exists_eq_left, hpath, hhunks, List.mem_cons,
      List.not_mem_nil, or_false, exists_eq_or_imp, hfirst, hsecond, true_and]
    omega
  obtain ⟨c, hc, -, hnone, hsome⟩ := written_diff_marks_hunks [renamed] 1 hfit
  have hold : c.linesFor "old.php" = none := by
    rw [hnone]
    rintro f hf n ⟨hname, -⟩
    rw [List.mem_singleton.mp hf, hpath] at hname
    exact absurd hname (by decide +kernel)
  cases hnew : c.linesFor "new b/name.php" with
  | none =>
    obtain ⟨f, hf, hmark⟩ := (hmarks 1).mpr (Or.inl rfl)
    exact absurd hmark ((hnone _).mp hnew f hf 1)
  | some lines =>
    exact ⟨hfit, c, lines, hc, hnew, hold, fun n => (hsome _ lines hnew n).trans (hmarks n)⟩

end Patch

end DocLint
