import DocLint.Proofs.WrittenDiff

/-!
# Files that keep their path

The header of a file that was not moved gives its path twice, with a separator
in between. The reader cuts the header at the first separator behind the first
character, so the changes are marked under the path unless the path itself has
a separator there.
-/

set_option autoImplicit false

namespace DocLint

namespace Patch

theorem exists_behind? (sep text : List Char) (hsep : sep ≠ []) (h : sep <:+: text) :
    ∃ rest, behind? sep text = some rest := by
  induction text with
  | nil => exact absurd (List.infix_nil.mp h) hsep
  | cons c cs ih =>
    rw [behind?_cons]
    cases hstrip : Text.strip? sep (c :: cs) with
    | some rest => exact ⟨rest, rfl⟩
    | none =>
      rcases List.infix_cons_iff.mp h with ⟨rest, hhere⟩ | hlater
      · rw [(Text.strip?_eq_some_iff _ _ _).mpr hhere.symm] at hstrip
        cases hstrip
      · exact ih hlater

theorem behind?_append (sep text rest more : List Char) (hsep : sep ≠ [])
    (h : behind? sep text = some rest) : behind? sep (text ++ more) = some (rest ++ more) := by
  rw [behind?_eq_some_iff sep text rest hsep] at h
  obtain ⟨front, htext, hfirst⟩ := h
  rw [behind?_eq_some_iff sep _ _ hsep]
  refine ⟨front, by rw [htext]; simp only [List.append_assoc], ?_⟩
  intro front' rest' hlonger
  by_contra hlt
  have hfront : front' ++ sep <+: text ++ more := ⟨rest', by rw [hlonger, List.append_assoc]⟩
  have hlength : (front' ++ sep).length ≤ text.length := by
    rw [htext]
    simp only [List.length_append]
    omega
  have hwithin : front' ++ sep <+: text :=
    List.prefix_of_prefix_length_le hfront (List.prefix_append text more) hlength
  obtain ⟨rest'', hearlier⟩ := hwithin
  exact hlt (hfirst front' rest'' (by rw [← hearlier, List.append_assoc]))

structure UnmovedDiff where
  path : LineText
  headers : List LineText
  hunks : List Hunk
  path_ne : path.chars ≠ []
  path_end : path.chars.getLast? ≠ some '\r'
  headers_plain : ∀ h ∈ headers, Plain h.chars

namespace UnmovedDiff

def file (u : UnmovedDiff) : String := String.ofList u.path.chars

def asSection (u : UnmovedDiff) : FileSection :=
  ⟨u.path, u.path, u.headers, u.hunks, u.headers_plain⟩

def text (u : UnmovedDiff) : String := String.ofList (Text.terminated u.asSection.lines)

/-- A hunk, widened by the margin and cut at the first line, holds the line. -/
def Holds (margin : Nat) (u : UnmovedDiff) (n : Nat) : Prop :=
  ∃ h ∈ u.hunks, max 1 (h.start - margin) ≤ n ∧ n < h.start + h.size + margin

def Whole (u : UnmovedDiff) : Prop := ¬ " b/".toList <:+: u.path.chars.tail

/-- The path is cut at its first separator behind the first character. -/
structure CutInto (u : UnmovedDiff) (front rest : List Char) : Prop where
  front_ne : front ≠ []
  path_eq : u.path.chars = front ++ (" b/".toList ++ rest)
  first : ∀ front' rest', front' ≠ [] → u.path.chars = front' ++ (" b/".toList ++ rest') →
    front.length ≤ front'.length

theorem newPath?_header (u : UnmovedDiff) (named : List Char) (hne : named ≠ [])
    (h : behind? " b/".toList (u.path.chars.tail ++ (" b/".toList ++ u.path.chars)) = some named) :
    newPath? u.asSection.header = some (String.ofList named) := by
  have hnamed : (String.ofList named).toList = named := String.toList_ofList
  cases hpath : u.path.chars with
  | nil => exact absurd hpath u.path_ne
  | cons c tail =>
    rw [hpath, List.tail_cons] at h
    rw [newPath?_eq_some_behind, hnamed]
    refine ⟨c, tail ++ (" b/".toList ++ c :: tail), ?_, h, hne⟩
    rw [FileSection.header_eq, asSection, hpath]
    simp only [List.append_assoc, List.cons_append]

theorem newPath?_header_of_whole (u : UnmovedDiff) (h : u.Whole) :
    newPath? u.asSection.header = some u.file :=
  u.newPath?_header u.path.chars u.path_ne (behind?_separator u.path.chars.tail u.path.chars h)

theorem newPath?_header_of_cut (u : UnmovedDiff) (rest : List Char)
    (h : behind? " b/".toList u.path.chars.tail = some rest) :
    newPath? u.asSection.header =
      some (String.ofList (rest ++ (" b/".toList ++ u.path.chars))) := by
  apply u.newPath?_header
  · simp
  · exact behind?_append _ _ _ _ (by decide) h

theorem exists_cutInto (u : UnmovedDiff) (rest : List Char)
    (h : behind? " b/".toList u.path.chars.tail = some rest) :
    ∃ front, u.CutInto front rest := by
  rw [behind?_eq_some_iff _ _ _ (by decide)] at h
  obtain ⟨front, htail, hfirst⟩ := h
  cases hpath : u.path.chars with
  | nil => exact absurd hpath u.path_ne
  | cons c tail =>
    rw [hpath, List.tail_cons] at htail hfirst
    refine ⟨c :: front, List.cons_ne_nil c front, by rw [hpath, htail]; rfl, ?_⟩
    intro front' rest' hne hpath'
    cases front' with
    | nil => exact absurd rfl hne
    | cons d front' =>
      rw [hpath] at hpath'
      exact Nat.succ_le_succ (hfirst front' rest' (List.cons.inj hpath').2)

theorem cut_ne_file (u : UnmovedDiff) (rest : List Char) :
    String.ofList (rest ++ (" b/".toList ++ u.path.chars)) ≠ u.file := by
  intro heq
  have hlists := congrArg (fun s => s.toList.length) heq
  simp only [file, String.toList_ofList, List.length_append] at hlists
  have hsep : " b/".toList.length = 3 := by decide
  omega

theorem counted_text (u : UnmovedDiff) (named : String)
    (hnamed : newPath? u.asSection.header = some named)
    (hfit : ∀ h ∈ u.hunks, h.start + h.size < lineBound) :
    counted none (Text.lines u.text.toList) = u.hunks.map fun h => ⟨named, h.start, h.size⟩ := by
  have hlines : Text.lines u.text.toList = u.asSection.lines.map Text.dropReturn := by
    rw [text, String.toList_ofList]
    exact Text.lines_terminated _ u.asSection.newline_not_mem
  have hcounted := u.asSection.counted_lines none named [] u.path_ne u.path_end hnamed hfit
  rw [List.append_nil] at hcounted
  rw [hlines, hcounted, counted, List.append_nil]
  rfl

theorem marks_named (u : UnmovedDiff) (margin : Nat) (named : String)
    (hnamed : newPath? u.asSection.header = some named)
    (hfit : ∀ h ∈ u.hunks, h.start + h.size + margin < lineBound) :
    ∃ c, ChangedLines.ofDiff u.text margin = .ok c ∧ c.WellFormed ∧
      ∀ file n, c.Has file n ↔ file = named ∧ u.Holds margin n := by
  have hcounted := u.counted_text named hnamed fun h hh => by have := hfit h hh; omega
  have hmarks := ofDiff_of_fits u.text margin
  rw [hcounted, List.forall_mem_map] at hmarks
  obtain ⟨c, hread, hwf, hhas⟩ := hmarks hfit
  refine ⟨c, hread, hwf, ?_⟩
  intro file n
  rw [hhas]
  constructor
  · intro ⟨k, hk, hfile, hn⟩
    obtain ⟨h, hh, rfl⟩ := List.mem_map.mp hk
    exact ⟨hfile.symm, h, hh, hn⟩
  · intro ⟨hfile, h, hh, hn⟩
    exact ⟨_, List.mem_map.mpr ⟨h, hh, rfl⟩, hfile.symm, hn⟩

/-- The lines of the hunks are marked under the path and nowhere else if and only if the path has
no separator behind its first character or there are no such lines. Otherwise the path is cut at
its first such separator, and the lines are marked under all that stands behind it in the
header. -/
theorem marked_under_path_iff (u : UnmovedDiff) (margin : Nat)
    (hfit : ∀ h ∈ u.hunks, h.start + h.size + margin < lineBound) :
    ∃ c, ChangedLines.ofDiff u.text margin = .ok c ∧ c.WellFormed ∧
      ((∀ file n, c.Has file n ↔ file = u.file ∧ u.Holds margin n) ↔
        u.Whole ∨ ∀ n, ¬ u.Holds margin n) ∧
      (¬ u.Whole → ∃ front rest, u.CutInto front rest ∧ ∀ file n, c.Has file n ↔
        file = String.ofList (rest ++ (" b/".toList ++ u.path.chars)) ∧ u.Holds margin n) := by
  by_cases hwhole : u.Whole
  · have hnamed := u.newPath?_header_of_whole hwhole
    obtain ⟨c, hread, hwf, hhas⟩ := u.marks_named margin u.file hnamed hfit
    exact ⟨c, hread, hwf, iff_of_true hhas (Or.inl hwhole), fun hcut => absurd hwhole hcut⟩
  · have hinfix : " b/".toList <:+: u.path.chars.tail := Classical.not_not.mp hwhole
    obtain ⟨rest, hrest⟩ := exists_behind? _ _ (by decide) hinfix
    obtain ⟨front, hcut⟩ := u.exists_cutInto rest hrest
    obtain ⟨c, hread, hwf, hhas⟩ :=
      u.marks_named margin _ (u.newPath?_header_of_cut rest hrest) hfit
    refine ⟨c, hread, hwf, ⟨?_, ?_⟩, fun _ => ⟨front, rest, hcut, hhas⟩⟩
    · intro hpath
      apply Or.inr
      intro n hn
      have hmarked := (hhas _ n).mpr ⟨rfl, hn⟩
      exact u.cut_ne_file rest ((hpath _ n).mp hmarked).1
    · intro h file n
      have hnone : ¬ u.Holds margin n := h.resolve_left hwhole n
      rw [hhas]
      simp [hnone]

def twoAdded : Hunk where
  oldStart := 3
  oldCount := some 0
  start := 4
  count := some 2
  heading := { chars := " class A".toList }
  body := [(.added, { chars := "x".toList }), (.added, { chars := "y".toList })]

/-- The blank in front belongs to the path, so the separator right there is not looked at. -/
def spacedNotes : UnmovedDiff where
  path := { chars := " b/my notes/a b.ts".toList }
  headers := [{ chars := "index 3b18e51..a9c4d2f 100644".toList }]
  hunks := [twoAdded]
  path_ne := by decide +kernel
  path_end := by decide +kernel
  headers_plain := by decide +kernel

theorem spaced_notes_marked_under_path :
    (∀ h ∈ spacedNotes.hunks, h.start + h.size + 1 < lineBound) ∧ spacedNotes.Whole ∧
      ∃ c, ChangedLines.ofDiff spacedNotes.text 1 = .ok c ∧
        ∀ file n, c.Has file n ↔ file = " b/my notes/a b.ts" ∧ 3 ≤ n ∧ n < 7 := by
  have hfit : ∀ h ∈ spacedNotes.hunks, h.start + h.size + 1 < lineBound := by decide +kernel
  have hwhole : ¬ " b/".toList <:+: spacedNotes.path.chars.tail := by decide +kernel
  obtain ⟨c, hread, -, hpath, -⟩ := marked_under_path_iff spacedNotes 1 hfit
  refine ⟨hfit, hwhole, c, hread, ?_⟩
  intro file n
  have hfile : spacedNotes.file = " b/my notes/a b.ts" := by decide +kernel
  have hhunks : spacedNotes.hunks = [twoAdded] := rfl
  have hrange : max 1 (twoAdded.start - 1) = 3 ∧ twoAdded.start + twoAdded.size + 1 = 7 :=
    ⟨rfl, rfl⟩
  rw [hpath.mpr (Or.inl hwhole), hfile, Holds, hhunks]
  simp only [List.mem_singleton, exists_eq_left, hrange]

def libraryFile : UnmovedDiff where
  path := { chars := "my b/file.ts".toList }
  headers := []
  hunks := [twoAdded]
  path_ne := by decide +kernel
  path_end := by decide +kernel
  headers_plain := by decide +kernel

/-- The lines are marked under a path that no file has, and none under the path of the file. -/
theorem library_file_marked_elsewhere :
    ∃ c, ChangedLines.ofDiff libraryFile.text 0 = .ok c ∧
      c.linesFor "file.ts b/my b/file.ts" = some [4, 5] ∧ c.linesFor libraryFile.file = none ∧
      ¬ ∀ file n, c.Has file n ↔ file = libraryFile.file ∧ libraryFile.Holds 0 n := by
  have hread : ChangedLines.ofDiff libraryFile.text 0 =
      .ok ⟨[("file.ts b/my b/file.ts", [4, 5])]⟩ := by decide +kernel
  refine ⟨_, hread, by decide +kernel, by decide +kernel, ?_⟩
  intro hpath
  have hmarked := (hpath "file.ts b/my b/file.ts" 4).mp ⟨[4, 5], List.mem_singleton.mpr rfl,
    List.mem_cons_self⟩
  exact absurd hmarked.1 (by decide +kernel)

end UnmovedDiff

end Patch

end DocLint
