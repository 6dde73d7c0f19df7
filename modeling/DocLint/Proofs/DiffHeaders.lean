import DocLint.Patch
import DocLint.Proofs.TextLines

/-!
# Forms of header lines

A file header gives two paths, and the path of the old version is cut as early
as it can be. A hunk header gives two ranges of lines. Each form is stated as
the text of the line, and the readers accept exactly the lines of these forms.
-/

set_option autoImplicit false

namespace DocLint

namespace Patch

/-- The line is a file header with the given paths, wherever the old one may end. -/
structure GivesPaths (line old path : List Char) : Prop where
  old_ne : old ≠ []
  path_ne : path ≠ []
  written : line = "diff --git a/".toList ++ (old ++ (" b/".toList ++ path))

/-- The line is a file header, and this is the path of the new version: of all the ways to tell
the paths apart, the one with the shortest path of the old version counts. -/
def FileHeader (line path : List Char) : Prop :=
  ∃ old, GivesPaths line old path ∧
    ∀ old' path', GivesPaths line old' path' → old.length ≤ old'.length

theorem behind?_cons (sep : List Char) (c : Char) (cs : List Char) :
    behind? sep (c :: cs) =
      match Text.strip? sep (c :: cs) with
      | some rest => some rest
      | none => behind? sep cs := rfl

theorem behind?_eq_some_iff (sep text rest : List Char) (hsep : sep ≠ []) :
    behind? sep text = some rest ↔
      ∃ front, text = front ++ (sep ++ rest) ∧
        ∀ front' rest', text = front' ++ (sep ++ rest') → front.length ≤ front'.length := by
  induction text with
  | nil =>
    constructor
    · intro h
      cases h
    · intro ⟨front, htext, _⟩
      simp [hsep] at htext
  | cons c cs ih =>
    rw [behind?_cons]
    cases hstrip : Text.strip? sep (c :: cs) with
    | some rest' =>
      have hhere : c :: cs = sep ++ rest' := (Text.strip?_eq_some_iff _ _ _).mp hstrip
      constructor
      · intro h
        obtain rfl : rest' = rest := Option.some.inj h
        exact ⟨[], hhere, fun front' _ _ => Nat.zero_le front'.length⟩
      · intro ⟨front, htext, hfirst⟩
        have hfront : front = [] :=
          List.length_eq_zero_iff.mp (Nat.le_zero.mp (hfirst [] rest' hhere))
        rw [hfront, List.nil_append, hhere] at htext
        rw [List.append_cancel_left htext]
    | none =>
      have hnot (rest' : List Char) : c :: cs ≠ sep ++ rest' := by
        intro hhere
        rw [(Text.strip?_eq_some_iff _ _ _).mpr hhere] at hstrip
        cases hstrip
      dsimp only
      rw [ih]
      constructor
      · intro ⟨front, htext, hfirst⟩
        refine ⟨c :: front, by rw [htext, List.cons_append], ?_⟩
        intro front' rest' htext'
        cases front' with
        | nil => exact absurd htext' (hnot rest')
        | cons d front' =>
          exact Nat.succ_le_succ (hfirst front' rest' (List.cons.inj htext').2)
      · intro ⟨front, htext, hfirst⟩
        cases front with
        | nil => exact absurd htext (hnot rest)
        | cons d front =>
          obtain ⟨hd, htext⟩ := List.cons.inj htext
          refine ⟨front, htext, ?_⟩
          intro front' rest' htext'
          have := hfirst (c :: front') rest' (by rw [htext', List.cons_append])
          simpa using this

theorem newPath?_strip (line : List Char) :
    newPath? line =
      match Text.strip? "diff --git a/".toList line with
      | some (_ :: rest) =>
        match behind? " b/".toList rest with
        | some [] | none => none
        | some path => some (String.ofList path)
      | _ => none := rfl

theorem newPath?_eq_some_behind (line : List Char) (path : String) :
    newPath? line = some path ↔
      ∃ c rest, line = "diff --git a/".toList ++ c :: rest ∧
        behind? " b/".toList rest = some path.toList ∧ path.toList ≠ [] := by
  rw [newPath?_strip]
  constructor
  · intro h
    cases hstrip : Text.strip? "diff --git a/".toList line with
    | none => rw [hstrip] at h; cases h
    | some tail =>
      have hline := (Text.strip?_eq_some_iff _ _ _).mp hstrip
      rw [hstrip] at h
      cases tail with
      | nil => cases h
      | cons c rest =>
        dsimp only at h
        cases hbehind : behind? " b/".toList rest with
        | none => rw [hbehind] at h; cases h
        | some new =>
          rw [hbehind] at h
          cases new with
          | nil => cases h
          | cons d new =>
            obtain rfl := Option.some.inj h
            refine ⟨c, rest, hline, ?_, ?_⟩
            · rw [hbehind, String.toList_ofList]
            · rw [String.toList_ofList]
              exact List.cons_ne_nil d new
  · intro ⟨c, rest, hline, hbehind, hne⟩
    rw [(Text.strip?_eq_some_iff _ _ _).mpr hline]
    dsimp only
    rw [hbehind]
    cases hpath : path.toList with
    | nil => exact absurd hpath hne
    | cons d new =>
      dsimp only
      rw [← hpath, String.ofList_toList]

theorem newPath?_eq_some_iff (line : List Char) (path : String) :
    newPath? line = some path ↔ FileHeader line path.toList := by
  rw [newPath?_eq_some_behind]
  constructor
  · intro ⟨c, rest, hline, hbehind, hne⟩
    obtain ⟨front, hrest, hfirst⟩ := (behind?_eq_some_iff _ _ _ (by decide)).mp hbehind
    refine ⟨c :: front, ⟨List.cons_ne_nil c front, hne, by rw [hline, hrest]; rfl⟩, ?_⟩
    intro old' path' h'
    obtain ⟨hold', -, hline'⟩ := h'
    cases old' with
    | nil => exact absurd rfl hold'
    | cons d front' =>
      rw [hline] at hline'
      obtain ⟨-, hrest'⟩ := List.cons.inj (List.append_cancel_left hline')
      exact Nat.succ_le_succ (hfirst front' path' hrest')
  · intro ⟨old, ⟨hold, hne, hline⟩, hfirst⟩
    cases old with
    | nil => exact absurd rfl hold
    | cons c front =>
      refine ⟨c, front ++ (" b/".toList ++ path.toList), hline, ?_, hne⟩
      rw [behind?_eq_some_iff _ _ _ (by decide)]
      refine ⟨front, rfl, ?_⟩
      intro front' path' hrest'
      have hlength := congrArg List.length hrest'
      simp only [List.length_append] at hlength
      -- a separator with nothing behind it stands at the end, so it is not the first one
      by_cases hpath' : path' = []
      · rw [hpath', List.length_nil] at hlength
        omega
      · have hgives : GivesPaths line (c :: front') path' :=
          ⟨List.cons_ne_nil c front', hpath', by rw [hline, List.cons_append, hrest']; rfl⟩
        exact Nat.le_of_succ_le_succ (hfirst (c :: front') path' hgives)

theorem newPath?_eq_none_iff (line : List Char) :
    newPath? line = none ↔ ∀ path, ¬ FileHeader line path := by
  rw [Option.eq_none_iff_forall_ne_some]
  constructor
  · intro h path hpath
    exact h (String.ofList path) ((newPath?_eq_some_iff _ _).mpr (by rwa [String.toList_ofList]))
  · intro h path hpath
    exact h path.toList ((newPath?_eq_some_iff _ _).mp hpath)

def DigitRun (ds : List Char) : Prop := ds ≠ [] ∧ ∀ c ∈ ds, Text.isDigitChar c = true

def rangeText (start : List Char) (count : Option (List Char)) : List Char :=
  start ++ (count.map (',' :: ·)).getD []

structure IsRange (start : List Char) (count : Option (List Char)) : Prop where
  start : DigitRun start
  count : ∀ ds ∈ count, DigitRun ds

/-- The line is a hunk header that gives the start and the count of the new lines. -/
def HunkHeader (line start : List Char) (count : Option (List Char)) : Prop :=
  ∃ oldStart oldCount heading, IsRange oldStart oldCount ∧ IsRange start count ∧
    line = "@@ -".toList ++ (rangeText oldStart oldCount ++ (" +".toList ++
      (rangeText start count ++ (" @@".toList ++ heading))))

theorem digits?_append (ds rest : List Char) (h : DigitRun ds)
    (hrest : ∀ c ∈ rest.head?, Text.isDigitChar c = false) :
    digits? (ds ++ rest) = some (ds, rest) := by
  have hstop : rest.takeWhile Text.isDigitChar = [] ∧ rest.dropWhile Text.isDigitChar = rest := by
    cases rest with
    | nil => exact ⟨rfl, rfl⟩
    | cons c cs => simp [hrest c rfl]
  rw [digits?, List.takeWhile_append_of_pos h.2, List.dropWhile_append_of_pos h.2, hstop.1,
    hstop.2, List.append_nil]
  cases ds with
  | nil => exact absurd rfl h.1
  | cons d ds => rfl

theorem digitRun_of_digits? (cs ds rest : List Char) (h : digits? cs = some (ds, rest)) :
    DigitRun ds ∧ cs = ds ++ rest := by
  rw [digits?] at h
  cases htake : cs.takeWhile Text.isDigitChar with
  | nil => rw [htake] at h; cases h
  | cons d run =>
    rw [htake] at h
    obtain ⟨rfl, rfl⟩ := Prod.mk.inj (Option.some.inj h)
    refine ⟨⟨List.cons_ne_nil d run, ?_⟩, ?_⟩
    · intro c hc
      rw [← htake] at hc
      exact List.all_eq_true.mp List.all_takeWhile c hc
    · rw [← htake, List.takeWhile_append_dropWhile]

theorem span?_rangeText (start : List Char) (count : Option (List Char)) (rest : List Char)
    (h : IsRange start count) (hrest : rest.head? = some ' ') :
    span? (rangeText start count ++ rest) = some (start, count, rest) := by
  obtain ⟨more, rfl⟩ := List.head?_eq_some_iff.mp hrest
  have hblank : ∀ c ∈ (' ' :: more).head?, Text.isDigitChar c = false := by
    simpa using (by decide : Text.isDigitChar ' ' = false)
  cases count with
  | none =>
    have hstart := digits?_append start (' ' :: more) h.start hblank
    simp [span?, rangeText, hstart]
  | some ds =>
    have hcomma : Text.isDigitChar ',' = false := by decide
    have hstart := digits?_append start (',' :: (ds ++ ' ' :: more)) h.start
      (by simpa using hcomma)
    have hcount := digits?_append ds (' ' :: more) (h.count ds rfl) hblank
    simp [span?, rangeText, hstart, hcount]

theorem isRange_of_span? (cs start rest : List Char) (count : Option (List Char))
    (h : span? cs = some (start, count, rest)) :
    IsRange start count ∧ cs = rangeText start count ++ rest := by
  unfold span? at h
  obtain ⟨⟨ds, more⟩, hdigits, h⟩ := Option.bind_eq_some_iff.mp h
  obtain ⟨hrun, hcs⟩ := digitRun_of_digits? cs ds more hdigits
  have alone (he : some (ds, (none : Option (List Char)), more) = some (start, count, rest)) :
      IsRange start count ∧ cs = rangeText start count ++ rest := by
    simp only [Option.some.injEq, Prod.mk.injEq] at he
    obtain ⟨rfl, rfl, rfl⟩ := he
    exact ⟨⟨hrun, by simp⟩, by simpa [rangeText] using hcs⟩
  dsimp only at h
  split at h
  · rename_i behind
    split at h
    · rename_i ds' rest' hdigits'
      obtain ⟨hrun', hbehind⟩ := digitRun_of_digits? behind ds' rest' hdigits'
      simp only [Option.some.injEq, Prod.mk.injEq] at h
      obtain ⟨rfl, rfl, rfl⟩ := h
      exact ⟨⟨hrun, by simpa using hrun'⟩, by rw [hcs, hbehind]; simp [rangeText]⟩
    · exact alone h
  · exact alone h

theorem hunk?_eq_some_iff (line start : List Char) (count : Option (List Char)) :
    hunk? line = some (start, count) ↔ HunkHeader line start count := by
  constructor
  · intro h
    unfold hunk? at h
    obtain ⟨rest₁, hmark, h⟩ := Option.bind_eq_some_iff.mp h
    obtain ⟨⟨oldStart, oldCount, rest₂⟩, hold, h⟩ := Option.bind_eq_some_iff.mp h
    obtain ⟨rest₃, hplus, h⟩ := Option.bind_eq_some_iff.mp h
    obtain ⟨⟨newStart, newCount, rest₄⟩, hnew, h⟩ := Option.bind_eq_some_iff.mp h
    obtain ⟨heading, hclose, h⟩ := Option.bind_eq_some_iff.mp h
    simp only [Option.some.injEq, Prod.mk.injEq] at h
    obtain ⟨rfl, rfl⟩ := h
    rw [Text.strip?_eq_some_iff] at hmark hplus hclose
    obtain ⟨hisOld, hrest₁⟩ := isRange_of_span? rest₁ oldStart rest₂ oldCount hold
    obtain ⟨hisNew, hrest₃⟩ := isRange_of_span? rest₃ newStart rest₄ newCount hnew
    exact ⟨oldStart, oldCount, heading, hisOld, hisNew, by
      rw [hmark, hrest₁, hplus, hrest₃, hclose]⟩
  · intro ⟨oldStart, oldCount, heading, hisOld, hisNew, hline⟩
    have hold := span?_rangeText oldStart oldCount
      (" +".toList ++ (rangeText start count ++ (" @@".toList ++ heading))) hisOld rfl
    have hnew := span?_rangeText start count (" @@".toList ++ heading) hisNew rfl
    simp only [hunk?, hline, Text.strip?_append, Option.bind_eq_bind, Option.bind_some, hold, hnew]

/-- ASCII digits write the number, which fits into the numbers of lines. -/
structure Numeral (ds : List Char) (n : Nat) : Prop where
  ascii : ∀ c ∈ ds, c.isDigit = true
  value : Nat.ofDigitChars 10 ds 0 = n
  fits : n < lineBound

theorem number?_eq (ds : List Char) :
    number? ds =
      if ds.all Char.isDigit then
        if Nat.ofDigitChars 10 ds 0 < lineBound then some (Nat.ofDigitChars 10 ds 0) else none
      else none := rfl

theorem number?_eq_some_iff (ds : List Char) (n : Nat) : number? ds = some n ↔ Numeral ds n := by
  rw [number?_eq]
  constructor
  · intro h
    split at h
    · rename_i hascii
      split at h
      · rename_i hfits
        have hvalue := Option.some.inj h
        exact ⟨List.all_eq_true.mp hascii, hvalue, hvalue ▸ hfits⟩
      · cases h
    · cases h
  · intro h
    rw [if_pos (List.all_eq_true.mpr h.ascii), h.value, if_pos h.fits]

def Counting (count : Option (List Char)) (n : Nat) : Prop :=
  (∃ ds, count = some ds ∧ Numeral ds n) ∨ (n = 1 ∧ ∀ ds, count = some ds → ∀ m, ¬ Numeral ds m)

theorem counting_iff (count : Option (List Char)) (n : Nat) :
    (count.bind number?).getD 1 = n ↔ Counting count n := by
  cases hread : count.bind number? with
  | none =>
    have hnot (ds : List Char) (hds : count = some ds) (m : Nat) : ¬ Numeral ds m := by
      intro hnumeral
      rw [hds, Option.bind_some, (number?_eq_some_iff ds m).mpr hnumeral] at hread
      cases hread
    constructor
    · intro h
      exact Or.inr ⟨h.symm, hnot⟩
    · intro h
      rcases h with ⟨ds, hds, hnumeral⟩ | ⟨hone, _⟩
      · exact absurd hnumeral (hnot ds hds n)
      · exact hone.symm
  | some m =>
    obtain ⟨ds, hds, hnumber⟩ := Option.bind_eq_some_iff.mp hread
    have hnumeral := (number?_eq_some_iff ds m).mp hnumber
    constructor
    · intro h
      obtain rfl : m = n := h
      exact Or.inl ⟨ds, hds, hnumeral⟩
    · intro h
      rcases h with ⟨ds', hds', hnumeral'⟩ | ⟨_, hnot⟩
      · obtain rfl : ds = ds' := Option.some.inj (hds.symm.trans hds')
        exact hnumeral.value.symm.trans hnumeral'.value
      · exact absurd hnumeral (hnot ds hds m)

theorem hunkLines?_eq_some_iff (line : List Char) (hunk : Nat × Nat) :
    hunkLines? line = some hunk ↔
      ∃ start count, HunkHeader line start count ∧ Numeral start hunk.1 ∧
        Counting count hunk.2 := by
  constructor
  · intro h
    unfold hunkLines? at h
    obtain ⟨⟨start, count⟩, hheader, h⟩ := Option.bind_eq_some_iff.mp h
    obtain ⟨first, hfirst, h⟩ := Option.bind_eq_some_iff.mp h
    obtain rfl := Option.some.inj h
    exact ⟨start, count, (hunk?_eq_some_iff line start count).mp hheader,
      (number?_eq_some_iff start first).mp hfirst, (counting_iff count _).mp rfl⟩
  · intro ⟨start, count, hheader, hfirst, hcount⟩
    rw [← hunk?_eq_some_iff] at hheader
    rw [← number?_eq_some_iff] at hfirst
    rw [← counting_iff] at hcount
    simp [hunkLines?, hheader, hfirst, hcount]

end Patch

end DocLint
