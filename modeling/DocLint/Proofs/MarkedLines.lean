import DocLint.ChangedLines
import DocLint.Proofs.AscendingNumbers
import Mathlib.Data.List.Sort

/-!
# Marked lines as pairs of a file and a line

Maps of changed lines are read as sets of marked pairs. Marking a range and
uniting two maps add pairs, and both keep files and lines in order. In a map in
order, the lines of a file are those marked with it.
-/

set_option autoImplicit false

namespace DocLint

namespace ChangedLines

/-- The lines of one file: ascending from one on, and at least one of them. -/
def GoodLines (lines : List Nat) : Prop :=
  lines ≠ [] ∧ lines.Pairwise (· < ·) ∧ ∀ n ∈ lines, 1 ≤ n

theorem wellFormed_iff (files : List (String × List Nat)) :
    WellFormed ⟨files⟩ ↔
      files.Pairwise (fun e f => e.1 < f.1) ∧ ∀ e ∈ files, GoodLines e.2 := Iff.rfl

theorem wellFormed_empty : empty.WellFormed := ⟨List.Pairwise.nil, by simp [empty]⟩

theorem has_nil (f : String) (n : Nat) : ¬ Has ⟨[]⟩ f n := by
  rintro ⟨lines, hmem, -⟩
  simp at hmem

theorem has_cons (e : String × List Nat) (files : List (String × List Nat)) (f : String)
    (n : Nat) : Has ⟨e :: files⟩ f n ↔ (f = e.1 ∧ n ∈ e.2) ∨ Has ⟨files⟩ f n := by
  constructor
  · rintro ⟨lines, hmem, hn⟩
    rcases List.mem_cons.mp hmem with heq | hmem
    · exact Or.inl ⟨congrArg Prod.fst heq, congrArg Prod.snd heq ▸ hn⟩
    · exact Or.inr ⟨lines, hmem, hn⟩
  · rintro (⟨rfl, hn⟩ | ⟨lines, hmem, hn⟩)
    · exact ⟨e.2, List.mem_cons_self, hn⟩
    · exact ⟨lines, List.mem_cons_of_mem e hmem, hn⟩

theorem has_addTo (file : String) (lines : List Nat) (files : List (String × List Nat))
    (hlines : lines.Pairwise (· < ·)) (f : String) (n : Nat) :
    Has ⟨addTo file lines files⟩ f n ↔ (f = file ∧ n ∈ lines) ∨ Has ⟨files⟩ f n := by
  induction files with
  | nil => rw [addTo, has_cons]
  | cons e rest ih =>
    obtain ⟨g, ls⟩ := e
    rw [addTo]
    split
    · rw [has_cons]
    · rename_i hlt
      split
      · rw [has_cons, has_cons, ih]
        exact or_left_comm
      · rename_i hgt
        obtain rfl : file = g := String.le_antisymm (String.not_lt.mp hgt) (String.not_lt.mp hlt)
        rw [has_cons, has_cons, mem_mergeAscending ls lines n hlines, ← or_assoc, ← and_or_left,
          or_comm (a := n ∈ ls)]

theorem key_of_mem_addTo (file : String) (lines : List Nat) (files : List (String × List Nat))
    (e : String × List Nat) (h : e ∈ addTo file lines files) :
    e.1 = file ∨ ∃ g ∈ files, g.1 = e.1 := by
  induction files with
  | nil => simp_all [addTo]
  | cons d rest ih =>
    obtain ⟨g, ls⟩ := d
    rw [addTo] at h
    split at h
    · rcases List.mem_cons.mp h with rfl | h
      · exact Or.inl rfl
      · exact Or.inr ⟨e, h, rfl⟩
    · split at h
      · rcases List.mem_cons.mp h with rfl | h
        · exact Or.inr ⟨(g, ls), List.mem_cons_self, rfl⟩
        · rcases ih h with heq | ⟨d, hd, heq⟩
          · exact Or.inl heq
          · exact Or.inr ⟨d, List.mem_cons_of_mem _ hd, heq⟩
      · rcases List.mem_cons.mp h with rfl | h
        · exact Or.inr ⟨(g, ls), List.mem_cons_self, rfl⟩
        · exact Or.inr ⟨e, List.mem_cons_of_mem _ h, rfl⟩

theorem goodLines_merge (ls lines : List Nat) (h : GoodLines ls) (hlines : GoodLines lines) :
    GoodLines (mergeAscending ls lines) := by
  have hmem : ∀ n, n ∈ mergeAscending ls lines ↔ n ∈ ls ∨ n ∈ lines :=
    fun n => mem_mergeAscending ls lines n hlines.2.1
  obtain ⟨first, hfirst⟩ := List.exists_mem_of_ne_nil ls h.1
  refine ⟨List.ne_nil_of_mem ((hmem first).mpr (Or.inl hfirst)),
    mergeAscending_pairwise ls lines h.2.1 hlines.2.1, ?_⟩
  intro n hn
  rcases (hmem n).mp hn with hn | hn
  · exact h.2.2 n hn
  · exact hlines.2.2 n hn

theorem wellFormed_addTo (file : String) (lines : List Nat) (files : List (String × List Nat))
    (hlines : GoodLines lines) (h : WellFormed ⟨files⟩) :
    WellFormed ⟨addTo file lines files⟩ := by
  rw [wellFormed_iff] at *
  induction files with
  | nil => simpa [addTo] using hlines
  | cons e rest ih =>
    obtain ⟨g, ls⟩ := e
    obtain ⟨hkeys, hgood⟩ := h
    have hrest := ih ⟨hkeys.of_cons, fun d hd => hgood d (List.mem_cons_of_mem _ hd)⟩
    have hfirst : GoodLines ls := hgood (g, ls) List.mem_cons_self
    rw [addTo]
    split
    · rename_i hlt
      refine ⟨List.Pairwise.cons ?_ hkeys, ?_⟩
      · intro d hd
        rcases List.mem_cons.mp hd with rfl | hd
        · exact hlt
        · exact String.lt_trans hlt (List.rel_of_pairwise_cons hkeys hd)
      · intro d hd
        rcases List.mem_cons.mp hd with rfl | hd
        · exact hlines
        · exact hgood d hd
    · split
      · rename_i hgt
        refine ⟨List.Pairwise.cons ?_ hrest.1, ?_⟩
        · intro d hd
          rcases key_of_mem_addTo file lines rest d hd with heq | ⟨k, hk, heq⟩
          · exact heq ▸ hgt
          · exact heq ▸ List.rel_of_pairwise_cons hkeys hk
        · intro d hd
          rcases List.mem_cons.mp hd with rfl | hd
          · exact hfirst
          · exact hrest.2 d hd
      · refine ⟨List.Pairwise.cons (fun d hd => List.rel_of_pairwise_cons hkeys hd)
          hkeys.of_cons, ?_⟩
        intro d hd
        rcases List.mem_cons.mp hd with rfl | hd
        · exact goodLines_merge ls lines hfirst hlines
        · exact hgood d (List.mem_cons_of_mem _ hd)

theorem markRange_eq (c : ChangedLines) (file : String) (start stop : Nat) :
    c.markRange file start stop =
      if stop ≤ max start 1 then c
      else ⟨addTo file (List.range' (max start 1) (stop - max start 1)) c.files⟩ := rfl

theorem has_markRange (c : ChangedLines) (file : String) (start stop : Nat) (f : String)
    (n : Nat) :
    (c.markRange file start stop).Has f n ↔
      (f = file ∧ max start 1 ≤ n ∧ n < stop) ∨ c.Has f n := by
  rw [markRange_eq]
  split
  · rename_i hempty
    have hnone : ¬ (max start 1 ≤ n ∧ n < stop) := by omega
    exact (or_iff_right fun h => hnone h.2).symm
  · rw [has_addTo file _ _ List.pairwise_lt_range', List.mem_range'_1]
    have hrange : max start 1 ≤ n ∧ n < max start 1 + (stop - max start 1) ↔
        max start 1 ≤ n ∧ n < stop := by omega
    rw [hrange]

theorem wellFormed_markRange (c : ChangedLines) (file : String) (start stop : Nat)
    (h : c.WellFormed) : (c.markRange file start stop).WellFormed := by
  rw [markRange_eq]
  split
  · exact h
  · refine wellFormed_addTo file _ c.files ⟨?_, List.pairwise_lt_range', ?_⟩ h
    · simp
      omega
    · intro n hn
      have := List.mem_range'_1.mp hn
      omega

theorem union_invariant (c d : ChangedLines) (hc : c.WellFormed)
    (hd : ∀ e ∈ d.files, GoodLines e.2) :
    (c.union d).WellFormed ∧ ∀ f n, (c.union d).Has f n ↔ c.Has f n ∨ d.Has f n := by
  obtain ⟨entries⟩ := d
  unfold union
  induction entries generalizing c with
  | nil => exact ⟨hc, fun f n => by simp [has_nil]⟩
  | cons e rest ih =>
    have hgood : GoodLines e.2 := hd e List.mem_cons_self
    obtain ⟨hwf, hhas⟩ := ih ⟨addTo e.1 e.2 c.files⟩ (wellFormed_addTo e.1 e.2 c.files hgood hc)
      (fun g hg => hd g (List.mem_cons_of_mem _ hg))
    refine ⟨hwf, fun f n => ?_⟩
    rw [List.foldl_cons, hhas f n, has_addTo e.1 e.2 c.files hgood.2.1, has_cons, or_assoc,
      or_left_comm]

theorem wellFormed_union (c d : ChangedLines) (hc : c.WellFormed) (hd : d.WellFormed) :
    (c.union d).WellFormed :=
  (union_invariant c d hc hd.2).1

theorem has_union (c d : ChangedLines) (hc : c.WellFormed) (hd : d.WellFormed) (f : String)
    (n : Nat) : (c.union d).Has f n ↔ c.Has f n ∨ d.Has f n :=
  (union_invariant c d hc hd.2).2 f n

theorem linesFor_eq_none_iff (c : ChangedLines) (hc : c.WellFormed) (file : String) :
    c.linesFor file = none ↔ ∀ n, ¬ c.Has file n := by
  rw [linesFor, List.lookup_eq_none_iff]
  constructor
  · rintro hkeys n ⟨lines, hmem, -⟩
    simpa using hkeys (file, lines) hmem
  · intro hnone e he
    obtain ⟨n, hn⟩ := List.exists_mem_of_ne_nil e.2 (hc.2 e he).1
    rw [bne_iff_ne]
    rintro rfl
    exact hnone n ⟨e.2, he, hn⟩

theorem lines_unique (c : ChangedLines) (hc : c.WellFormed) (file : String) (ls ms : List Nat)
    (hl : (file, ls) ∈ c.files) (hm : (file, ms) ∈ c.files) : ls = ms := by
  have hnext : c.files.Pairwise fun e d => e.1 = d.1 → e.2 = d.2 := by
    refine hc.1.imp ?_
    intro e d hlt heq
    exact absurd (heq ▸ hlt) (String.lt_irrefl d.1)
  have hprevious : c.files.Pairwise (flip fun e d => e.1 = d.1 → e.2 = d.2) := by
    refine hnext.imp ?_
    intro e d hlines heq
    exact (hlines heq.symm).symm
  exact List.Pairwise.forall_of_forall_of_flip (fun _ _ _ => rfl) hnext hprevious hl hm rfl

theorem mem_linesFor_iff (c : ChangedLines) (hc : c.WellFormed) (file : String)
    (lines : List Nat) (hlines : c.linesFor file = some lines) (n : Nat) :
    n ∈ lines ↔ c.Has file n := by
  obtain ⟨before, after, hfiles, -⟩ := List.lookup_eq_some_iff.mp hlines
  have hmem : (file, lines) ∈ c.files := by simp [hfiles]
  constructor
  · exact fun hn => ⟨lines, hmem, hn⟩
  · rintro ⟨others, hothers, hn⟩
    exact lines_unique c hc file others lines hothers hmem ▸ hn

theorem mem_files_iff (c : ChangedLines) (hc : c.WellFormed) (e : String × List Nat) :
    e ∈ c.files ↔ GoodLines e.2 ∧ ∀ n, n ∈ e.2 ↔ c.Has e.1 n := by
  constructor
  · intro he
    refine ⟨hc.2 e he, fun n => ⟨fun hn => ⟨e.2, he, hn⟩, ?_⟩⟩
    rintro ⟨others, hothers, hn⟩
    exact lines_unique c hc e.1 others e.2 hothers he ▸ hn
  · rintro ⟨hgood, hmem⟩
    obtain ⟨first, hfirst⟩ := List.exists_mem_of_ne_nil e.2 hgood.1
    obtain ⟨lines, hlines, -⟩ := (hmem first).mp hfirst
    have heq : e.2 = lines := by
      apply List.Pairwise.eq_of_mem_iff hgood.2.1 (hc.2 _ hlines).2.1
      intro n
      rw [hmem n]
      constructor
      · rintro ⟨others, hothers, hn⟩
        exact lines_unique c hc e.1 others lines hothers hlines ▸ hn
      · exact fun hn => ⟨lines, hlines, hn⟩
    rw [← heq] at hlines
    exact hlines

theorem eq_of_has_iff (c d : ChangedLines) (hc : c.WellFormed) (hd : d.WellFormed)
    (h : ∀ file n, c.Has file n ↔ d.Has file n) : c = d := by
  have hanti : Std.Antisymm fun e f : String × List Nat => e.1 < f.1 :=
    ⟨fun e f hef hfe => absurd (String.lt_trans hef hfe) (String.lt_irrefl e.1)⟩
  have hirrefl : Std.Irrefl fun e f : String × List Nat => e.1 < f.1 :=
    ⟨fun e => String.lt_irrefl e.1⟩
  have hfiles : c.files = d.files := by
    apply List.Pairwise.eq_of_mem_iff hc.1 hd.1
    intro e
    simp only [mem_files_iff c hc, mem_files_iff d hd, h]
  cases c
  cases d
  exact congrArg ChangedLines.mk hfiles

end ChangedLines

end DocLint
