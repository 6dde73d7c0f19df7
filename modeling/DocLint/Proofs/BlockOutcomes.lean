import DocLint.Proofs.Blocks

/-!
# Outcomes of the lookup above a declaration

The lookup starts from the nearest line above that is not a spacer. A block is
found if it is delimited and ends there, the end of a comment is stray if
nothing opens it, and in all other cases documentation is missing. The spacers
in between have no part in it.
-/

set_option autoImplicit false

namespace DocLint

/-- The nearest line above a place that is not a spacer. -/
structure NearestText (lines : List Line) (index e : Nat) : Prop
    extends StandsAbove lines e (min index lines.length) where
  text : (lineAt lines e).kind.isSpacer = false

/-- The lines above the end of a comment open nothing that it could close: either another comment
ends above it, and nothing is opened in between, or there is no comment above at all. -/
def NothingOpened (lines : List Line) (e : Nat) : Prop :=
  (∃ c, c < e ∧ (lineAt lines c).closesComment = true ∧
    (∀ k, c < k → k < e → (lineAt lines k).closesComment = false) ∧
    ∀ k, c < k → k < e → (lineAt lines k).opensComment = false) ∨
  ((∀ k, k < e → (lineAt lines k).closesComment = false) ∧
    ∀ k, k < e → (lineAt lines k).opensComment = false)

/-- A comment ends on the line, and nothing opens it. -/
structure StrayEnd (lines : List Line) (e : Nat) : Prop where
  closes : (lineAt lines e).closesComment = true
  noOpener : (lineAt lines e).opensComment = false
  unopened : NothingOpened lines e

/-- The block is delimited, it ends on the nearest text above, and its text is that of its
lines. -/
structure BlockAbove (lines : List Line) (index : Nat) (b : DocBlock) : Prop where
  nearest : NearestText lines index b.stop
  block : IsBlock lines b.start b.stop
  text : b.text = Text.join ['\n'] (linesBetween lines b.start b.stop)

theorem findDocBlock_min (lines : List Line) (index : Nat) :
    findDocBlock lines (min index lines.length) = findDocBlock lines index := by
  rw [findDocBlock, findDocBlock, ← List.take_eq_take_min]

theorem exists_text_or_spacers (lines : List Line) (n : Nat) :
    (∃ e, StandsAbove lines e n ∧ (lineAt lines e).kind.isSpacer = false) ∨
      ∀ k, k < n → (lineAt lines k).kind.isSpacer = true := by
  induction n with
  | zero =>
    right
    intro k hk
    omega
  | succ n ih =>
    by_cases hn : (lineAt lines n).kind.isSpacer = true
    · rcases ih with ⟨e, habove, htext⟩ | hall
      · exact Or.inl ⟨e, (standsAbove_succ_iff lines e n habove.before).mpr ⟨hn, habove⟩, htext⟩
      · right
        intro k hk
        by_cases hkn : k = n
        · rw [hkn]
          exact hn
        · exact hall k (by omega)
    · exact Or.inl ⟨n, standsAbove_self lines n, by simpa using hn⟩

theorem NearestText.unique {lines : List Line} {index e e' : Nat} (h : NearestText lines index e)
    (h' : NearestText lines index e') : e = e' := by
  have hle (a b : Nat) (ha : NearestText lines index a) (hb : NearestText lines index b) :
      ¬ a < b := by
    intro hlt
    have hspacer := ha.spacers b hlt hb.before
    rw [hb.text] at hspacer
    contradiction
  have := hle e e' h h'
  have := hle e' e h' h
  omega

theorem findDocBlock_of_standsAbove (lines : List Line) (n e : Nat) (hn : n ≤ lines.length)
    (h : StandsAbove lines e n) : findDocBlock lines n = findDocBlock lines (e + 1) := by
  induction n with
  | zero => exact absurd h.before (Nat.not_lt_zero e)
  | succ n ih =>
    by_cases he : e = n
    · rw [he]
    · have hlt : e < n := by have := h.before; omega
      have hstep := (standsAbove_succ_iff lines e n hlt).mp h
      rw [findDocBlock_succ lines n (by omega), if_pos hstep.1, ih (by omega) hstep.2]

theorem findDocBlock_of_nearest (lines : List Line) (index e : Nat)
    (h : NearestText lines index e) :
    findDocBlock lines index =
      if (lineAt lines e).closesComment then
        findOpening e (lineAt lines e) [] (lines.take e).reverse
      else .missing := by
  have he : e < lines.length := by have := h.before; omega
  rw [← findDocBlock_min, findDocBlock_of_standsAbove lines _ e (Nat.min_le_right _ _)
    h.toStandsAbove, findDocBlock_succ lines e he, h.text]
  rfl

theorem findDocBlock_of_spacers (lines : List Line) (n : Nat) (hn : n ≤ lines.length)
    (h : ∀ k, k < n → (lineAt lines k).kind.isSpacer = true) :
    findDocBlock lines n = .missing := by
  induction n with
  | zero => rfl
  | succ n ih =>
    rw [findDocBlock_succ lines n (by omega), if_pos (h n (by omega))]
    exact ih (by omega) fun k hk => h k (by omega)

theorem nothingOpened_zero (lines : List Line) : NothingOpened lines 0 :=
  Or.inr ⟨fun k hk => by omega, fun k hk => by omega⟩

theorem nothingOpened_succ_iff (lines : List Line) (i : Nat) :
    NothingOpened lines (i + 1) ↔ (lineAt lines i).closesComment = true ∨
      (lineAt lines i).closesComment = false ∧ (lineAt lines i).opensComment = false ∧
        NothingOpened lines i := by
  constructor
  · intro h
    by_cases hi : (lineAt lines i).closesComment = true
    · exact Or.inl hi
    right
    rw [Bool.not_eq_true] at hi
    rcases h with ⟨c, hc, hclose, hnearest, hopen⟩ | ⟨hclose, hopen⟩
    · have hne : c ≠ i := by
        intro heq
        rw [heq, hi] at hclose
        contradiction
      exact ⟨hi, hopen i (by omega) (by omega), Or.inl ⟨c, by omega, hclose,
        fun k hck hk => hnearest k hck (by omega), fun k hck hk => hopen k hck (by omega)⟩⟩
    · exact ⟨hi, hopen i (by omega), Or.inr ⟨fun k hk => hclose k (by omega),
        fun k hk => hopen k (by omega)⟩⟩
  · intro h
    -- what holds on line `i` and on the lines below it, holds on the lines below `i + 1`
    have extend (p q : Nat → Prop) (hi : p i) (hbelow : ∀ k, q k → k < i → p k) :
        ∀ k, q k → k < i + 1 → p k := by
      intro k hk hki
      by_cases heq : k = i
      · rw [heq]
        exact hi
      · exact hbelow k hk (by omega)
    rcases h with hi | ⟨hi, ho, ⟨c, hc, hclose, hnearest, hopen⟩ | ⟨hclose, hopen⟩⟩
    · exact Or.inl ⟨i, by omega, hi, fun k hk hki => by omega, fun k hk hki => by omega⟩
    · exact Or.inl ⟨c, by omega, hclose, extend _ _ hi hnearest, extend _ _ ho hopen⟩
    · exact Or.inr ⟨fun k hk => extend _ (fun _ => True) hi (fun k _ => hclose k) k trivial hk,
        fun k hk => extend _ (fun _ => True) ho (fun k _ => hopen k) k trivial hk⟩

theorem findOpening_eq_unopened_iff (lines : List Line) (stop i : Nat) (collected : List Line)
    (hi : i < lines.length) :
    findOpening stop (lineAt lines i) collected (lines.take i).reverse = .unopened ↔
      (lineAt lines i).opensComment = false ∧ NothingOpened lines i := by
  induction i generalizing collected with
  | zero =>
    rw [List.take_zero, List.reverse_nil, findOpening]
    by_cases ho : (lineAt lines 0).opensComment = true
    · by_cases hd : (lineAt lines 0).opensDoc = true <;> simp [hd, ho]
    · have hd : ¬ (lineAt lines 0).opensDoc = true :=
        fun hd => ho (Line.opensComment_of_opensDoc _ hd)
      simp [hd, ho, nothingOpened_zero]
  | succ i ih =>
    rw [findOpening_succ lines stop i collected (by omega), nothingOpened_succ_iff]
    by_cases ho : (lineAt lines (i + 1)).opensComment = true
    · by_cases hd : (lineAt lines (i + 1)).opensDoc = true <;> simp [hd, ho]
    have hd : ¬ (lineAt lines (i + 1)).opensDoc = true :=
      fun hd => ho (Line.opensComment_of_opensDoc _ hd)
    rw [if_neg hd, if_neg ho]
    by_cases hc : (lineAt lines i).closesComment = true
    · simp [hc, ho]
    · rw [if_neg hc, ih _ (by omega)]
      simp [hc, ho]

theorem findDocBlock_eq_found_iff_blockAbove (lines : List Line) (index : Nat) (b : DocBlock) :
    findDocBlock lines index = .found b ↔ BlockAbove lines index b := by
  rw [← findDocBlock_min, findDocBlock_eq_found_iff lines _ b (Nat.min_le_right _ _)]
  constructor
  · intro ⟨hblock, habove, htext⟩
    exact ⟨⟨habove, Line.isSpacer_of_closesComment _ hblock.closes⟩, hblock, htext⟩
  · intro h
    exact ⟨h.block, h.nearest.toStandsAbove, h.text⟩

theorem findDocBlock_eq_unopened_iff (lines : List Line) (index : Nat) :
    findDocBlock lines index = .unopened ↔
      ∃ e, NearestText lines index e ∧ StrayEnd lines e := by
  rcases exists_text_or_spacers lines (min index lines.length) with ⟨e, habove, htext⟩ | hall
  · have hnearest : NearestText lines index e := ⟨habove, htext⟩
    have hstray : (∃ e, NearestText lines index e ∧ StrayEnd lines e) ↔ StrayEnd lines e := by
      constructor
      · intro ⟨e', hnearest', hstray⟩
        rw [hnearest.unique hnearest']
        exact hstray
      · intro h
        exact ⟨e, hnearest, h⟩
    rw [hstray, findDocBlock_of_nearest lines index e hnearest]
    by_cases hc : (lineAt lines e).closesComment = true
    · have he : e < lines.length := lt_of_closesComment lines e hc
      rw [if_pos hc, findOpening_eq_unopened_iff lines e e [] he]
      exact ⟨fun h => ⟨hc, h.1, h.2⟩, fun h => ⟨h.noOpener, h.unopened⟩⟩
    · rw [if_neg hc]
      constructor
      · intro h
        contradiction
      · intro h
        exact absurd h.closes hc
  · rw [← findDocBlock_min, findDocBlock_of_spacers lines _ (Nat.min_le_right _ _) hall]
    constructor
    · intro h
      contradiction
    · intro ⟨e, hnearest, _⟩
      have hspacer := hall e hnearest.before
      rw [hnearest.text] at hspacer
      contradiction

theorem findClosing_spacers (spacers above : List Line)
    (h : ∀ line ∈ spacers, line.kind.isSpacer = true) :
    findClosing (spacers ++ above) = findClosing above := by
  induction spacers with
  | nil => rfl
  | cons line spacers ih =>
    rw [List.cons_append, findClosing, if_pos (h line List.mem_cons_self)]
    exact ih fun other hother => h other (List.mem_cons_of_mem line hother)

theorem findDocBlock_spacers (above spacers below : List Line)
    (h : ∀ line ∈ spacers, line.kind.isSpacer = true) :
    findDocBlock (above ++ spacers ++ below) (above.length + spacers.length) =
      findClosing above.reverse := by
  rw [findDocBlock, ← List.length_append, List.take_left, List.reverse_append,
    findClosing_spacers spacers.reverse above.reverse
      fun line hline => h line (by simpa using hline)]

/-- The outcomes of the lookup: a block is found exactly if it stands above the place, a comment is
unopened exactly if its end is stray, and otherwise documentation is missing. Other spacers right
above the place lead to the same outcome. -/
theorem lookup_outcomes (lines : List Line) (index : Nat) :
    (∀ b, findDocBlock lines index = .found b ↔ BlockAbove lines index b) ∧
    (findDocBlock lines index = .unopened ↔
      ∃ e, NearestText lines index e ∧ StrayEnd lines e) ∧
    (findDocBlock lines index = .missing ↔
      (∀ b, ¬ BlockAbove lines index b) ∧ ¬ ∃ e, NearestText lines index e ∧ StrayEnd lines e) ∧
    ∀ above spacers spacers' below, lines = above ++ spacers ++ below →
      index = above.length + spacers.length →
      (∀ line ∈ spacers, line.kind.isSpacer = true) →
      (∀ line ∈ spacers', line.kind.isSpacer = true) →
      findDocBlock (above ++ spacers' ++ below) (above.length + spacers'.length) =
        findDocBlock lines index := by
  refine ⟨findDocBlock_eq_found_iff_blockAbove lines index,
    findDocBlock_eq_unopened_iff lines index, ?_, ?_⟩
  · rw [← findDocBlock_eq_unopened_iff]
    simp only [← findDocBlock_eq_found_iff_blockAbove]
    cases findDocBlock lines index <;> simp
  · intro above spacers spacers' below hlines hindex hspacers hspacers'
    rw [hlines, hindex, findDocBlock_spacers above spacers' below hspacers',
      findDocBlock_spacers above spacers below hspacers]

/-- A one-line block and a stray end below it, with spacers in front of a class. -/
def strayBelowBlock (spacers : List Line) : List Line :=
  ["/** Cart. */".toList, " * Adds.".toList, " */".toList] ++ spacers ++ ["class A \x7b".toList]

theorem stray_end_through_spacers :
    (∀ line ∈ [[], "@Log()".toList], (Line.kind line).isSpacer = true) ∧
    (∀ line ∈ ["// cart".toList], (Line.kind line).isSpacer = true) ∧
    findDocBlock (strayBelowBlock [[], "@Log()".toList]) 5 = .unopened ∧
    findDocBlock (strayBelowBlock ["// cart".toList]) 4 = .unopened := by
  have hspacers : ∀ line ∈ [[], "@Log()".toList], (Line.kind line).isSpacer = true := by
    simp only [List.forall_mem_cons]
    decide +kernel
  have hspacers' : ∀ line ∈ ["// cart".toList], (Line.kind line).isSpacer = true := by
    simp only [List.forall_mem_cons]
    decide +kernel
  have hnearest : NearestText (strayBelowBlock [[], "@Log()".toList]) 5 2 := by
    refine ⟨⟨by decide, ?_⟩, by decide +kernel⟩
    intro k hk hki
    have hcases : k = 3 ∨ k = 4 := by
      have : k < 5 := Nat.lt_of_lt_of_le hki (Nat.min_le_left _ _)
      omega
    rcases hcases with rfl | rfl <;> decide +kernel
  have hnothing : NothingOpened (strayBelowBlock [[], "@Log()".toList]) 2 := by
    rw [nothingOpened_succ_iff, nothingOpened_succ_iff]
    right
    exact ⟨by decide +kernel, by decide +kernel, Or.inl (by decide +kernel)⟩
  have houtcomes := lookup_outcomes (strayBelowBlock [[], "@Log()".toList]) 5
  have hunopened := houtcomes.2.1.mpr
    ⟨2, hnearest, by decide +kernel, by decide +kernel, hnothing⟩
  exact ⟨hspacers, hspacers', hunopened,
    (houtcomes.2.2.2 _ _ _ _ rfl rfl hspacers hspacers').trans hunopened⟩

end DocLint
