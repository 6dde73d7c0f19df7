import DocLint.DocBlock
import DocLint.Proofs.LineKinds

/-!
# Delimited documentation blocks

A block runs from a line that opens documentation to the first line from there
on that closes a comment, and no comment is opened in between. The lookup above
a declaration finds exactly the delimited block that ends there.
-/

set_option autoImplicit false

namespace DocLint

def lineAt (lines : List Line) (k : Nat) : Line := lines.getD k []

theorem lineAt_of_lt (lines : List Line) (k : Nat) (h : k < lines.length) :
    lines[k]? = some (lineAt lines k) := by
  simp [lineAt, h]

theorem lineAt_of_ge (lines : List Line) (k : Nat) (h : lines.length ≤ k) :
    lineAt lines k = [] := by
  simp [lineAt, h]

theorem lineAt_drop (lines : List Line) (i k : Nat) :
    lineAt (lines.drop i) k = lineAt lines (i + k) := by
  simp [lineAt, List.getD_eq_getElem?_getD]

theorem lt_of_closesComment (lines : List Line) (k : Nat)
    (h : (lineAt lines k).closesComment = true) : k < lines.length := by
  rcases Nat.lt_or_ge k lines.length with hk | hk
  · exact hk
  · rw [lineAt_of_ge lines k hk] at h
    exact absurd h (by decide)

theorem reverse_take_succ (lines : List Line) (i : Nat) (h : i < lines.length) :
    (lines.take (i + 1)).reverse = lineAt lines i :: (lines.take i).reverse := by
  rw [List.take_add_one, lineAt_of_lt lines i h]
  simp

def linesBetween (lines : List Line) (start stop : Nat) : List Line :=
  (lines.take (stop + 1)).drop start

theorem linesBetween_self (lines : List Line) (i : Nat) (h : i < lines.length) :
    linesBetween lines i i = [lineAt lines i] := by
  rw [linesBetween, List.take_add_one, lineAt_of_lt lines i h,
    List.drop_append_of_le_length (by simp; omega)]
  simp

theorem linesBetween_succ (lines : List Line) (start i : Nat) (hs : start ≤ i + 1)
    (h : i + 1 < lines.length) :
    linesBetween lines start (i + 1) = linesBetween lines start i ++ [lineAt lines (i + 1)] := by
  rw [linesBetween, List.take_add_one, lineAt_of_lt lines (i + 1) h,
    List.drop_append_of_le_length (by simp; omega)]
  rfl

/-- Line `start` opens documentation and is the first line, upward from line `i`, that opens or
closes a comment. What closes on line `i` itself does not count. -/
structure OpenedAt (lines : List Line) (start i : Nat) : Prop where
  ordered : start ≤ i
  opens : (lineAt lines start).opensDoc = true
  noOpener : ∀ k, start < k → k ≤ i → (lineAt lines k).opensComment = false
  noCloser : ∀ k, start ≤ k → k < i → (lineAt lines k).closesComment = false

theorem openedAt_self_iff (lines : List Line) (i : Nat) :
    OpenedAt lines i i ↔ (lineAt lines i).opensDoc = true :=
  ⟨fun h => h.opens, fun h => ⟨Nat.le_refl i, h, by omega, by omega⟩⟩

theorem openedAt_succ_iff (lines : List Line) (start i : Nat) (hs : start ≤ i) :
    OpenedAt lines start (i + 1) ↔
      (lineAt lines (i + 1)).opensComment = false ∧ (lineAt lines i).closesComment = false ∧
        OpenedAt lines start i := by
  constructor
  · intro h
    exact ⟨h.noOpener (i + 1) (by omega) (by omega), h.noCloser i hs (by omega), hs, h.opens,
      fun k hk hki => h.noOpener k hk (by omega), fun k hk hki => h.noCloser k hk (by omega)⟩
  · rintro ⟨ho, hc, h⟩
    refine ⟨by omega, h.opens, ?_, ?_⟩
    · intro k hk hki
      rcases Nat.lt_or_eq_of_le hki with hlt | rfl
      · exact h.noOpener k hk (by omega)
      · exact ho
    · intro k hk hki
      rcases Nat.lt_or_eq_of_le (Nat.le_of_lt_succ hki) with hlt | rfl
      · exact h.noCloser k hk hlt
      · exact hc

theorem OpenedAt.eq_of_opensComment {lines : List Line} {start i : Nat}
    (h : OpenedAt lines start i) (ho : (lineAt lines i).opensComment = true) : start = i := by
  rcases Nat.lt_or_eq_of_le h.ordered with hlt | heq
  · have := h.noOpener i hlt (Nat.le_refl i)
    rw [ho] at this
    contradiction
  · exact heq

theorem findOpening_succ (lines : List Line) (stop i : Nat) (collected : List Line)
    (hi : i < lines.length) :
    findOpening stop (lineAt lines (i + 1)) collected (lines.take (i + 1)).reverse =
      if (lineAt lines (i + 1)).opensDoc then
        .found ⟨i + 1, stop, Text.join ['\n'] (lineAt lines (i + 1) :: collected)⟩
      else if (lineAt lines (i + 1)).opensComment then .missing
      else if (lineAt lines i).closesComment then .unopened
      else findOpening stop (lineAt lines i) (lineAt lines (i + 1) :: collected)
        (lines.take i).reverse := by
  have hlen : (lines.take i).reverse.length = i := by simp; omega
  rw [reverse_take_succ lines i hi, findOpening, hlen]

theorem findOpening_eq_found_iff (lines : List Line) (stop i : Nat) (collected : List Line)
    (b : DocBlock) (hi : i < lines.length) :
    findOpening stop (lineAt lines i) collected (lines.take i).reverse = .found b ↔
      ∃ start, OpenedAt lines start i ∧
        b = ⟨start, stop, Text.join ['\n'] (linesBetween lines start i ++ collected)⟩ := by
  induction i generalizing collected with
  | zero =>
    rw [List.take_zero, List.reverse_nil, findOpening]
    constructor
    · intro h
      by_cases hd : (lineAt lines 0).opensDoc = true
      · rw [if_pos hd] at h
        refine ⟨0, (openedAt_self_iff lines 0).mpr hd, ?_⟩
        rw [linesBetween_self lines 0 hi]
        exact (BlockLookup.found.inj h).symm
      · rw [if_neg hd] at h
        split at h <;> contradiction
    · rintro ⟨start, h, rfl⟩
      obtain rfl : start = 0 := Nat.le_zero.mp h.ordered
      rw [if_pos h.opens, linesBetween_self lines 0 hi]
      rfl
  | succ i ih =>
    rw [findOpening_succ lines stop i collected (by omega)]
    by_cases hd : (lineAt lines (i + 1)).opensDoc = true
    · rw [if_pos hd]
      constructor
      · intro h
        refine ⟨i + 1, (openedAt_self_iff lines (i + 1)).mpr hd, ?_⟩
        rw [linesBetween_self lines (i + 1) hi]
        exact (BlockLookup.found.inj h).symm
      · rintro ⟨start, h, rfl⟩
        obtain rfl := h.eq_of_opensComment (Line.opensComment_of_opensDoc _ hd)
        rw [linesBetween_self lines (i + 1) hi]
        rfl
    have further : ∀ start, OpenedAt lines start (i + 1) ↔
        start ≤ i ∧ (lineAt lines (i + 1)).opensComment = false ∧
          (lineAt lines i).closesComment = false ∧ OpenedAt lines start i := by
      intro start
      constructor
      · intro h
        have hs : start ≤ i := by
          rcases Nat.lt_or_eq_of_le h.ordered with hlt | rfl
          · omega
          · exact absurd h.opens hd
        exact ⟨hs, (openedAt_succ_iff lines start i hs).mp h⟩
      · rintro ⟨hs, h⟩
        exact (openedAt_succ_iff lines start i hs).mpr h
    rw [if_neg hd]
    simp only [further]
    by_cases ho : (lineAt lines (i + 1)).opensComment = true
    · simp [ho]
    by_cases hc : (lineAt lines i).closesComment = true
    · simp [ho, hc]
    rw [if_neg ho, if_neg hc, ih _ (by omega)]
    rw [Bool.not_eq_true] at ho hc
    constructor
    · rintro ⟨start, h, rfl⟩
      refine ⟨start, ⟨h.ordered, ho, hc, h⟩, ?_⟩
      rw [linesBetween_succ lines start i (by have := h.ordered; omega) hi, List.append_assoc]
      rfl
    · rintro ⟨start, ⟨hs, -, -, h⟩, rfl⟩
      refine ⟨start, h, ?_⟩
      rw [linesBetween_succ lines start i (by omega) hi, List.append_assoc]
      rfl

/-- The lines from `start` to `stop` are one documentation block. -/
structure IsBlock (lines : List Line) (start stop : Nat) : Prop
    extends OpenedAt lines start stop where
  closes : (lineAt lines stop).closesComment = true

theorem findDocBlock_succ (lines : List Line) (i : Nat) (hi : i < lines.length) :
    findDocBlock lines (i + 1) =
      if (lineAt lines i).kind.isSpacer then findDocBlock lines i
      else if (lineAt lines i).closesComment then
        findOpening i (lineAt lines i) [] (lines.take i).reverse
      else .missing := by
  have hlen : (lines.take i).reverse.length = i := by simp; omega
  rw [findDocBlock, reverse_take_succ lines i hi, findClosing, hlen]
  rfl

/-- The block stands right above a line: only spacers are in between. -/
structure StandsAbove (lines : List Line) (stop index : Nat) : Prop where
  before : stop < index
  spacers : ∀ k, stop < k → k < index → (lineAt lines k).kind.isSpacer = true

theorem standsAbove_self (lines : List Line) (i : Nat) : StandsAbove lines i (i + 1) :=
  ⟨Nat.lt_succ_self i, fun k hk hki => by omega⟩

theorem standsAbove_succ_iff (lines : List Line) (stop i : Nat) (hs : stop < i) :
    StandsAbove lines stop (i + 1) ↔
      (lineAt lines i).kind.isSpacer = true ∧ StandsAbove lines stop i := by
  constructor
  · intro h
    exact ⟨h.spacers i hs (Nat.lt_succ_self i), hs, fun k hk hki => h.spacers k hk (by omega)⟩
  · rintro ⟨hi, h⟩
    refine ⟨by omega, ?_⟩
    intro k hk hki
    rcases Nat.lt_or_eq_of_le (Nat.le_of_lt_succ hki) with hlt | rfl
    · exact h.spacers k hk hlt
    · exact hi

theorem findDocBlock_eq_found_iff (lines : List Line) (index : Nat) (b : DocBlock)
    (hi : index ≤ lines.length) :
    findDocBlock lines index = .found b ↔
      IsBlock lines b.start b.stop ∧ StandsAbove lines b.stop index ∧
        b.text = Text.join ['\n'] (linesBetween lines b.start b.stop) := by
  induction index with
  | zero =>
    constructor
    · intro h
      contradiction
    · rintro ⟨-, h, -⟩
      exact absurd h.before (Nat.not_lt_zero _)
  | succ i ih =>
    have hlt : i < lines.length := by omega
    rw [findDocBlock_succ lines i hlt]
    by_cases hspace : (lineAt lines i).kind.isSpacer = true
    · rw [if_pos hspace, ih (by omega)]
      constructor
      · rintro ⟨hb, ha, ht⟩
        exact ⟨hb, (standsAbove_succ_iff lines _ i ha.before).mpr ⟨hspace, ha⟩, ht⟩
      · rintro ⟨hb, ha, ht⟩
        have hne : b.stop ≠ i := by
          intro heq
          have := Line.isSpacer_of_closesComment _ hb.closes
          rw [heq, hspace] at this
          contradiction
        have hs : b.stop < i := by have := ha.before; omega
        exact ⟨hb, ((standsAbove_succ_iff lines _ i hs).mp ha).2, ht⟩
    rw [if_neg hspace]
    have here : StandsAbove lines b.stop (i + 1) → b.stop = i := by
      intro h
      rcases Nat.lt_or_eq_of_le (Nat.le_of_lt_succ h.before) with hs | heq
      · exact absurd ((standsAbove_succ_iff lines _ i hs).mp h).1 hspace
      · exact heq
    by_cases hclose : (lineAt lines i).closesComment = true
    · rw [if_pos hclose, findOpening_eq_found_iff lines i i [] b hlt]
      constructor
      · rintro ⟨start, h, rfl⟩
        exact ⟨⟨h, hclose⟩, standsAbove_self lines i, by simp⟩
      · rintro ⟨hb, ha, ht⟩
        obtain ⟨start, stop, text⟩ := b
        obtain rfl : stop = i := here ha
        refine ⟨start, hb.toOpenedAt, ?_⟩
        rw [List.append_nil]
        exact congrArg (DocBlock.mk start stop) ht
    · rw [if_neg hclose]
      constructor
      · intro h
        contradiction
      · rintro ⟨hb, ha, -⟩
        exact absurd (here ha ▸ hb.closes) hclose

end DocLint
