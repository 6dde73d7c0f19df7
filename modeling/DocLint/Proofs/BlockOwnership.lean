import DocLint.Proofs.Blocks
import DocLint.Proofs.Ownership

/-!
# Lines of a documentation block and their declaration

Two searches decide which block documents a declaration. From a changed line
one goes up to an opener and down to a closer and on to the declaration; from
the declaration the other goes up to the closer and on to its opener. They
agree on the lines of a delimited block.
-/

set_option autoImplicit false

namespace DocLint

@[simp] theorem lineAt_cons_zero (line : Line) (lines : List Line) :
    lineAt (line :: lines) 0 = line := rfl

@[simp] theorem lineAt_cons_succ (line : Line) (lines : List Line) (k : Nat) :
    lineAt (line :: lines) (k + 1) = lineAt lines k := rfl

def Line.Inner (line : Line) : Prop := line.kind = .commentInterior ∨ line.kind = .blank

theorem Line.Inner.opensComment {line : Line} (h : line.Inner) : line.opensComment = false :=
  line.opensComment_of_kind (h.imp_right Or.inr)

theorem Line.Inner.closesComment {line : Line} (h : line.Inner) : line.closesComment = false :=
  line.closesComment_of_kind h

/-- The first line from `index` on that closes a comment is `stop`. -/
structure ClosedAt (lines : List Line) (index stop : Nat) : Prop where
  ordered : index ≤ stop
  closes : (lineAt lines stop).closesComment = true
  noCloser : ∀ k, index ≤ k → k < stop → (lineAt lines k).closesComment = false

theorem closedAt_drop (lines : List Line) (index stop : Nat) :
    ClosedAt (lines.drop index) 0 stop ↔ ClosedAt lines index (index + stop) := by
  constructor
  · intro h
    refine ⟨by omega, lineAt_drop lines index stop ▸ h.closes, ?_⟩
    intro k hk hks
    obtain ⟨j, rfl⟩ := Nat.exists_eq_add_of_le hk
    rw [← lineAt_drop]
    exact h.noCloser j (Nat.zero_le j) (by omega)
  · intro h
    refine ⟨by omega, (lineAt_drop lines index stop).symm ▸ h.closes, ?_⟩
    intro k _ hks
    rw [lineAt_drop]
    exact h.noCloser (index + k) (by omega) (by omega)

theorem not_closedAt_nil (stop : Nat) : ¬ ClosedAt [] 0 stop := fun h =>
  absurd (lt_of_closesComment [] stop h.closes) (Nat.not_lt_zero stop)

theorem closedAt_cons_of_closesComment (line : Line) (rest : List Line) (stop : Nat)
    (hc : line.closesComment = true) : ClosedAt (line :: rest) 0 stop ↔ stop = 0 := by
  constructor
  · intro h
    rcases Nat.eq_zero_or_pos stop with h0 | hpos
    · exact h0
    · have hno := h.noCloser 0 (Nat.le_refl 0) hpos
      rw [lineAt_cons_zero, hc] at hno
      contradiction
  · rintro rfl
    exact ⟨Nat.le_refl 0, hc, by omega⟩

theorem closedAt_cons_succ_iff (line : Line) (rest : List Line) (stop : Nat) :
    ClosedAt (line :: rest) 0 (stop + 1) ↔
      line.closesComment = false ∧ ClosedAt rest 0 stop := by
  constructor
  · intro h
    exact ⟨h.noCloser 0 (Nat.le_refl 0) (Nat.succ_pos stop), Nat.zero_le stop, h.closes,
      fun k _ hk => h.noCloser (k + 1) (by omega) (by omega)⟩
  · rintro ⟨hc, h⟩
    refine ⟨by omega, h.closes, ?_⟩
    intro k _ hk
    cases k with
    | zero => exact hc
    | succ k => exact h.noCloser k (Nat.zero_le k) (by omega)

theorem closedAt_cons_iff (line : Line) (rest : List Line) (stop : Nat)
    (hc : line.closesComment = false) :
    ClosedAt (line :: rest) 0 stop ↔ ∃ below, ClosedAt rest 0 below ∧ stop = below + 1 := by
  cases stop with
  | zero =>
    have hno : ¬ ClosedAt (line :: rest) 0 0 := by
      intro h
      have := h.closes
      rw [lineAt_cons_zero, hc] at this
      contradiction
    simp [hno]
  | succ stop => simp [closedAt_cons_succ_iff, hc]

theorem throughClose_eq_some_iff (lines : List Line) (n : Nat) :
    throughClose lines = some n ↔ ∃ stop, ClosedAt lines 0 stop ∧ n = stop + 1 := by
  induction lines generalizing n with
  | nil => simp [throughClose, not_closedAt_nil]
  | cons line rest ih =>
    by_cases hc : line.closesComment = true
    · simp [throughClose, hc, closedAt_cons_of_closesComment, eq_comm]
    · rw [throughClose, if_neg hc, Option.map_eq_some_iff]
      simp only [closedAt_cons_iff line rest _ (Bool.not_eq_true _ ▸ hc), ih]
      constructor
      · rintro ⟨m, ⟨stop, h, rfl⟩, rfl⟩
        exact ⟨stop + 1, ⟨stop, h, rfl⟩, rfl⟩
      · rintro ⟨_, ⟨stop, h, rfl⟩, rfl⟩
        exact ⟨stop + 1, ⟨stop, h, rfl⟩, rfl⟩

theorem isSpacer_of_lt_spacers (lines : List Line) (k : Nat) (h : k < spacers lines) :
    (lineAt lines k).kind.isSpacer = true := by
  induction lines generalizing k with
  | nil => exact absurd h (Nat.not_lt_zero k)
  | cons line rest ih =>
    by_cases hs : line.kind.isSpacer = true
    · cases k with
      | zero => exact hs
      | succ k =>
        apply ih
        simpa [spacers, hs] using h
    · simp [spacers, hs] at h

theorem spacers_eq (lines : List Line) (m : Nat) (hm : m < lines.length)
    (hs : ∀ k, k < m → (lineAt lines k).kind.isSpacer = true)
    (he : (lineAt lines m).kind.isSpacer = false) : spacers lines = m := by
  induction lines generalizing m with
  | nil => exact absurd hm (Nat.not_lt_zero m)
  | cons line rest ih =>
    cases m with
    | zero =>
      have hline : line.kind.isSpacer = false := he
      simp [spacers, hline]
    | succ m =>
      have hline : line.kind.isSpacer = true := hs 0 (Nat.succ_pos m)
      have hrest := ih m (Nat.lt_of_succ_lt_succ hm) (fun k hk => hs (k + 1) (by omega)) he
      simpa [spacers, hline] using hrest

theorem isSpacer_of_accepted (lines : List Line) (d : Declaration) (h : Accepted lines d) :
    (lineAt lines d.index).kind.isSpacer = false := by
  obtain ⟨line, shape, hl, hk, -, -, -⟩ := (declarationAt_eq_some_iff lines d.index d).mp h
  rw [lineAt_of_lt lines d.index (declarationAt_lt lines d.index d h)] at hl
  rw [Option.some.inj hl, hk]
  rfl

theorem findDocumentedDeclaration_eq_some_iff (lines : List Line) (index : Nat)
    (d : Declaration) :
    findDocumentedDeclaration lines index = some d ↔
      ∃ stop, ClosedAt lines index stop ∧ StandsAbove lines stop d.index ∧ Accepted lines d := by
  constructor
  · intro h
    rw [findDocumentedDeclaration] at h
    split at h
    · contradiction
    · rename_i n hn
      obtain ⟨m, hm, rfl⟩ := (throughClose_eq_some_iff _ n).mp hn
      have hindex := declarationAt_index lines _ d h
      refine ⟨index + m, (closedAt_drop lines index m).mp hm, ⟨by omega, ?_⟩,
        accepted_of_declarationAt lines _ d h⟩
      intro k hk hkd
      obtain ⟨j, rfl⟩ := Nat.exists_eq_add_of_le (show index + (m + 1) ≤ k by omega)
      rw [← lineAt_drop]
      exact isSpacer_of_lt_spacers _ j (by omega)
  · rintro ⟨stop, hc, ha, hd⟩
    obtain ⟨m, rfl⟩ := Nat.exists_eq_add_of_le hc.ordered
    have hn : throughClose (lines.drop index) = some (m + 1) :=
      (throughClose_eq_some_iff _ _).mpr ⟨m, (closedAt_drop lines index m).mpr hc, rfl⟩
    have hlt := declarationAt_lt lines d.index d hd
    obtain ⟨g, hg⟩ := Nat.exists_eq_add_of_le (show index + (m + 1) ≤ d.index from ha.before)
    have hspacers : spacers (lines.drop (index + (m + 1))) = g := by
      apply spacers_eq
      · rw [List.length_drop]
        omega
      · intro k hk
        rw [lineAt_drop]
        exact ha.spacers _ (by omega) (by omega)
      · rw [lineAt_drop, ← hg]
        exact isSpacer_of_accepted lines d hd
    rw [findDocumentedDeclaration, hn]
    simp only [hspacers, ← hg]
    exact hd

theorem reachesOpener_iff (lines : List Line) (i : Nat) (hi : i ≤ lines.length) :
    reachesOpener (lines.take i).reverse = true ↔
      ∃ o, o < i ∧ (lineAt lines o).opensDoc = true ∧
        ∀ k, o < k → k < i → (lineAt lines k).Inner := by
  induction i with
  | zero => simp [reachesOpener]
  | succ i ih =>
    rw [reverse_take_succ lines i (by omega), reachesOpener]
    by_cases hd : (lineAt lines i).opensDoc = true
    · rw [if_pos hd]
      exact ⟨fun _ => ⟨i, Nat.lt_succ_self i, hd, fun k hk hki => by omega⟩, fun _ => rfl⟩
    rw [if_neg hd]
    have further : (∃ o, o < i + 1 ∧ (lineAt lines o).opensDoc = true ∧
        ∀ k, o < k → k < i + 1 → (lineAt lines k).Inner) ↔
        (lineAt lines i).Inner ∧ ∃ o, o < i ∧ (lineAt lines o).opensDoc = true ∧
          ∀ k, o < k → k < i → (lineAt lines k).Inner := by
      constructor
      · rintro ⟨o, ho, hod, hin⟩
        have hoi : o < i := by
          rcases Nat.lt_or_eq_of_le (Nat.le_of_lt_succ ho) with hlt | rfl
          · exact hlt
          · contradiction
        exact ⟨hin i hoi (Nat.lt_succ_self i), o, hoi, hod, fun k hk hki => hin k hk (by omega)⟩
      · rintro ⟨hi, o, ho, hod, hin⟩
        exact ⟨o, by omega, hod, fun k hk hki => by
          rcases Nat.lt_or_eq_of_le (Nat.le_of_lt_succ hki) with hlt | rfl
          · exact hin k hk hlt
          · exact hi⟩
    rw [further, ← ih (by omega)]
    by_cases hin : (lineAt lines i).Inner
    · rw [if_neg (by simp [hin.opensComment, hin.closesComment])]
      rcases hin with hk | hk <;> simp [hk, Line.Inner]
    · simp only [hin, false_and, iff_false]
      split
      · simp
      · split
        · exact absurd (Or.inl ‹_›) hin
        · exact absurd (Or.inr ‹_›) hin
        · simp

theorem reachesClose_iff (lines : List Line) :
    reachesClose lines = true ↔
      ∃ stop, ClosedAt lines 0 stop ∧
        ∀ k, k < stop → (lineAt lines k).Inner ∨ (lineAt lines k).opensDoc = true := by
  induction lines with
  | nil => simp [reachesClose, not_closedAt_nil]
  | cons line below ih =>
    by_cases hc : line.closesComment = true
    · simp [reachesClose, hc, closedAt_cons_of_closesComment]
    rw [reachesClose, if_neg hc]
    simp only [closedAt_cons_iff line below _ (Bool.not_eq_true _ ▸ hc)]
    have further : (∃ stop, (∃ m, ClosedAt below 0 m ∧ stop = m + 1) ∧ ∀ k, k < stop →
        (lineAt (line :: below) k).Inner ∨ (lineAt (line :: below) k).opensDoc = true) ↔
        (line.Inner ∨ line.opensDoc = true) ∧ ∃ stop, ClosedAt below 0 stop ∧
          ∀ k, k < stop → (lineAt below k).Inner ∨ (lineAt below k).opensDoc = true := by
      constructor
      · rintro ⟨_, ⟨stop, h, rfl⟩, hin⟩
        exact ⟨hin 0 (Nat.succ_pos stop), stop, h, fun k hk => hin (k + 1) (by omega)⟩
      · rintro ⟨hline, stop, h, hin⟩
        refine ⟨stop + 1, ⟨stop, h, rfl⟩, ?_⟩
        intro k hk
        cases k with
        | zero => exact hline
        | succ k => exact hin k (by omega)
    rw [further, ← ih, ← Line.kind_eq_docOpen_iff, Line.Inner]
    cases line.kind <;> simp

/-- The line lies below an opener, with nothing but lines of the interior in between, or is an
opener. -/
structure UnderOpener (lines : List Line) (start index : Nat) : Prop where
  ordered : start ≤ index
  opens : (lineAt lines start).opensDoc = true
  inner : ∀ k, start < k → k < index → (lineAt lines k).Inner
  self : start < index →
    (lineAt lines index).Inner ∨ (lineAt lines index).kind = .commentClose

/-- The line lies above a closer, with nothing but lines of the interior and openers in
between. -/
structure AboveCloser (lines : List Line) (index stop : Nat) : Prop
    extends ClosedAt lines index stop where
  inner : ∀ k, index ≤ k → k < stop →
    (lineAt lines k).Inner ∨ (lineAt lines k).opensDoc = true

theorem underOpener_iff (lines : List Line) (index : Nat) (hi : index < lines.length) :
    underOpener (lineAt lines index) (lines.take index).reverse = true ↔
      ∃ start, UnderOpener lines start index := by
  by_cases hd : (lineAt lines index).opensDoc = true
  · have hk := (Line.kind_eq_docOpen_iff _).mpr hd
    simp only [underOpener, hk, true_iff]
    exact ⟨index, Nat.le_refl index, hd, by omega, by omega⟩
  have above : (∃ start, UnderOpener lines start index) ↔
      ((lineAt lines index).Inner ∨ (lineAt lines index).kind = .commentClose) ∧
        reachesOpener (lines.take index).reverse = true := by
    rw [reachesOpener_iff lines index (by omega)]
    constructor
    · rintro ⟨start, h⟩
      have hlt : start < index := by
        rcases Nat.lt_or_eq_of_le h.ordered with hlt | rfl
        · exact hlt
        · exact absurd h.opens hd
      exact ⟨h.self hlt, start, hlt, h.opens, h.inner⟩
    · rintro ⟨hs, start, hlt, ho, hin⟩
      exact ⟨start, Nat.le_of_lt hlt, ho, hin, fun _ => hs⟩
  have hk := fun h => hd ((Line.kind_eq_docOpen_iff (lineAt lines index)).mp h)
  rw [above, underOpener, Line.Inner]
  revert hk
  cases (lineAt lines index).kind <;> simp

theorem isInsideDocBlock_iff (lines : List Line) (index : Nat) (hi : index < lines.length) :
    isInsideDocBlock lines index = true ↔
      (∃ start, UnderOpener lines start index) ∧ ∃ stop, AboveCloser lines index stop := by
  have hbelow : reachesClose (lines.drop index) = true ↔ ∃ stop, AboveCloser lines index stop := by
    rw [reachesClose_iff]
    constructor
    · rintro ⟨m, hm, hin⟩
      refine ⟨index + m, (closedAt_drop lines index m).mp hm, ?_⟩
      intro k hk hks
      obtain ⟨j, rfl⟩ := Nat.exists_eq_add_of_le hk
      rw [← lineAt_drop]
      exact hin j (by omega)
    · rintro ⟨stop, h⟩
      obtain ⟨m, rfl⟩ := Nat.exists_eq_add_of_le h.ordered
      refine ⟨m, (closedAt_drop lines index m).mpr h.toClosedAt, ?_⟩
      intro k hk
      rw [lineAt_drop]
      exact h.inner (index + k) (by omega) (by omega)
  rw [isInsideDocBlock, lineAt_of_lt lines index hi, Bool.and_eq_true, hbelow,
    underOpener_iff lines index hi]

/-- The comments around a line are apart from its own. Documentation on one line above it is
followed by a further opener, and what opens below it comes after a closer. -/
structure Apart (lines : List Line) (index : Nat) : Prop where
  above : ∀ k, k < index → (lineAt lines k).opensDoc = true →
    (lineAt lines k).closesComment = true →
      ∃ o, k < o ∧ o ≤ index ∧ (lineAt lines o).opensDoc = true
  below : ∀ k, index < k → (lineAt lines k).opensComment = true →
    ∃ e, index ≤ e ∧ e < k ∧ (lineAt lines e).closesComment = true

theorem IsBlock.apart {lines : List Line} {start stop : Nat} (h : IsBlock lines start stop)
    (index : Nat) (hs : start ≤ index) (he : index ≤ stop) : Apart lines index := by
  constructor
  · intro k hk ho hc
    have hks : k < start := by
      rcases Nat.lt_or_ge k start with hlt | hge
      · exact hlt
      · exact absurd hc (by simp [h.noCloser k hge (by omega)])
    exact ⟨start, hks, hs, h.opens⟩
  · intro k hk ho
    have hsk : stop < k := by
      rcases Nat.lt_or_ge stop k with hlt | hge
      · exact hlt
      · exact absurd ho (by simp [h.noOpener k (by omega) hge])
    exact ⟨stop, he, hsk, h.closes⟩

theorem UnderOpener.noOpener {lines : List Line} {start index : Nat}
    (h : UnderOpener lines start index) (k : Nat) (hs : start < k) (hk : k ≤ index) :
    (lineAt lines k).opensComment = false := by
  rcases Nat.lt_or_eq_of_le hk with hlt | rfl
  · exact (h.inner k hs hlt).opensComment
  · rcases h.self hs with hin | hclose
    · exact hin.opensComment
    · exact Line.opensComment_of_kind _ (Or.inr (Or.inl hclose))

/-- The opener above a line and the closer below it delimit one block if nothing around the line
comes in between. -/
theorem isBlock_of_apart (lines : List Line) (start index stop : Nat)
    (ho : UnderOpener lines start index) (hc : ClosedAt lines index stop)
    (ha : Apart lines index) : IsBlock lines start stop := by
  have hordered := Nat.le_trans ho.ordered hc.ordered
  refine ⟨⟨hordered, ho.opens, ?_, ?_⟩, hc.closes⟩
  · intro k hs hk
    rcases Nat.lt_or_ge index k with hlt | hge
    · rw [← Bool.not_eq_true]
      intro hopen
      obtain ⟨e, hie, hek, hclose⟩ := ha.below k hlt hopen
      exact absurd hclose (by simp [hc.noCloser e hie (by omega)])
    · exact ho.noOpener k hs hge
  · intro k hs hk
    rcases Nat.lt_or_ge k index with hlt | hge
    · rcases Nat.lt_or_eq_of_le hs with hsk | rfl
      · exact (ho.inner k hsk hlt).closesComment
      · rw [← Bool.not_eq_true]
        intro hclose
        obtain ⟨o, hso, hoi, hopen⟩ := ha.above start hlt ho.opens hclose
        have hno := ho.noOpener o hso hoi
        rw [Line.opensComment_of_opensDoc _ hopen] at hno
        contradiction
    · exact hc.noCloser k hge hk

/-- A line that counts as documentation of a declaration lies in the block found above the
declaration if and only if the comments around the line are apart from its own. -/
theorem documented_block_holds_line_iff (lines : List Line) (index : Nat) (d : Declaration)
    (hi : isInsideDocBlock lines index = true)
    (hd : findDocumentedDeclaration lines index = some d) :
    (∃ b, findDocBlock lines d.index = .found b ∧ b.start ≤ index ∧ index ≤ b.stop) ↔
      Apart lines index := by
  obtain ⟨stop, hc, hs, ha⟩ := (findDocumentedDeclaration_eq_some_iff lines index d).mp hd
  have hstop := lt_of_closesComment lines stop hc.closes
  have hindex : index < lines.length := Nat.lt_of_le_of_lt hc.ordered hstop
  have hle : d.index ≤ lines.length := Nat.le_of_lt (declarationAt_lt lines d.index d ha)
  constructor
  · rintro ⟨b, hb, h1, h2⟩
    exact ((findDocBlock_eq_found_iff lines d.index b hle).mp hb).1.apart index h1 h2
  · intro hapart
    obtain ⟨⟨start, ho⟩, -⟩ := (isInsideDocBlock_iff lines index hindex).mp hi
    have hblock := isBlock_of_apart lines start index stop ho hc hapart
    let b : DocBlock := ⟨start, stop, Text.join ['\n'] (linesBetween lines start stop)⟩
    have hb : findDocBlock lines d.index = .found b :=
      (findDocBlock_eq_found_iff lines d.index b hle).mpr ⟨hblock, hs, rfl⟩
    exact ⟨b, hb, ho.ordered, hc.ordered⟩

def overviewThenBlock : List Line :=
  ["/** File overview. */".toList, "/**".toList, " * @description x".toList, " */".toList,
    "class Foo \x7b".toList]

theorem overview_then_block_holds_line :
    isInsideDocBlock overviewThenBlock 2 = true ∧
      findDocumentedDeclaration overviewThenBlock 2 = some ⟨4, .classLike⟩ ∧
      ((∃ b, findDocBlock overviewThenBlock 4 = .found b ∧ b.start ≤ 2 ∧ 2 ≤ b.stop) ↔
        Apart overviewThenBlock 2) := by
  have hi : isInsideDocBlock overviewThenBlock 2 = true := by decide +kernel
  have hd : findDocumentedDeclaration overviewThenBlock 2 = some ⟨4, .classLike⟩ := by
    decide +kernel
  exact ⟨hi, hd, documented_block_holds_line_iff overviewThenBlock 2 ⟨4, .classLike⟩ hi hd⟩

def overviewThenLine : List Line :=
  ["/** File overview. */".toList, [], "/** @description x */".toList, "class Foo \x7b".toList]

/-- The blank line counts as documentation, and the block found for its declaration is the one
below it. -/
theorem blank_between_blocks_not_held :
    isInsideDocBlock overviewThenLine 1 = true ∧
      findDocumentedDeclaration overviewThenLine 1 = some ⟨3, .classLike⟩ ∧
      ¬ ∃ b, findDocBlock overviewThenLine 3 = .found b ∧ b.start ≤ 1 ∧ 1 ≤ b.stop := by
  refine ⟨by decide +kernel, by decide +kernel, ?_⟩
  rintro ⟨b, hb, hs, -⟩
  have hfound : findDocBlock overviewThenLine 3 =
      .found ⟨2, 2, "/** @description x */".toList⟩ := by decide +kernel
  rw [hfound] at hb
  obtain rfl := BlockLookup.found.inj hb
  exact absurd hs (by decide)

theorem IsBlock.closedAt {lines : List Line} {start stop : Nat} (h : IsBlock lines start stop)
    (index : Nat) (hs : start ≤ index) (he : index ≤ stop) : ClosedAt lines index stop :=
  ⟨he, h.closes, fun k hk hks => h.noCloser k (Nat.le_trans hs hk) hks⟩

theorem IsBlock.isInsideDocBlock {lines : List Line} {start stop : Nat}
    (h : IsBlock lines start stop)
    (hm : ∀ k, start < k → k < stop → (lineAt lines k).Inner)
    (index : Nat) (hs : start ≤ index) (he : index ≤ stop) :
    isInsideDocBlock lines index = true := by
  have hstop := lt_of_closesComment lines stop h.closes
  have under : UnderOpener lines start index := by
    refine ⟨hs, h.opens, fun k hk hki => hm k hk (by omega), ?_⟩
    intro hlt
    rcases Nat.lt_or_eq_of_le he with hin | rfl
    · exact Or.inl (hm index hlt hin)
    · have hopen := h.noOpener index hlt (Nat.le_refl index)
      exact Or.inr (Line.kind_of_closesComment _ h.closes hopen)
  have above : AboveCloser lines index stop := by
    refine ⟨h.closedAt index hs he, ?_⟩
    intro k hk hks
    rcases Nat.lt_or_eq_of_le (Nat.le_trans hs hk) with hin | rfl
    · exact Or.inl (hm k hin hks)
    · exact Or.inr h.opens
  exact (isInsideDocBlock_iff lines index (by omega)).mpr ⟨⟨start, under⟩, stop, above⟩

/-- Each line of the block found above a declaration, delimiters included, resolves to that
declaration. -/
theorem resolve_of_mem_block (lines : List Line) (d : Declaration) (b : DocBlock) (index : Nat)
    (hd : declarationAt lines d.index = some d)
    (hb : findDocBlock lines d.index = .found b)
    (hm : ∀ k, b.start < k → k < b.stop →
      (lineAt lines k).kind = .commentInterior ∨ (lineAt lines k).kind = .blank)
    (hs : b.start ≤ index) (he : index ≤ b.stop) :
    isInsideDocBlock lines index = true ∧ resolve lines index = some d := by
  have hle : d.index ≤ lines.length := Nat.le_of_lt (declarationAt_lt lines d.index d hd)
  obtain ⟨hblock, habove, -⟩ := (findDocBlock_eq_found_iff lines d.index b hle).mp hb
  have hinside := hblock.isInsideDocBlock hm index hs he
  constructor
  · exact hinside
  · rw [resolve, if_pos hinside]
    exact (findDocumentedDeclaration_eq_some_iff lines index d).mpr
      ⟨b.stop, hblock.closedAt index hs he, habove, hd⟩

def decoratedClass : List Line :=
  ["/**".toList, " * @description x".toList, [], " */".toList, "@Injectable()".toList,
    "class Foo \x7b".toList]

theorem resolve_decorated_class :
    declarationAt decoratedClass 5 = some ⟨5, .classLike⟩ ∧
      findDocBlock decoratedClass 5 =
        .found ⟨0, 3, Text.join ['\n'] (decoratedClass.take 4)⟩ ∧
      isInsideDocBlock decoratedClass 2 = true ∧
      resolve decoratedClass 2 = some ⟨5, .classLike⟩ := by
  have hd : declarationAt decoratedClass 5 = some ⟨5, .classLike⟩ := by decide +kernel
  have hb : findDocBlock decoratedClass 5 =
      .found ⟨0, 3, Text.join ['\n'] (decoratedClass.take 4)⟩ := by decide +kernel
  have hm : ∀ k, 0 < k → k < 3 → (lineAt decoratedClass k).kind = .commentInterior ∨
      (lineAt decoratedClass k).kind = .blank := by
    intro k h0 h3
    obtain rfl | rfl : k = 1 ∨ k = 2 := by omega
    · decide +kernel
    · decide +kernel
  exact ⟨hd, hb, resolve_of_mem_block decoratedClass ⟨5, .classLike⟩
    ⟨0, 3, Text.join ['\n'] (decoratedClass.take 4)⟩ 2 hd hb hm (by decide) (by decide)⟩

end DocLint
