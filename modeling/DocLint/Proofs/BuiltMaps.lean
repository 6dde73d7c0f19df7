import DocLint.Proofs.MarkedLines

/-!
# Maps built by operations

A map of changed lines is built from the empty one by marking ranges, inserting
lines, and uniting it with other maps that were built in this way. It marks the
pairs that its operations denote, so neither their order nor their repetition
matters.
-/

set_option autoImplicit false

namespace DocLint

namespace ChangedLines

/-- The maps that operations can make of the empty one. -/
inductive Built : ChangedLines → Prop
  | empty : Built empty
  | mark (c : ChangedLines) (hc : Built c) (file : String) (start stop : Nat) :
      Built (c.markRange file start stop)
  | insert (c d : ChangedLines) (hc : Built c) (file : String) (line : Nat)
      (hd : c.insert file line = .ok d) : Built d
  | union (c d : ChangedLines) (hc : Built c) (hd : Built d) : Built (c.union d)

inductive Operation
  | mark (file : String) (start stop : Nat)
  | insert (file : String) (line : Nat)
  | union (other : ChangedLines)

namespace Operation

def apply (c : ChangedLines) : Operation → Except LineOverflow ChangedLines
  | .mark file start stop => .ok (c.markRange file start stop)
  | .insert file line => c.insert file line
  | .union other => .ok (c.union other)

/-- Any range, a line with a successor, or a map that is built itself. -/
def Permitted : Operation → Prop
  | .mark _ _ _ => True
  | .insert _ line => line < lineBound - 1
  | .union other => Built other

def Denotes : Operation → String → Nat → Prop
  | .mark named start stop, file, n => file = named ∧ max start 1 ≤ n ∧ n < stop
  | .insert named line, file, n => file = named ∧ n = line ∧ 1 ≤ line
  | .union other, file, n => other.Has file n

end Operation

def applyAll (c : ChangedLines) : List Operation → Except LineOverflow ChangedLines
  | [] => .ok c
  | op :: ops =>
    match op.apply c with
    | .ok d => applyAll d ops
    | .error e => .error e

theorem insert_eq_ok (c : ChangedLines) (file : String) (line : Nat) (h : line < lineBound - 1) :
    c.insert file line = .ok (c.markRange file line (line + 1)) := by
  have hfits : line + 1 < lineBound := by omega
  rw [insert, if_pos hfits]

theorem eq_markRange_of_insert (c d : ChangedLines) (file : String) (line : Nat)
    (h : c.insert file line = .ok d) : d = c.markRange file line (line + 1) := by
  rw [insert] at h
  split at h
  · exact (Except.ok.inj h).symm
  · cases h

theorem wellFormed_of_built (c : ChangedLines) (h : Built c) : c.WellFormed := by
  induction h with
  | empty => exact wellFormed_empty
  | mark c _ file start stop ih => exact c.wellFormed_markRange file start stop ih
  | insert c d _ file line hd ih =>
    rw [eq_markRange_of_insert c d file line hd]
    exact c.wellFormed_markRange file line (line + 1) ih
  | union c d _ _ ihc ihd => exact c.wellFormed_union d ihc ihd

theorem apply_permitted (c : ChangedLines) (op : Operation) (hc : Built c) (hop : op.Permitted) :
    ∃ d, op.apply c = .ok d ∧ Built d ∧
      ∀ file n, d.Has file n ↔ c.Has file n ∨ op.Denotes file n := by
  cases op with
  | mark named start stop =>
    refine ⟨_, rfl, .mark c hc named start stop, ?_⟩
    intro file n
    rw [has_markRange, or_comm]
    rfl
  | insert named line =>
    have hinsert := c.insert_eq_ok named line hop
    refine ⟨_, hinsert, .insert c _ hc named line hinsert, ?_⟩
    intro file n
    have hrange : max line 1 ≤ n ∧ n < line + 1 ↔ n = line ∧ 1 ≤ line := by omega
    rw [has_markRange, hrange, or_comm]
    rfl
  | union other =>
    refine ⟨_, rfl, .union c other hc hop, ?_⟩
    intro file n
    rw [c.has_union other (wellFormed_of_built c hc) (wellFormed_of_built other hop)]
    rfl

theorem applyAll_permitted (c : ChangedLines) (ops : List Operation) (hc : Built c)
    (hops : ∀ op ∈ ops, op.Permitted) :
    ∃ d, applyAll c ops = .ok d ∧ Built d ∧
      ∀ file n, d.Has file n ↔ c.Has file n ∨ ∃ op ∈ ops, op.Denotes file n := by
  induction ops generalizing c with
  | nil => exact ⟨c, rfl, hc, by simp⟩
  | cons op ops ih =>
    obtain ⟨c', hstep, hbuilt, hhas⟩ := apply_permitted c op hc (hops op List.mem_cons_self)
    obtain ⟨d, hrest, hd, hhas'⟩ :=
      ih c' hbuilt fun other hother => hops other (List.mem_cons_of_mem op hother)
    refine ⟨d, ?_, hd, ?_⟩
    · rw [applyAll, hstep]
      exact hrest
    · intro file n
      rw [hhas', hhas]
      simp [or_assoc]

theorem applyAll_congr (ops ops' : List Operation) (hops : ∀ op ∈ ops, op.Permitted)
    (hops' : ∀ op ∈ ops', op.Permitted)
    (h : ∀ file n, (∃ op ∈ ops', op.Denotes file n) ↔ ∃ op ∈ ops, op.Denotes file n) :
    applyAll empty ops' = applyAll empty ops := by
  obtain ⟨c, hc, hbuilt, hhas⟩ := applyAll_permitted empty ops .empty hops
  obtain ⟨c', hc', hbuilt', hhas'⟩ := applyAll_permitted empty ops' .empty hops'
  rw [hc, hc']
  apply congrArg
  apply eq_of_has_iff c' c (wellFormed_of_built c' hbuilt') (wellFormed_of_built c hbuilt)
  intro file n
  rw [hhas, hhas', h]

theorem isEmpty_iff_totalLines (c : ChangedLines) (hc : c.WellFormed) :
    c.isEmpty = true ↔ c.totalLines = 0 := by
  rw [isEmpty, totalLines, List.isEmpty_iff, List.length_eq_zero_iff, List.flatMap_eq_nil_iff]
  constructor
  · intro hnone
    simp [hnone]
  · intro hnone
    apply List.eq_nil_iff_forall_not_mem.mpr
    intro e he
    exact (hc.2 e he).1 (hnone e he)

section Union

variable (c d e : ChangedLines) (hc : c.WellFormed) (hd : d.WellFormed) (he : e.WellFormed)
include hc

theorem union_self : c.union c = c := by
  apply eq_of_has_iff _ c (c.wellFormed_union c hc hc) hc
  intro file n
  rw [c.has_union c hc hc, or_self]

include hd

theorem union_comm : c.union d = d.union c := by
  apply eq_of_has_iff _ _ (c.wellFormed_union d hc hd) (d.wellFormed_union c hd hc)
  intro file n
  rw [c.has_union d hc hd, d.has_union c hd hc, or_comm]

include he

theorem union_assoc : (c.union d).union e = c.union (d.union e) := by
  have hcd := c.wellFormed_union d hc hd
  have hde := d.wellFormed_union e hd he
  apply eq_of_has_iff _ _ (wellFormed_union _ e hcd he) (c.wellFormed_union _ hc hde)
  intro file n
  rw [has_union _ e hcd he, c.has_union d hc hd, c.has_union _ hc hde, d.has_union e hd he,
    or_assoc]

end Union

/-- Operations build a map in which every file has a line and every line is at least one. It
marks exactly the pairs that they denote, and the same operations in another order or number
build the same map. -/
theorem operations_unite_marks (ops : List Operation) (hops : ∀ op ∈ ops, op.Permitted) :
    ∃ c, applyAll empty ops = .ok c ∧ Built c ∧
      (∀ file lines, c.linesFor file = some lines → lines ≠ [] ∧ ∀ n ∈ lines, 1 ≤ n) ∧
      (∀ file n, c.Has file n ↔ ∃ op ∈ ops, op.Denotes file n) ∧
      (c.isEmpty = true ↔ c.totalLines = 0) ∧
      (∀ ops', (∀ op, op ∈ ops' ↔ op ∈ ops) → applyAll empty ops' = .ok c) ∧
      c.union c = c ∧
      ∀ d, Built d → c.union d = d.union c ∧
        ∀ e, Built e → (c.union d).union e = c.union (d.union e) := by
  obtain ⟨c, hc, hbuilt, hhas⟩ := applyAll_permitted empty ops .empty hops
  have hwf := wellFormed_of_built c hbuilt
  refine ⟨c, hc, hbuilt, ?_, ?_, c.isEmpty_iff_totalLines hwf, ?_, c.union_self hwf, ?_⟩
  · intro file lines hlines
    obtain ⟨before, after, hfiles, -⟩ := List.lookup_eq_some_iff.mp hlines
    have hgood := hwf.2 (file, lines) (by simp [hfiles])
    exact ⟨hgood.1, hgood.2.2⟩
  · intro file n
    have hempty : ¬ empty.Has file n := has_nil file n
    rw [hhas, or_iff_right hempty]
  · intro ops' hsame
    rw [← hc]
    apply applyAll_congr ops ops' hops
    · intro op hop
      exact hops op ((hsame op).mp hop)
    · intro file n
      simp only [hsame]
  · intro d hd
    have hwfd := wellFormed_of_built d hd
    refine ⟨c.union_comm d hwf hwfd, ?_⟩
    intro e he
    exact c.union_assoc d e hwf hwfd (wellFormed_of_built e he)

/-- Ranges that are empty or reversed, line zero, and a line that is marked twice. -/
def sampleOperations : List Operation :=
  [.mark "a.ts" 5 5, .mark "c.ts" 9 3, .insert "a.ts" 0, .insert "b.ts" 7,
    .union (empty.markRange "b.ts" 7 9), .mark "a.ts" 0 3]

theorem sample_operations_build_map :
    (∀ op ∈ sampleOperations, op.Permitted) ∧
      ∃ c, applyAll empty sampleOperations = .ok c ∧
        c.files = [("a.ts", [1, 2]), ("b.ts", [7, 8])] ∧
        applyAll empty (sampleOperations ++ sampleOperations.reverse) = .ok c ∧
        (c.isEmpty = true ↔ c.totalLines = 0) := by
  have hinserted : 0 < lineBound - 1 ∧ 7 < lineBound - 1 := by decide
  have hops : ∀ op ∈ sampleOperations, op.Permitted := by
    simp only [sampleOperations, List.forall_mem_cons, List.not_mem_nil, false_implies,
      implies_true, and_true]
    exact ⟨trivial, trivial, hinserted.1, hinserted.2, .mark empty .empty "b.ts" 7 9, trivial⟩
  have hvalue : applyAll empty sampleOperations =
      .ok ⟨[("a.ts", [1, 2]), ("b.ts", [7, 8])]⟩ := by decide +kernel
  obtain ⟨c, hc, -, -, -, hempty, hsame, -⟩ := operations_unite_marks sampleOperations hops
  have hagain : applyAll empty (sampleOperations ++ sampleOperations.reverse) = .ok c := by
    apply hsame
    simp
  obtain rfl := Except.ok.inj (hc.symm.trans hvalue)
  exact ⟨hops, _, hc, rfl, hagain, hempty⟩

end ChangedLines

end DocLint
