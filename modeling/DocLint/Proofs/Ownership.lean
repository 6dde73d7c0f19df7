import DocLint.Linter

/-!
# The declarations that lines belong to

Whatever a search for the owner of a line returns is an accepted declaration of
the source, and an accepted declaration owns its own line. So the owners of
changed lines are declarations that a check of the whole source meets too.
-/

set_option autoImplicit false

namespace DocLint

theorem declarationAt_eq_some_iff (lines : List Line) (index : Nat) (d : Declaration) :
    declarationAt lines index = some d ↔
      ∃ line shape, lines[index]? = some line ∧ line.kind = .declaration shape ∧
        (enclosingScope lines index).accepts shape = true ∧
        insideOpenParen lines index = false ∧ d = ⟨index, shape.kind⟩ := by
  constructor
  · intro h
    unfold declarationAt at h
    split at h
    · contradiction
    · rename_i line hl
      split at h
      · rename_i shape hk
        split at h
        · rename_i ha
          rw [Bool.and_eq_true, Bool.not_eq_true'] at ha
          exact ⟨line, shape, hl, hk, ha.1, ha.2, (Option.some.inj h).symm⟩
        · contradiction
      · contradiction
  · rintro ⟨line, shape, hl, hk, ha, hp, rfl⟩
    simp [declarationAt, hl, hk, ha, hp]

theorem declarationAt_index (lines : List Line) (index : Nat) (d : Declaration)
    (h : declarationAt lines index = some d) : d.index = index := by
  obtain ⟨line, shape, hl, hk, ha, hp, rfl⟩ := (declarationAt_eq_some_iff lines index d).mp h
  rfl

theorem declarationAt_lt (lines : List Line) (index : Nat) (d : Declaration)
    (h : declarationAt lines index = some d) : index < lines.length := by
  obtain ⟨line, shape, hl, hk, ha, hp, rfl⟩ := (declarationAt_eq_some_iff lines index d).mp h
  exact (List.getElem?_eq_some_iff.mp hl).1

def Accepted (lines : List Line) (d : Declaration) : Prop := declarationAt lines d.index = some d

theorem accepted_of_declarationAt (lines : List Line) (index : Nat) (d : Declaration)
    (h : declarationAt lines index = some d) : Accepted lines d := by
  rw [Accepted, declarationAt_index lines index d h]
  exact h

theorem accepted_unique (lines : List Line) (d e : Declaration) (hd : Accepted lines d)
    (he : Accepted lines e) (h : d.index = e.index) : d = e := by
  rw [Accepted, h] at hd
  exact Option.some.inj (hd.symm.trans he)

theorem climb_accepted (lines : List Line) (count limit : Nat) (d : Declaration)
    (h : climb lines count limit = some d) : Accepted lines d := by
  fun_induction climb lines count limit with
  | case1 limit => contradiction
  | case2 index limit hle ih => exact ih h
  | case3 index limit hlt hk m hm ih => exact ih h
  | case4 index limit hlt hk hm => contradiction
  | case5 index limit hlt shape hk e he =>
    obtain rfl : e = d := Option.some.inj h
    exact accepted_of_declarationAt lines index e he
  | case6 index limit hlt shape hk he ih => exact ih h
  | case7 index limit hlt hk hs ih => exact ih h

theorem findDeclaration_cases (lines : List Line) (start : Nat) (d : Declaration)
    (h : findDeclaration lines start = some d) :
    declarationAt lines start = some d ∨ climb lines start start = some d := by
  unfold findDeclaration at h
  split at h
  · split at h
    · rename_i e he
      exact Or.inl (he.trans h)
    · exact Or.inr h
  · contradiction

theorem findDeclaration_accepted (lines : List Line) (start : Nat) (d : Declaration)
    (h : findDeclaration lines start = some d) : Accepted lines d := by
  rcases findDeclaration_cases lines start d h with hd | hd
  · exact accepted_of_declarationAt lines start d hd
  · exact climb_accepted lines start start d hd

theorem findDocumentedDeclaration_accepted (lines : List Line) (index : Nat) (d : Declaration)
    (h : findDocumentedDeclaration lines index = some d) : Accepted lines d := by
  unfold findDocumentedDeclaration at h
  split at h
  · contradiction
  · exact accepted_of_declarationAt lines _ d h

theorem resolve_accepted (lines : List Line) (index : Nat) (d : Declaration)
    (h : resolve lines index = some d) : Accepted lines d := by
  unfold resolve at h
  split at h
  · exact findDocumentedDeclaration_accepted lines index d h
  · exact findDeclaration_accepted lines index d h

theorem isInsideDocBlock_of_accepted (lines : List Line) (d : Declaration)
    (h : Accepted lines d) : isInsideDocBlock lines d.index = false := by
  obtain ⟨line, shape, hl, hk, -, -, -⟩ := (declarationAt_eq_some_iff lines d.index d).mp h
  simp [isInsideDocBlock, underOpener, hl, hk]

theorem resolve_of_accepted (lines : List Line) (d : Declaration) (h : Accepted lines d) :
    resolve lines d.index = some d := by
  have hlt := declarationAt_lt lines d.index d h
  rw [Accepted] at h
  simp [resolve, isInsideDocBlock_of_accepted lines d h, findDeclaration, hlt, h]

namespace LintPolicy

/-- Both ways of reading `owners`: the searches are split by the kind of line, and together they
are `resolve` on the lines that exist. -/
theorem mem_owners_iff (lines : List Line) (changed : List Nat) (d : Declaration) :
    d ∈ owners lines changed ↔
      ∃ n ∈ changed, 1 ≤ n ∧ n ≤ lines.length ∧ resolve lines (n - 1) = some d := by
  simp only [owners, List.partition_eq_filter_filter, List.mem_append, List.mem_filterMap,
    List.mem_filter, List.mem_map, Bool.and_eq_true, decide_eq_true_eq, Function.comp_apply]
  constructor
  · rintro (⟨i, ⟨⟨n, ⟨hn, h1, h2⟩, rfl⟩, hin⟩, hd⟩ | ⟨i, ⟨⟨n, ⟨hn, h1, h2⟩, rfl⟩, hout⟩, hd⟩)
    · exact ⟨n, hn, h1, h2, by rw [resolve, if_pos hin, hd]⟩
    · rw [Bool.not_eq_true'] at hout
      exact ⟨n, hn, h1, h2, by simpa [resolve, hout] using hd⟩
  · rintro ⟨n, hn, h1, h2, hd⟩
    rw [resolve] at hd
    split at hd
    · exact Or.inl ⟨n - 1, ⟨⟨n, ⟨hn, h1, h2⟩, rfl⟩, ‹_›⟩, hd⟩
    · exact Or.inr ⟨n - 1, ⟨⟨n, ⟨hn, h1, h2⟩, rfl⟩, by simp_all⟩, hd⟩

theorem owners_accepted (lines : List Line) (changed : List Nat) (d : Declaration)
    (h : d ∈ owners lines changed) : Accepted lines d := by
  obtain ⟨n, -, -, -, hd⟩ := (mem_owners_iff lines changed d).mp h
  exact resolve_accepted lines (n - 1) d hd

theorem mem_declarations_iff (lines : List Line) (d : Declaration) :
    d ∈ declarations lines ↔ Accepted lines d := by
  rw [declarations, List.mem_filterMap]
  constructor
  · rintro ⟨i, -, hi⟩
    exact accepted_of_declarationAt lines i d hi
  · intro h
    exact ⟨d.index, List.mem_range.mpr (declarationAt_lt lines d.index d h), h⟩

theorem mem_dropRepeats (ds : List Declaration) (d : Declaration) :
    d ∈ dropRepeats ds ↔ d ∈ ds := by
  fun_induction dropRepeats ds with
  | case1 e rest ih => simp [ih]
  | case2 d e rest hne ih => simp [ih]
  | case3 ds hds => rfl

theorem mem_inOrder (ds : List Declaration) (d : Declaration) : d ∈ inOrder ds ↔ d ∈ ds := by
  rw [inOrder, mem_dropRepeats, List.mem_mergeSort]

end LintPolicy

end DocLint
