import DocLint.Proofs.EnclosingBlocks

/-!
# Lines below a declaration

A source is compared with itself cut off below a line. Every search from that line
goes upward, so it finds in what is left what it finds in the whole. A validation
also reads the signature, which ends with the last of its lines at the latest. So
two sources that agree down to there have the same answers.
-/

set_option autoImplicit false

namespace DocLint

section Cut

variable (lines : List Line) (n : Nat)

theorem bracesBefore_take (k : Nat) (h : k ≤ n) :
    bracesBefore (lines.take n) k = bracesBefore lines k := by
  rw [bracesBefore, bracesBefore, List.take_take, Nat.min_eq_left h]

theorem codeBefore_take (k : Nat) (h : k ≤ n) :
    codeBefore (lines.take n) k = codeBefore lines k := by
  rw [codeBefore, codeBefore, List.take_take, Nat.min_eq_left h]

theorem enclosingOpen_take (k : Nat) (h : k ≤ n) :
    enclosingOpen (lines.take n) k = enclosingOpen lines k := by
  rw [enclosingOpen, enclosingOpen, bracesBefore_take lines n k h]

theorem insideOpenParen_take (k : Nat) (h : k ≤ n) :
    insideOpenParen (lines.take n) k = insideOpenParen lines k := by
  rw [insideOpenParen, insideOpenParen, codeBefore_take lines n k h]

theorem matchClose_take (c : Nat) (h : c < n) :
    matchClose (lines.take n) c = matchClose lines c := by
  rw [matchClose, matchClose, List.getElem?_take_of_lt h,
    bracesBefore_take lines n c (Nat.le_of_lt h)]

theorem enclosingOpen_lt (k openLine : Nat) (h : enclosingOpen lines k = some openLine) :
    openLine < k := by
  rw [enclosingOpen_eq] at h
  exact lt_of_mem_openLines lines k openLine (List.mem_of_head? h)

theorem blockHeader_take (openLine : Nat) (h : openLine < n) :
    blockHeader (lines.take n) openLine = blockHeader lines openLine := by
  rw [blockHeader, blockHeader, List.getElem?_take_of_lt h, List.take_take,
    Nat.min_eq_left (Nat.le_of_lt h)]

theorem enclosingScope_take (k : Nat) (h : k ≤ n) :
    enclosingScope (lines.take n) k = enclosingScope lines k := by
  rw [enclosingScope, enclosingScope, enclosingOpen_take lines n k h]
  cases hopen : enclosingOpen lines k with
  | none => rfl
  | some openLine =>
    have hlt := enclosingOpen_lt lines k openLine hopen
    simp only [blockHeader_take lines n openLine (Nat.lt_of_lt_of_le hlt h)]

theorem declarationAt_take (k : Nat) (h : k < n) :
    declarationAt (lines.take n) k = declarationAt lines k := by
  rw [declarationAt, declarationAt, List.getElem?_take_of_lt h,
    enclosingScope_take lines n k (Nat.le_of_lt h),
    insideOpenParen_take lines n k (Nat.le_of_lt h)]

theorem climb_take (count limit : Nat) (h : count ≤ n) :
    climb (lines.take n) count limit = climb lines count limit := by
  induction count generalizing limit with
  | zero => rfl
  | succ index ih =>
    have hlt : index < n := h
    rw [climb, climb, List.getElem?_take_of_lt hlt, matchClose_take lines n index hlt,
      declarationAt_take lines n index hlt]
    simp only [ih _ (Nat.le_of_lt hlt)]

theorem findDeclaration_take (k : Nat) (h : k < n) :
    findDeclaration (lines.take n) k = findDeclaration lines k := by
  have hlength : k < (lines.take n).length ↔ k < lines.length := by
    rw [List.length_take]
    omega
  rw [findDeclaration, findDeclaration, declarationAt_take lines n k h,
    climb_take lines n k k (Nat.le_of_lt h)]
  simp only [hlength]

theorem findDocBlock_take (k : Nat) (h : k ≤ n) :
    findDocBlock (lines.take n) k = findDocBlock lines k := by
  rw [findDocBlock, findDocBlock, List.take_take, Nat.min_eq_left h]

theorem Signature.ofLines_take (k : Nat) (h : k + maxLines ≤ n) :
    ofLines (lines.take n) k = ofLines lines k := by
  have hrows : ((lines.take n).drop k).take maxLines = (lines.drop k).take maxLines := by
    rw [List.drop_take, List.take_take, Nat.min_eq_left (Nat.le_sub_of_add_le' h)]
  rw [ofLines, ofLines, hrows]

theorem Settings.validate_take (settings : Settings) (d : Declaration)
    (h : d.index + Signature.maxLines ≤ n) :
    settings.validate (lines.take n) d = settings.validate lines d := by
  have habove : d.index ≤ n := Nat.le_trans (Nat.le_add_right _ _) h
  rw [validate, validate, findDocBlock_take lines n d.index habove,
    Signature.ofLines_take lines n d.index h]

end Cut

theorem take_eq_of_agree (a b : List Line) (n : Nat) (h : ∀ k, k < n → a[k]? = b[k]?) :
    a.take n = b.take n := by
  apply List.ext_getElem?
  intro k
  rcases Nat.lt_or_ge k n with hlt | hge
  · rw [List.getElem?_take_of_lt hlt, List.getElem?_take_of_lt hlt, h k hlt]
  · rw [List.getElem?_take_eq_none hge, List.getElem?_take_eq_none hge]

/-- In two sources that agree down to a line, that line is the same declaration, belongs to the
same declaration and has the same documentation above it. If they also agree on the nineteen lines
below, a declaration on that line has the same findings in both. -/
theorem findings_ignore_lines_below (a b : List Line) (i : Nat)
    (h : ∀ k, k ≤ i → a[k]? = b[k]?) :
    declarationAt a i = declarationAt b i ∧ findDeclaration a i = findDeclaration b i ∧
    findDocBlock a i = findDocBlock b i ∧
    ((∀ k, i + 1 ≤ k → k ≤ i + 19 → a[k]? = b[k]?) →
      ∀ (settings : Settings) (d : Declaration), d.index = i →
        settings.validate a d = settings.validate b d) := by
  have hcut : a.take (i + 1) = b.take (i + 1) :=
    take_eq_of_agree a b (i + 1) fun k hk => h k (Nat.le_of_lt_succ hk)
  have hlt : i < i + 1 := Nat.lt_succ_self i
  refine ⟨?_, ?_, ?_, ?_⟩
  · rw [← declarationAt_take a (i + 1) i hlt, hcut, declarationAt_take b (i + 1) i hlt]
  · rw [← findDeclaration_take a (i + 1) i hlt, hcut, findDeclaration_take b (i + 1) i hlt]
  · rw [← findDocBlock_take a (i + 1) i (Nat.le_of_lt hlt), hcut,
      findDocBlock_take b (i + 1) i (Nat.le_of_lt hlt)]
  · rintro hbelow settings d rfl
    have hlonger :
        a.take (d.index + Signature.maxLines) = b.take (d.index + Signature.maxLines) := by
      apply take_eq_of_agree
      intro k hk
      rw [Signature.maxLines] at hk
      rcases Nat.lt_or_ge d.index k with hgt | hle
      · exact hbelow k hgt (by omega)
      · exact h k hle
    rw [← settings.validate_take a _ d (Nat.le_refl _), hlonger,
      settings.validate_take b _ d (Nat.le_refl _)]

/-- A function whose parameters run over more lines than are followed. -/
def longParameterList (last : String) : List Line :=
  ["/** Adds up. */", "function total("].map String.toList ++
    (List.replicate 19 "  item,".toList ++ [last.toList])

theorem late_return_type_not_read :
    let typed := longParameterList "): number \x7b"
    let untyped := longParameterList ") \x7b"
    (∀ k, k ≤ 20 → typed[k]? = untyped[k]?) ∧ typed[21]? ≠ untyped[21]? ∧
    declarationAt typed 1 = some ⟨1, .function⟩ ∧ declarationAt typed 1 = declarationAt untyped 1 ∧
    ∀ settings : Settings,
      settings.validate typed ⟨1, .function⟩ = settings.validate untyped ⟨1, .function⟩ := by
  intro typed untyped
  have hagree : ∀ k, k ≤ 20 → typed[k]? = untyped[k]? := by decide
  have hsame := findings_ignore_lines_below typed untyped 1 fun k hk => hagree k (by omega)
  refine ⟨hagree, by decide, by decide, hsame.1, ?_⟩
  intro settings
  exact hsame.2.2.2 (fun k _ hk => hagree k hk) settings ⟨1, .function⟩ rfl

end DocLint
