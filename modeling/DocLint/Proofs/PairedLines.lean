import DocLint.Proofs.EnclosingBlocks
import DocLint.Proofs.OpenParentheses

/-!
# Blocks of lines and the braces left open

What a block of lines does to the open braces around it depends on what is left of
its own braces. Lines whose braces are paired leave the stack of open braces as it
is, so the scope below them is the scope above.
-/

set_option autoImplicit false

namespace DocLint

section Brackets

variable (o c : Char)

theorem bracketsOf_append (a b : List Char) :
    bracketsOf o c (a ++ b) = bracketsOf o c a ++ bracketsOf o c b := by
  rw [bracketsOf, List.filterMap_append]
  rfl

theorem bracketsOf_eq_nil (text : List Char) (h : ∀ x ∈ text, x ≠ o ∧ x ≠ c) :
    bracketsOf o c text = [] := by
  rw [bracketsOf, List.filterMap_eq_nil_iff]
  intro x hx
  simp [h x hx]

theorem unclosed_of_append (h : c ≠ o) (front text : List Char)
    (hclosed : unclosed o c (front ++ text) = 0) : unclosed o c text = 0 := by
  induction front with
  | nil => exact hclosed
  | cons x front ih =>
    rw [List.cons_append, unclosed_cons_eq_zero_iff o c x _ h] at hclosed
    exact ih hclosed.1

end Brackets

theorem Paired.counts {text : List Char} (h : Paired [] text) :
    unclosed '(' ')' text = 0 ∧ unclosed '{' '}' text = 0 ∧ unopened '{' '}' text = 0 := by
  have hother (o c x : Char) (hx : x ≠ o ∧ x ≠ c) :
      bracketsOf o c (text ++ [x]) = bracketsOf o c text := by
    rw [bracketsOf_append, bracketsOf_eq_nil o c [x] (by simpa using hx), List.append_nil]
  have hbrace := h.neutral ['}'] (passed_nil.closer '}' (Or.inr rfl)).1
    (Or.inr (passed_nil.closer '}' (Or.inr rfl)).2)
  have hparen := h.neutral [')'] (passed_nil.closer ')' (Or.inl rfl)).1
    (Or.inr (passed_nil.closer ')' (Or.inl rfl)).2)
  have hparens := hbrace.passed.parens
  have hbraces := hparen.passed.braces
  have hopened := hparen.braces
  rw [unclosed, hother '(' ')' '}' (by decide)] at hparens
  rw [unclosed, hother '{' '}' ')' (by decide)] at hbraces
  rw [unopened, hother '{' '}' ')' (by decide)] at hopened
  exact ⟨hparens, hbraces, hopened⟩

/-- No line is inside a parenthesis if behind some brace no parenthesis is left open and the
brace is not closed. -/
theorem insideOpenParen_behind_brace (lines : List Line) (k : Nat) (before inner : List Char)
    (hcode : codeBefore lines k = before ++ '{' :: inner)
    (hparens : unclosed '(' ')' inner = 0) (hbraces : unopened '{' '}' inner = 0) :
    insideOpenParen lines k = false := by
  rw [← Bool.not_eq_true, insideOpenParen_iff]
  rintro ⟨before', inner', hcode', hopens⟩
  rw [hcode'] at hcode
  rcases List.append_eq_append_iff.mp hcode with ⟨part, -, hpart⟩ | ⟨part, -, hpart⟩
  · cases part with
    | nil => exact absurd (List.cons.inj hpart).1 (by decide)
    | cons x part =>
      have hclosed := hopens.1.braces
      rw [(List.cons.inj hpart).2] at hclosed
      have hbrace := unclosed_of_append '{' '}' (by decide) part _ hclosed
      have hpos := ((unclosed_cons_eq_zero_iff '{' '}' '{' inner (by decide)).mp hbrace).2 rfl
      omega
  · cases part with
    | nil => exact absurd (List.cons.inj hpart).1 (by decide)
    | cons x part =>
      rw [(List.cons.inj hpart).2] at hparens
      have hparen := unclosed_of_append '(' ')' (by decide) part _ hparens
      have hpos := ((unclosed_cons_eq_zero_iff '(' ')' '(' inner' (by decide)).mp hparen).2 rfl
      have hzero := hopens.2
      omega

def codeOf (block : List Line) : List Char := block.flatMap Line.codeChars

def leftoverOf (block : List Line) : Leftover := leftover (bracketsOf '{' '}' (codeOf block))

def BracesPaired (block : List Line) : Prop := leftoverOf block = ⟨0, []⟩

theorem leftoverOf_append (a b : List Line) :
    leftoverOf (a ++ b) = (leftoverOf a).join (leftoverOf b) := by
  rw [leftoverOf, codeOf, List.flatMap_append, bracketsOf_append, leftover_append]
  rfl

theorem leftoverOf_singleton (line : Line) :
    leftoverOf [line] = leftover (bracketsOf '{' '}' line.codeChars) := by
  simp [leftoverOf, codeOf]

theorem leftover_retag (bs : List (Nat × Brace)) :
    leftover (bs.map fun b => (0, b.2)) =
      ⟨(leftover bs).closings, (leftover bs).openings.map fun _ => 0⟩ := by
  induction bs using List.reverseRecOn with
  | nil => rfl
  | append_singleton bs b ih =>
    obtain ⟨l, brace⟩ := b
    rw [List.map_append, List.map_singleton, leftover_concat, leftover_concat, ih]
    cases brace with
    | opening => rfl
    | closing =>
      cases hopen : (leftover bs).openings <;> simp [Leftover.step, hopen]

section Layout

variable (above block below : List Line)

theorem lineAt_between : (List.range' above.length block.length).map
    (lineAt (above ++ (block ++ below))) = block := by
  apply List.ext_getElem
  · simp
  · intro k hk hk'
    have hlt : k < block.length := by simpa using hk'
    simp [lineAt, List.getD_eq_getElem?_getD, List.getElem?_append_right,
      List.getElem?_append_left hlt, hlt]

theorem bracketsOf_codeOf : bracketsOf '{' '}' (codeOf block) =
    block.flatMap fun line => line.braces.map fun b => (0, b) := by
  rw [bracketsOf, codeOf, List.filterMap_flatMap]
  congr 1
  funext line
  rw [Line.braces, List.map_filterMap]
  congr 1
  funext x
  rw [Brace.ofChar?]
  split_ifs <;> rfl

theorem bracesBetween_retag : (bracesBetween (above ++ (block ++ below)) above.length
      (above.length + block.length)).map (fun b => (0, b.2)) =
    bracketsOf '{' '}' (codeOf block) := by
  rw [bracesBetween, Nat.add_sub_cancel_left, List.map_flatMap, bracketsOf_codeOf]
  conv_rhs => rw [← lineAt_between above block below]
  rw [List.flatMap_map]
  congr 1
  funext k
  rw [bracesOn, List.map_map]
  rfl

theorem openLines_over : ∃ inner : List Nat,
    inner.length = (leftoverOf block).openings.length ∧
    (∀ l ∈ inner, above.length ≤ l ∧ l < above.length + block.length) ∧
    openLines (above ++ (block ++ below)) (above.length + block.length) =
      inner ++ (openLines (above ++ (block ++ below)) above.length).drop
        (leftoverOf block).closings := by
  have hleft := leftover_retag (bracesBetween (above ++ (block ++ below)) above.length
    (above.length + block.length))
  rw [bracesBetween_retag] at hleft
  refine ⟨(leftover (bracesBetween (above ++ (block ++ below)) above.length
    (above.length + block.length))).openings, ?_, ?_, ?_⟩
  · rw [leftoverOf, hleft, List.length_map]
  · intro l hl
    exact line_of_mem_bracesBetween _ _ _ (l, .opening) (mem_leftover_openings _ l hl)
  · rw [leftoverOf, hleft]
    exact openLines_append _ _ _ (Nat.le_add_right _ _)

theorem openLines_closed (n : Nat) (h : leftoverOf block = ⟨n, []⟩) :
    openLines (above ++ (block ++ below)) (above.length + block.length) =
      (openLines (above ++ (block ++ below)) above.length).drop n := by
  obtain ⟨inner, hlength, -, hopen⟩ := openLines_over above block below
  rw [h, List.length_nil, List.length_eq_zero_iff] at hlength
  rw [hopen, hlength, h, List.nil_append]

end Layout

theorem enclosingScope_eq_topLevel_iff (lines : List Line) (k : Nat) :
    enclosingScope lines k = .topLevel ↔ openLines lines k = [] := by
  rw [enclosingScope, enclosingOpen_eq]
  cases openLines lines k with
  | nil => simp
  | cons o outer =>
    simp only [List.head?_cons, reduceCtorEq, iff_false]
    split <;> simp

end DocLint
