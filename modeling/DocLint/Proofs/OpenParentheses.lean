import DocLint.Proofs.BraceMatching
import DocLint.Proofs.Ownership
import DocLint.Proofs.TextLines

/-!
# Lines inside an open parenthesis

The upward search for an open parenthesis counts parentheses and braces apart
from each other. It passes over a text that opens nothing for what stands below
it, and it ends at a parenthesis behind which all parentheses are paired. The
lines between the parentheses of a signature are found that way, so none of
them is a declaration.
-/

set_option autoImplicit false

namespace DocLint

def bracketsOf (o c : Char) (text : List Char) : List (Nat × Brace) :=
  text.filterMap fun x =>
    if x == o then some (0, .opening) else if x == c then some (0, .closing) else none

/-- The opening brackets of one kind that nothing closes in the text. -/
def unclosed (o c : Char) (text : List Char) : Nat :=
  (leftover (bracketsOf o c text)).openings.length

/-- The closing brackets of one kind that close nothing in the text. -/
def unopened (o c : Char) (text : List Char) : Nat := (leftover (bracketsOf o c text)).closings

section Counting

variable (o c : Char) (text : List Char)

theorem leftover_cons (b : Nat × Brace) (bs : List (Nat × Brace)) :
    leftover (b :: bs) = (leftover [b]).join (leftover bs) :=
  leftover_append [b] bs

theorem unclosed_open : unclosed o c (o :: text) = unclosed o c text + (1 - unopened o c text) := by
  have hb : bracketsOf o c (o :: text) = (0, .opening) :: bracketsOf o c text := by
    simp [bracketsOf]
  rw [unclosed, hb, leftover_cons]
  simp [Leftover.join, leftover, Leftover.step, unclosed, unopened]

theorem unopened_open : unopened o c (o :: text) = unopened o c text - 1 := by
  have hb : bracketsOf o c (o :: text) = (0, .opening) :: bracketsOf o c text := by
    simp [bracketsOf]
  rw [unopened, hb, leftover_cons]
  simp [Leftover.join, leftover, Leftover.step, unopened]

theorem bracketsOf_close (h : c ≠ o) :
    bracketsOf o c (c :: text) = (0, .closing) :: bracketsOf o c text := by
  simp [bracketsOf, h]

theorem unclosed_close (h : c ≠ o) : unclosed o c (c :: text) = unclosed o c text := by
  rw [unclosed, bracketsOf_close o c text h, leftover_cons]
  simp [Leftover.join, leftover, Leftover.step, unclosed]

theorem unopened_close (h : c ≠ o) : unopened o c (c :: text) = unopened o c text + 1 := by
  rw [unopened, bracketsOf_close o c text h, leftover_cons]
  simp [Leftover.join, leftover, Leftover.step, unopened, Nat.add_comm]

theorem bracketsOf_other (x : Char) (ho : x ≠ o) (hc : x ≠ c) :
    bracketsOf o c (x :: text) = bracketsOf o c text := by
  simp [bracketsOf, ho, hc]

theorem unclosed_other (x : Char) (ho : x ≠ o) (hc : x ≠ c) :
    unclosed o c (x :: text) = unclosed o c text := by
  rw [unclosed, bracketsOf_other o c text x ho hc, ← unclosed]

theorem unopened_other (x : Char) (ho : x ≠ o) (hc : x ≠ c) :
    unopened o c (x :: text) = unopened o c text := by
  rw [unopened, bracketsOf_other o c text x ho hc, ← unopened]

theorem unopened_add_count (h : c ≠ o) :
    unopened o c text + text.count o = unclosed o c text + text.count c := by
  induction text with
  | nil => rfl
  | cons x text ih =>
    by_cases ho : x = o
    · subst ho
      rw [unopened_open, unclosed_open, List.count_cons_self, List.count_cons_of_ne h.symm]
      omega
    by_cases hc : x = c
    · subst hc
      rw [unopened_close o x text h, unclosed_close o x text h, List.count_cons_self,
        List.count_cons_of_ne h]
      omega
    · rw [unopened_other o c text x ho hc, unclosed_other o c text x ho hc,
        List.count_cons_of_ne ho, List.count_cons_of_ne hc]
      exact ih

end Counting

theorem unclosed_cons_eq_zero_iff (o c x : Char) (text : List Char) (h : c ≠ o) :
    unclosed o c (x :: text) = 0 ↔ unclosed o c text = 0 ∧ (x = o → 0 < unopened o c text) := by
  by_cases ho : x = o
  · subst ho
    rw [unclosed_open]
    simp only [forall_const]
    omega
  by_cases hc : x = c
  · subst hc
    simp [unclosed_close o x text h, ho]
  · simp [unclosed_other o c text x ho hc, ho]

theorem unopened_pos_iff (o c : Char) (text : List Char) (h : c ≠ o)
    (hclosed : unclosed o c text = 0) :
    0 < unopened o c text ↔ text.count o < text.count c := by
  have := unopened_add_count o c text h
  omega

/-- Behind the place, more brackets of a kind are closed than opened. -/
def ClosesMore (rest : List Char) : Prop :=
  rest.count '(' < rest.count ')' ∨ rest.count '{' < rest.count '}'

/-- An upward search gets over the text: it leaves nothing open, and each semicolon of it is
inside of brackets that are closed below. -/
structure Passed (text : List Char) : Prop where
  parens : unclosed '(' ')' text = 0
  braces : unclosed '{' '}' text = 0
  semicolons : ∀ front rest, text = front ++ ';' :: rest → ClosesMore rest

theorem passed_nil : Passed [] := ⟨rfl, rfl, by simp⟩

theorem Passed.closesMore_iff {text : List Char} (h : Passed text) :
    ClosesMore text ↔ 0 < unopened '(' ')' text ∨ 0 < unopened '{' '}' text := by
  rw [ClosesMore, unopened_pos_iff '(' ')' text (by decide) h.parens,
    unopened_pos_iff '{' '}' text (by decide) h.braces]

theorem forall_split_cons (x : Char) (text : List Char) (p : List Char → Prop) :
    (∀ front rest, x :: text = front ++ ';' :: rest → p rest) ↔
      (x = ';' → p text) ∧ ∀ front rest, text = front ++ ';' :: rest → p rest := by
  constructor
  · intro h
    exact ⟨fun hx => h [] text (by rw [hx]; rfl),
      fun front rest ht => h (x :: front) rest (by rw [ht]; rfl)⟩
  · intro h front rest ht
    cases front with
    | nil =>
      obtain ⟨hx, hrest⟩ := List.cons.inj ht
      exact hrest ▸ h.1 hx
    | cons y front => exact h.2 front rest (List.cons.inj ht).2

theorem passed_cons_iff (x : Char) (text : List Char) :
    Passed (x :: text) ↔ Passed text ∧ (x = '(' → 0 < unopened '(' ')' text) ∧
      (x = '{' → 0 < unopened '{' '}' text) ∧ (x = ';' → ClosesMore text) := by
  constructor
  · intro h
    have hparens := (unclosed_cons_eq_zero_iff '(' ')' x text (by decide)).mp h.parens
    have hbraces := (unclosed_cons_eq_zero_iff '{' '}' x text (by decide)).mp h.braces
    have hsemi := (forall_split_cons x text ClosesMore).mp h.semicolons
    exact ⟨⟨hparens.1, hbraces.1, hsemi.2⟩, hparens.2, hbraces.2, hsemi.1⟩
  · intro ⟨h, hparen, hbrace, hsemi⟩
    exact ⟨(unclosed_cons_eq_zero_iff '(' ')' x text (by decide)).mpr ⟨h.parens, hparen⟩,
      (unclosed_cons_eq_zero_iff '{' '}' x text (by decide)).mpr ⟨h.braces, hbrace⟩,
      (forall_split_cons x text ClosesMore).mpr ⟨hsemi, h.semicolons⟩⟩

theorem passed_of_append (above text : List Char) (h : Passed (above ++ text)) : Passed text := by
  induction above with
  | nil => exact h
  | cons x above ih => exact ih ((passed_cons_iff x _).mp h).1

def searchAbove (text above : List Char) : Bool :=
  findOpenParen (unopened '(' ')' text) (unopened '{' '}' text) above

theorem searchAbove_cons (text above : List Char) (x : Char) (h : Passed (x :: text)) :
    searchAbove text (x :: above) = searchAbove (x :: text) above := by
  obtain ⟨hp, hparen, hbrace, hsemi⟩ := (passed_cons_iff x text).mp h
  by_cases h1 : x = ')'
  · subst h1
    rw [searchAbove, searchAbove, unopened_close '(' ')' text (by decide),
      unopened_other '{' '}' text ')' (by decide) (by decide)]
    rfl
  by_cases h2 : x = '('
  · subst h2
    obtain ⟨n, hn⟩ := Nat.exists_eq_add_one_of_ne_zero (Nat.ne_of_gt (hparen rfl))
    rw [searchAbove, searchAbove, unopened_open, hn,
      unopened_other '{' '}' text '(' (by decide) (by decide)]
    rfl
  by_cases h3 : x = '}'
  · subst h3
    rw [searchAbove, searchAbove, unopened_close '{' '}' text (by decide),
      unopened_other '(' ')' text '}' (by decide) (by decide)]
    rfl
  by_cases h4 : x = '{'
  · subst h4
    obtain ⟨n, hn⟩ := Nat.exists_eq_add_one_of_ne_zero (Nat.ne_of_gt (hbrace rfl))
    rw [searchAbove, searchAbove, unopened_open, hn,
      unopened_other '(' ')' text '{' (by decide) (by decide)]
    rfl
  have hstop : x = ';' → ¬ (unopened '(' ')' text = 0 ∧ unopened '{' '}' text = 0) := by
    intro hx
    have := hp.closesMore_iff.mp (hsemi hx)
    omega
  rw [searchAbove, searchAbove, unopened_other '(' ')' text x h2 h1,
    unopened_other '{' '}' text x h4 h3]
  by_cases h5 : x = ';'
  · have hopen := hstop h5
    subst h5
    simp [findOpenParen]
    omega
  · simp [findOpenParen, h1, h2, h3, h4, h5]

/-- The search ends at a character that it does not get over. It has found what it looks for if
the character is a parenthesis. -/
theorem searchAbove_stops (text above : List Char) (x : Char) (hp : Passed text)
    (h : ¬ Passed (x :: text)) : searchAbove text (x :: above) = (x == '(') := by
  rw [passed_cons_iff] at h
  by_cases h1 : x = '('
  · have hzero : unopened '(' ')' text = 0 := by
      by_contra hne
      exact h ⟨hp, fun _ => by omega, by simp [h1], by simp [h1]⟩
    rw [searchAbove, hzero, h1]
    rfl
  by_cases h2 : x = '{'
  · have hzero : unopened '{' '}' text = 0 := by
      by_contra hne
      exact h ⟨hp, by simp [h2], fun _ => by omega, by simp [h2]⟩
    rw [searchAbove, hzero, h2]
    rfl
  by_cases h3 : x = ';'
  · have hless : ¬ ClosesMore text := by
      intro hmore
      exact h ⟨hp, by simp [h3], by simp [h3], fun _ => hmore⟩
    rw [hp.closesMore_iff, not_or, Nat.pos_iff_ne_zero, Nat.pos_iff_ne_zero, not_not, not_not]
      at hless
    rw [searchAbove, hless.1, hless.2, h3]
    rfl
  · exact absurd ⟨hp, fun hx => absurd hx h1, fun hx => absurd hx h2, fun hx => absurd hx h3⟩ h

/-- An open parenthesis: what stands behind it is passed, and all parentheses there are paired. -/
def Opens (text : List Char) : Prop := Passed text ∧ unopened '(' ')' text = 0

theorem searchAbove_reverse (text above : List Char) (hp : Passed text) :
    searchAbove text above.reverse = true ↔
      ∃ before part, above = before ++ '(' :: part ∧ Opens (part ++ text) := by
  induction above using List.reverseRecOn generalizing text with
  | nil => simp [searchAbove, findOpenParen]
  | append_singleton above x ih =>
    have hsplit := exists_split_concat above x fun y part => y = '(' ∧ Opens (part ++ text)
    simp only [and_left_comm (b := _ = '('), exists_and_left, exists_eq_left, List.nil_append,
      List.append_assoc, List.singleton_append] at hsplit
    rw [hsplit, List.reverse_append, List.reverse_singleton, List.singleton_append]
    by_cases h : Passed (x :: text)
    · have hnot : ¬ (x = '(' ∧ Opens text) := by
        intro ⟨hx, hopens⟩
        have := ((passed_cons_iff x text).mp h).2.1 hx
        have := hopens.2
        omega
      rw [searchAbove_cons text _ x h, ih (x :: text) h, or_iff_right hnot]
    · have hnone : ¬ ∃ before part, above = before ++ '(' :: part ∧ Opens (part ++ x :: text) := by
        intro ⟨before, part, _, hopens⟩
        exact h (passed_of_append part (x :: text) hopens.1)
      rw [searchAbove_stops text _ x hp h, beq_iff_eq, or_iff_left hnone, iff_self_and]
      intro hx
      refine ⟨hp, ?_⟩
      by_contra hne
      apply h
      rw [passed_cons_iff]
      exact ⟨hp, fun _ => Nat.pos_of_ne_zero hne, by simp [hx], by simp [hx]⟩

theorem insideOpenParen_iff (lines : List Line) (k : Nat) :
    insideOpenParen lines k = true ↔
      ∃ before inner, codeBefore lines k = before ++ '(' :: inner ∧ Opens inner := by
  have h := searchAbove_reverse [] (codeBefore lines k) passed_nil
  simp only [List.append_nil] at h
  exact h

def groupPairs : List (Char × Char) := [('(', ')'), ('{', '}')]

def groupChars : List Char := ['(', ')', '{', '}']

/-- Parentheses and braces are properly nested in the text, and none of the characters `out`
stands outside of them. -/
inductive Paired : List Char → List Char → Prop
  | nil (out : List Char) : Paired out []
  | char (out rest : List Char) (x : Char) (hx : x ∉ groupChars) (hout : x ∉ out)
      (hrest : Paired out rest) : Paired out (x :: rest)
  | group (out inner rest : List Char) (o c : Char) (hpair : (o, c) ∈ groupPairs)
      (hinner : Paired [] inner) (hrest : Paired out rest) :
      Paired out (o :: (inner ++ c :: rest))

theorem Paired.text_append (out text rest : List Char)
    (h : text.all (fun x => !groupChars.contains x && !out.contains x) = true)
    (hrest : Paired out rest) : Paired out (text ++ rest) := by
  induction text with
  | nil => exact hrest
  | cons x text ih =>
    rw [List.all_cons, Bool.and_eq_true, Bool.and_eq_true] at h
    apply Paired.char
    · simpa using h.1.1
    · simpa using h.1.2
    · exact ih h.2

/-- What stands in front of a text opens and closes nothing for it. -/
structure Neutral (front text : List Char) : Prop where
  passed : Passed (front ++ text)
  parens : unopened '(' ')' (front ++ text) = unopened '(' ')' text
  braces : unopened '{' '}' (front ++ text) = unopened '{' '}' text

theorem Passed.closer {text : List Char} (hp : Passed text) (c : Char) (hc : c = ')' ∨ c = '}') :
    Passed (c :: text) ∧ ClosesMore (c :: text) := by
  have hpassed : Passed (c :: text) := by
    rw [passed_cons_iff]
    rcases hc with rfl | rfl <;> simp [hp]
  refine ⟨hpassed, ?_⟩
  rw [hpassed.closesMore_iff]
  rcases hc with rfl | rfl
  · left
    rw [unopened_close '(' ')' text (by decide)]
    omega
  · right
    rw [unopened_close '{' '}' text (by decide)]
    omega

theorem Neutral.group {inner text : List Char} (o c : Char)
    (hpair : (o, c) ∈ groupPairs) (h : Neutral inner (c :: text)) :
    Neutral (o :: (inner ++ [c])) text := by
  have hassoc : o :: (inner ++ [c]) ++ text = o :: (inner ++ c :: text) := by simp
  obtain ⟨hpassed, hparens, hbraces⟩ := h
  have hcases : (o = '(' ∧ c = ')') ∨ (o = '{' ∧ c = '}') := by simpa [groupPairs] using hpair
  rcases hcases with ⟨rfl, rfl⟩ | ⟨rfl, rfl⟩
  · rw [unopened_close '(' ')' text (by decide)] at hparens
    rw [unopened_other '{' '}' text ')' (by decide) (by decide)] at hbraces
    refine ⟨?_, ?_, ?_⟩
    · rw [hassoc, passed_cons_iff]
      exact ⟨hpassed, fun _ => by omega, by simp, by simp⟩
    · rw [hassoc, unopened_open, hparens]
      rfl
    · rw [hassoc, unopened_other '{' '}' _ '(' (by decide) (by decide), hbraces]
  · rw [unopened_close '{' '}' text (by decide)] at hbraces
    rw [unopened_other '(' ')' text '}' (by decide) (by decide)] at hparens
    refine ⟨?_, ?_, ?_⟩
    · rw [hassoc, passed_cons_iff]
      exact ⟨hpassed, by simp, fun _ => by omega, by simp⟩
    · rw [hassoc, unopened_other '(' ')' _ '{' (by decide) (by decide), hparens]
    · rw [hassoc, unopened_open, hbraces]
      rfl

theorem Paired.neutral {out front : List Char} (h : Paired out front) (text : List Char)
    (hp : Passed text) (hsemi : ';' ∈ out ∨ ClosesMore text) : Neutral front text := by
  induction h generalizing text with
  | nil out => exact ⟨hp, rfl, rfl⟩
  | char out rest x hx hout hrest ih =>
    obtain ⟨hpassed, hparens, hbraces⟩ := ih text hp hsemi
    simp only [groupChars, List.mem_cons, List.not_mem_nil, or_false, not_or] at hx
    obtain ⟨h1, h2, h3, h4⟩ := hx
    have hstop : x = ';' → ClosesMore (rest ++ text) := by
      intro hx
      have hmore : ClosesMore text := by
        rcases hsemi with hmem | hmore
        · exact absurd (hx ▸ hmem) hout
        · exact hmore
      rw [hp.closesMore_iff] at hmore
      rw [hpassed.closesMore_iff, hparens, hbraces]
      exact hmore
    refine ⟨?_, ?_, ?_⟩
    · rw [List.cons_append, passed_cons_iff]
      exact ⟨hpassed, fun hx => absurd hx h1, fun hx => absurd hx h3, hstop⟩
    · rw [List.cons_append, unopened_other '(' ')' _ x h1 h2, hparens]
    · rw [List.cons_append, unopened_other '{' '}' _ x h3 h4, hbraces]
  | group out inner rest o c hpair hinner hrest ihinner ih =>
    have hrest := ih text hp hsemi
    have hc : c = ')' ∨ c = '}' := by
      have hcases : (o = '(' ∧ c = ')') ∨ (o = '{' ∧ c = '}') := by simpa [groupPairs] using hpair
      exact hcases.imp And.right And.right
    obtain ⟨hcloser, hmore⟩ := hrest.passed.closer c hc
    have hgroup := (ihinner (c :: (rest ++ text)) hcloser (Or.inr hmore)).group o c hpair
    have hassoc : o :: (inner ++ c :: rest) ++ text = o :: (inner ++ [c]) ++ (rest ++ text) := by
      simp
    refine ⟨?_, ?_, ?_⟩
    · rw [hassoc]
      exact hgroup.passed
    · rw [hassoc, hgroup.parens, hrest.parens]
    · rw [hassoc, hgroup.braces, hrest.braces]

theorem Paired.opens {inner : List Char} (h : Paired [';'] inner) : Opens inner := by
  have hneutral := h.neutral [] passed_nil (Or.inl List.mem_cons_self)
  have hpassed := hneutral.passed
  have hparens := hneutral.parens
  rw [List.append_nil] at hpassed hparens
  exact ⟨hpassed, hparens⟩

theorem declarationAt_of_insideOpenParen (lines : List Line) (k : Nat)
    (h : insideOpenParen lines k = true) : declarationAt lines k = none := by
  rw [Option.eq_none_iff_forall_ne_some]
  intro d hd
  obtain ⟨line, shape, -, -, -, houtside, -⟩ := (declarationAt_eq_some_iff lines k d).mp hd
  rw [h] at houtside
  contradiction

/-- A line starts inside an open parenthesis if and only if some parenthesis above it is open in
this sense: behind it all parentheses are paired, no brace is left open, and each semicolon has
more brackets of a kind closed than opened behind it. So no line is a declaration that has a
parenthesis above it with a properly nested text behind, whose semicolons are all in brackets. -/
theorem open_parenthesis_found_iff (lines : List Line) (k : Nat) :
    (insideOpenParen lines k = true ↔
      ∃ before inner, codeBefore lines k = before ++ '(' :: inner ∧
        unclosed '(' ')' inner = 0 ∧ unopened '(' ')' inner = 0 ∧ unclosed '{' '}' inner = 0 ∧
        ∀ front rest, inner = front ++ ';' :: rest →
          rest.count '(' < rest.count ')' ∨ rest.count '{' < rest.count '}') ∧
    ∀ before inner, codeBefore lines k = before ++ '(' :: inner → Paired [';'] inner →
      declarationAt lines k = none := by
  constructor
  · rw [insideOpenParen_iff]
    constructor
    · intro ⟨before, inner, hcode, hpassed, hpaired⟩
      exact ⟨before, inner, hcode, hpassed.parens, hpaired, hpassed.braces, hpassed.semicolons⟩
    · intro ⟨before, inner, hcode, hparens, hpaired, hbraces, hsemi⟩
      exact ⟨before, inner, hcode, ⟨hparens, hbraces, hsemi⟩, hpaired⟩
  · intro before inner hcode hpaired
    apply declarationAt_of_insideOpenParen
    rw [insideOpenParen_iff]
    exact ⟨before, inner, hcode, hpaired.opens⟩

def methodOverLines : List Line :=
  ["class Cart \x7b".toList, "  add(".toList,
    "    item: \x7b id: string; count: number \x7d,".toList, "    note: string,".toList]

theorem second_parameter_no_declaration :
    (lineAt methodOverLines 3).kind = .declaration ⟨.property, .bare⟩ ∧
    (enclosingScope methodOverLines 3).accepts ⟨.property, .bare⟩ = true ∧
    insideOpenParen methodOverLines 3 = true ∧ declarationAt methodOverLines 3 = none := by
  have hcode : codeBefore methodOverLines 3 = "class Cart \x7b  add".toList ++
      '(' :: ("    item: ".toList ++
        '{' :: (" id: string; count: number ".toList ++ '}' :: [','])) := by
    decide +kernel
  have hgroup : Paired [] (" id: string; count: number ".toList ++ []) :=
    .text_append [] _ [] (by decide) (.nil [])
  have hpaired : Paired [';']
      ("    item: ".toList ++ '{' :: (" id: string; count: number ".toList ++ '}' :: [','])) :=
    .text_append _ _ _ (by decide) (.group _ _ _ '{' '}' (by decide) (by simpa using hgroup)
      (.text_append _ [','] [] (by decide) (.nil _)))
  refine ⟨by decide +kernel, by decide +kernel, ?_,
    (open_parenthesis_found_iff methodOverLines 3).2 _ _ hcode hpaired⟩
  have hopens := hpaired.opens
  exact (open_parenthesis_found_iff methodOverLines 3).1.mpr ⟨_, _, hcode, hopens.1.parens,
    hopens.2, hopens.1.braces, hopens.1.semicolons⟩

end DocLint
