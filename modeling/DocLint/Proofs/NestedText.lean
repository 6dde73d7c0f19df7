import DocLint.Signature

/-!
# Properly nested texts

Brackets in a text are properly nested when each is closed by its own kind. The
head of an arrow is no bracket. Whatever counts depth in a nested text comes
out of it at the depth at which it went in, and meets only the characters that
stand outside of all brackets at that depth.
-/

set_option autoImplicit false

namespace DocLint

def bracketPairs : List (Char × Char) := [('(', ')'), ('[', ']'), ('{', '}'), ('<', '>')]

def isBracket (c : Char) : Bool := bracketPairs.any fun p => p.1 == c || p.2 == c

/-- The text is properly nested, and none of the characters `out` stands outside of its brackets,
where a pair of brackets stands for its opening one. -/
inductive Nested : List Char → List Char → Prop
  | nil (out : List Char) : Nested out []
  | char (out rest : List Char) (c : Char) (hc : isBracket c = false) (hout : c ∉ out)
      (hrest : Nested out rest) : Nested out (c :: rest)
  | arrow (out rest : List Char) (heq : '=' ∉ out) (hhead : '>' ∉ out)
      (hrest : Nested out rest) : Nested out ('=' :: '>' :: rest)
  | group (out inner rest : List Char) (o c : Char) (hpair : (o, c) ∈ bracketPairs)
      (hout : o ∉ out) (hinner : Nested [] inner)
      (hhead : c = '>' → inner.getLast? ≠ some '=') (hrest : Nested out rest) :
      Nested out (o :: (inner ++ c :: rest))

namespace Nested

theorem of_no_brackets (out text : List Char)
    (h : text.all (fun c => !isBracket c && !out.contains c) = true) : Nested out text := by
  induction text with
  | nil => exact nil out
  | cons c text ih =>
    simp only [List.all_cons, Bool.and_eq_true, Bool.not_eq_true', List.contains_eq_mem,
      decide_eq_false_iff_not] at h
    exact char out text c h.1.1 h.1.2 (ih (by simpa using h.2))

theorem append {out a b : List Char} (ha : Nested out a) (hb : Nested out b) :
    Nested out (a ++ b) := by
  induction ha with
  | nil out => exact hb
  | char out rest c hc hout hrest ih => exact char out _ c hc hout (ih hb)
  | arrow out rest heq hhead hrest ih => exact arrow out _ heq hhead (ih hb)
  | group out inner rest o c hpair hout hinner hhead hrest ihinner ih =>
    have hassoc : o :: (inner ++ c :: rest) ++ b = o :: (inner ++ c :: (rest ++ b)) := by simp
    rw [hassoc]
    exact group out inner _ o c hpair hout hinner hhead (ih hb)

theorem mono {out text : List Char} (h : Nested out text) : Nested [] text := by
  induction h with
  | nil out => exact nil []
  | char out rest c hc hout hrest ih => exact char [] rest c hc List.not_mem_nil ih
  | arrow out rest heq hhead hrest ih => exact arrow [] rest List.not_mem_nil List.not_mem_nil ih
  | group out inner rest o c hpair hout hinner hhead hrest ihinner ih =>
    exact group [] inner rest o c hpair List.not_mem_nil hinner hhead ih

theorem flatMap {α : Type} (out : List Char) (l : List α) (f : α → List Char)
    (h : ∀ a ∈ l, Nested out (f a)) : Nested out (l.flatMap f) := by
  induction l with
  | nil => exact nil out
  | cons a l ih =>
    rw [List.flatMap_cons]
    exact (h a List.mem_cons_self).append (ih fun b hb => h b (List.mem_cons_of_mem a hb))

end Nested

theorem ne_of_isBracket (c d : Char) (hc : isBracket c = false) (hd : isBracket d = true) :
    c ≠ d := by
  intro h
  rw [h, hd] at hc
  contradiction

theorem pair_cases (o c : Char) (h : (o, c) ∈ bracketPairs) :
    (o = '(' ∧ c = ')') ∨ (o = '[' ∧ c = ']') ∨ (o = '{' ∧ c = '}') ∨ (o = '<' ∧ c = '>') := by
  simpa [bracketPairs] using h

namespace Signature

theorem parenDepth_append (depth : Int) (a b : List Char) :
    parenDepth depth (a ++ b) = parenDepth (parenDepth depth a) b := by
  rw [parenDepth, List.foldl_append]
  rfl

theorem parenDepth_cons (depth : Int) (c : Char) (cs : List Char) :
    parenDepth depth (c :: cs) = parenDepth (parenDepth depth [c]) cs := rfl

theorem parenDepth_pair (depth : Int) (o c : Char) (h : (o, c) ∈ bracketPairs) :
    parenDepth (parenDepth depth [o]) [c] = depth := by
  rcases pair_cases o c h with ⟨rfl, rfl⟩ | ⟨rfl, rfl⟩ | ⟨rfl, rfl⟩ | ⟨rfl, rfl⟩ <;>
    simp [parenDepth]

theorem parenDepth_nested (out text : List Char) (h : Nested out text) (depth : Int) :
    parenDepth depth text = depth := by
  induction h generalizing depth with
  | nil out => rfl
  | char out rest c hc hout hrest ih =>
    have hopen := ne_of_isBracket c '(' hc (by decide)
    have hclose := ne_of_isBracket c ')' hc (by decide)
    have hstep : parenDepth depth [c] = depth := by simp [parenDepth, hopen, hclose]
    rw [parenDepth_cons, hstep, ih]
  | arrow out rest heq hhead hrest ih => exact ih depth
  | group out inner rest o c hpair hout hinner hhead hrest ihinner ih =>
    rw [parenDepth_cons, parenDepth_append, ihinner, parenDepth_cons, parenDepth_pair _ o c hpair,
      ih]

theorem cutParams_open (depth : Nat) (cs : List Char) :
    cutParams depth ('(' :: cs) =
      ('(' :: (cutParams (depth + 1) cs).1, (cutParams (depth + 1) cs).2) := rfl

theorem cutParams_close (depth : Nat) (cs : List Char) :
    cutParams (depth + 1) (')' :: cs) =
      (')' :: (cutParams depth cs).1, (cutParams depth cs).2) := rfl

theorem cutParams_other (depth : Nat) (c : Char) (cs : List Char) (ho : c ≠ '(') (hc : c ≠ ')') :
    cutParams depth (c :: cs) = (c :: (cutParams depth cs).1, (cutParams depth cs).2) := by
  simp [cutParams, ho, hc]

theorem cutParams_nested (out text : List Char) (h : Nested out text) (depth : Nat)
    (tail : List Char) :
    cutParams depth (text ++ tail) =
      (text ++ (cutParams depth tail).1, (cutParams depth tail).2) := by
  induction h generalizing depth tail with
  | nil out => rfl
  | char out rest c hc hout hrest ih =>
    have hopen := ne_of_isBracket c '(' hc (by decide)
    have hclose := ne_of_isBracket c ')' hc (by decide)
    rw [List.cons_append, cutParams_other depth c _ hopen hclose, ih]
    rfl
  | arrow out rest heq hhead hrest ih =>
    rw [List.cons_append, List.cons_append, cutParams_other depth '=' _ (by decide) (by decide),
      cutParams_other depth '>' _ (by decide) (by decide), ih]
    rfl
  | group out inner rest o c hpair hout hinner hhead hrest ihinner ih =>
    have hassoc : o :: (inner ++ c :: rest) ++ tail = o :: (inner ++ (c :: (rest ++ tail))) := by
      simp
    rw [hassoc]
    by_cases hparen : o = '('
    · obtain rfl := hparen
      obtain rfl : c = ')' := by simpa [bracketPairs] using hpair
      rw [cutParams_open, ihinner, cutParams_close, ih]
      simp
    · have hne : (o ≠ ')' ∧ c ≠ '(') ∧ c ≠ ')' := by
        rcases pair_cases o c hpair with ⟨rfl, rfl⟩ | ⟨rfl, rfl⟩ | ⟨rfl, rfl⟩ | ⟨rfl, rfl⟩ <;>
          simp_all
      rw [cutParams_other depth o _ hparen hne.1.1, ihinner,
        cutParams_other depth c _ hne.1.2 hne.2, ih]
      simp

theorem depthStep_nonbracket (prev c : Char) (h : isBracket c = false) : depthStep prev c = 0 := by
  have hne (d : Char) (hd : isBracket d = true) : c ≠ d := ne_of_isBracket c d h hd
  simp [depthStep, hne '(' rfl, hne '[' rfl, hne '{' rfl, hne '<' rfl, hne ')' rfl, hne ']' rfl,
    hne '}' rfl, hne '>' rfl]

theorem depthStep_open (prev o c : Char) (h : (o, c) ∈ bracketPairs) : depthStep prev o = 1 := by
  rcases pair_cases o c h with ⟨rfl, rfl⟩ | ⟨rfl, rfl⟩ | ⟨rfl, rfl⟩ | ⟨rfl, rfl⟩ <;> rfl

theorem depthStep_close (prev o c : Char) (h : (o, c) ∈ bracketPairs)
    (hhead : c = '>' → prev ≠ '=') : depthStep prev c = -1 := by
  rcases pair_cases o c h with ⟨rfl, rfl⟩ | ⟨rfl, rfl⟩ | ⟨rfl, rfl⟩ | ⟨rfl, rfl⟩
  · rfl
  · rfl
  · rfl
  · simp [depthStep, hhead rfl]

/-- A scan that goes on at every character but the `stops` outside of all brackets takes a nested
text as a whole, if no stop stands outside of the text's own brackets. -/
theorem scan_nested {α : Type} (scan : Int → Char → List Char → List Char → α) (stops : List Char)
    (hstep : ∀ (depth : Int) (prev c : Char) (taken cs : List Char), (depth = 0 → c ∉ stops) →
      scan depth prev taken (c :: cs) = scan (depth + depthStep prev c) c (c :: taken) cs)
    (out text : List Char) (h : Nested out text) (depth : Int) (hdepth : 0 ≤ depth)
    (hstops : depth = 0 → stops ⊆ out) (prev : Char) (taken tail : List Char) :
    scan depth prev taken (text ++ tail) =
      scan depth (text.getLast?.getD prev) (text.reverse ++ taken) tail := by
  induction h generalizing depth prev taken tail with
  | nil out => rfl
  | char out rest c hc hout hrest ih =>
    have hgo : depth = 0 → c ∉ stops := fun hzero hstop => hout (hstops hzero hstop)
    rw [List.cons_append, hstep depth prev c _ _ hgo, depthStep_nonbracket prev c hc,
      Int.add_zero, ih depth hdepth hstops]
    simp [List.getLast?_cons]
  | arrow out rest heq hhead hrest ih =>
    have hequals : depth = 0 → '=' ∉ stops := fun hzero hstop => heq (hstops hzero hstop)
    have harrow : depth = 0 → '>' ∉ stops := fun hzero hstop => hhead (hstops hzero hstop)
    have hshaft : depth + depthStep prev '=' = depth := Int.add_zero depth
    have hpoint : depth + depthStep '=' '>' = depth := Int.add_zero depth
    rw [List.cons_append, List.cons_append, hstep depth prev '=' _ _ hequals, hshaft,
      hstep depth '=' '>' _ _ harrow, hpoint, ih depth hdepth hstops]
    simp [List.getLast?_cons]
  | group out inner rest o c hpair hout hinner hhead hrest ihinner ih =>
    have hassoc : o :: (inner ++ c :: rest) ++ tail = o :: (inner ++ (c :: (rest ++ tail))) := by
      simp
    have hopen : depth = 0 → o ∉ stops := fun hzero hstop => hout (hstops hzero hstop)
    have hequals : o ≠ '=' := by
      rcases pair_cases o c hpair with ⟨rfl, rfl⟩ | ⟨rfl, rfl⟩ | ⟨rfl, rfl⟩ | ⟨rfl, rfl⟩ <;> simp
    have hlast : c = '>' → inner.getLast?.getD o ≠ '=' := by
      intro hc
      have hinner := hhead hc
      cases h : inner.getLast? with
      | none => exact hequals
      | some d =>
        rintro rfl
        exact hinner h
    -- One level further in nothing stops the scan, so the closing bracket is met at that level.
    rw [hassoc, hstep depth prev o _ _ hopen, depthStep_open prev o c hpair,
      ihinner (depth + 1) (by omega) (by omega), hstep _ _ c _ _ (by omega),
      depthStep_close _ o c hpair hlast, Int.add_neg_cancel_right, ih depth hdepth hstops]
    simp [List.getLast?_cons]

theorem splitCommas_other (depth : Int) (prev c : Char) (current cs : List Char)
    (h : c = ',' → depth ≠ 0) :
    splitCommas depth prev current (c :: cs) =
      splitCommas (depth + depthStep prev c) c (c :: current) cs := by
  rw [splitCommas]
  by_cases hc : c = ','
  · simp [hc, h hc]
  · simp [hc]

theorem splitCommas_nested (text : List Char) (h : Nested [','] text) (prev : Char)
    (current tail : List Char) :
    splitCommas 0 prev current (text ++ tail) =
      splitCommas 0 (text.getLast?.getD prev) (text.reverse ++ current) tail :=
  scan_nested splitCommas [',']
    (fun depth prev c taken cs hgo =>
      splitCommas_other depth prev c taken cs fun hc hzero => hgo hzero (by simp [hc]))
    [','] text h 0 (Int.le_refl 0) (fun _ => List.Subset.refl _) prev current tail

/-- What ends a return type outside of all brackets. A `>` that stands there ends an arrow. -/
def returnStops : List Char := ['{', ';', '>']

theorem returnText_other (depth : Int) (prev c : Char) (collected cs : List Char)
    (h : depth = 0 → c ∉ returnStops) :
    returnText depth prev collected (c :: cs) =
      returnText (depth + depthStep prev c) c (c :: collected) cs := by
  rw [returnText]
  by_cases hzero : depth = 0
  · have hgo : c ≠ '{' ∧ c ≠ ';' ∧ c ≠ '>' := by simpa [returnStops] using h hzero
    simp [hgo.1, hgo.2.1, hgo.2.2]
  · simp [hzero]

theorem returnText_nested (out text : List Char) (h : Nested out text) (depth : Int)
    (hdepth : 0 ≤ depth) (hstops : depth = 0 → returnStops ⊆ out) (prev : Char)
    (collected tail : List Char) :
    returnText depth prev collected (text ++ tail) =
      returnText depth (text.getLast?.getD prev) (text.reverse ++ collected) tail :=
  scan_nested returnText returnStops returnText_other out text h depth hdepth hstops prev collected
    tail

end Signature

end DocLint
