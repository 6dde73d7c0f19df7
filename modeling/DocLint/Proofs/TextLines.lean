import DocLint.Text.Lines
import DocLint.Text.Search

/-!
# Lines and prefixes of a text

Lines that are written one after the other, each with a line feed behind it, are
read back as they are but for a carriage return at the end of a line.
-/

set_option autoImplicit false

namespace DocLint.Text

theorem strip?_eq_some_iff (front text rest : List Char) :
    strip? front text = some rest ↔ text = front ++ rest := by
  induction front generalizing text with
  | nil => simp [strip?, eq_comm]
  | cons p ps ih =>
    cases text with
    | nil => simp [strip?]
    | cons c cs =>
      by_cases hc : p = c
      · simp [strip?, hc, ih]
      · simp [strip?, hc, Ne.symm hc]

theorem strip?_append (front rest : List Char) :
    strip? front (front ++ rest) = some rest :=
  (strip?_eq_some_iff front (front ++ rest) rest).mpr rfl

theorem strip?_eq_none (front text : List Char) (h : ¬ front <+: text) :
    strip? front text = none := by
  cases hs : strip? front text with
  | none => rfl
  | some rest =>
    have heq := (strip?_eq_some_iff front text rest).mp hs
    exact absurd ⟨rest, heq.symm⟩ h

theorem dropReturn_prefix (line : List Char) : dropReturn line <+: line := by
  fun_induction dropReturn line with
  | case1 => exact List.prefix_rfl
  | case2 => exact List.nil_prefix
  | case3 c cs h ih => exact (List.prefix_cons_inj c).mpr ih

theorem dropReturn_cons (c : Char) (cs : List Char) (h : cs ≠ []) :
    dropReturn (c :: cs) = c :: dropReturn cs := by
  cases cs with
  | nil => contradiction
  | cons d ds => simp [dropReturn]

theorem dropReturn_eq_self (line : List Char) (h : line.getLast? ≠ some '\r') :
    dropReturn line = line := by
  fun_induction dropReturn line with
  | case1 => rfl
  | case2 => simp at h
  | case3 c cs hcs ih =>
    cases cs with
    | nil => rfl
    | cons d ds => rw [ih (by simpa using h)]

theorem dropReturn_append (front back : List Char) (h : front.getLast? ≠ some '\r') :
    dropReturn (front ++ back) = front ++ dropReturn back := by
  by_cases hback : back = []
  · simp [hback, dropReturn, dropReturn_eq_self front h]
  · clear h
    induction front with
    | nil => rfl
    | cons c cs ih =>
      rw [List.cons_append, dropReturn_cons c _ (by simp [hback]), ih, List.cons_append]

theorem join_cons (sep t : List Char) (ts : List (List Char)) :
    join sep (t :: ts) = t ++ ts.flatMap (sep ++ ·) := by
  induction ts generalizing t with
  | nil => simp [join]
  | cons u ts ih => simp [join, ih]

def terminated (ls : List (List Char)) : List Char := ls.flatMap (· ++ ['\n'])

theorem splitLines_line (current line rest : List Char) (h : '\n' ∉ line) :
    splitLines current (line ++ '\n' :: rest) =
      dropReturn (current.reverse ++ line) :: splitLines [] rest := by
  induction line generalizing current with
  | nil => simp [splitLines]
  | cons c cs ih =>
    have hc : c ≠ '\n' := fun hc => h (by simp [hc])
    have hcs : '\n' ∉ cs := fun hcs => h (List.mem_cons_of_mem c hcs)
    rw [List.cons_append, splitLines]
    simp [hc, ih (c :: current) hcs]

theorem lines_terminated (ls : List (List Char)) (h : ∀ l ∈ ls, '\n' ∉ l) :
    lines (terminated ls) = ls.map dropReturn := by
  unfold lines terminated
  induction ls with
  | nil => rfl
  | cons l ls ih =>
    have hl : '\n' ∉ l := h l List.mem_cons_self
    rw [List.flatMap_cons, List.append_assoc, List.singleton_append, splitLines_line [] l _ hl,
      ih fun m hm => h m (List.mem_cons_of_mem l hm)]
    rfl

end DocLint.Text

namespace DocLint

theorem exists_split_concat {α : Type} (above : List α) (x : α) (p : α → List α → Prop) :
    (∃ before y part, above ++ [x] = before ++ y :: part ∧ p y part) ↔
      p x [] ∨ ∃ before y part, above = before ++ y :: part ∧ p y (part ++ [x]) := by
  constructor
  · intro ⟨before, y, part, hsplit, hpart⟩
    rcases List.eq_nil_or_concat part with rfl | ⟨part, z, rfl⟩
    · have hlast := (List.append_inj' hsplit rfl).2
      rw [(List.cons.inj hlast).1]
      exact Or.inl hpart
    · rw [List.concat_eq_append, ← List.cons_append, ← List.append_assoc] at hsplit
      obtain ⟨habove, hlast⟩ := List.append_inj' hsplit rfl
      rw [(List.cons.inj hlast).1]
      exact Or.inr ⟨before, y, part, habove, by simpa using hpart⟩
  · intro h
    rcases h with hpart | ⟨before, y, part, rfl, hpart⟩
    · exact ⟨above, x, [], rfl, hpart⟩
    · exact ⟨before, y, part ++ [x], by simp, hpart⟩

end DocLint
