import DocLint.Proofs.TextLines
import DocLint.Prose

/-!
# The search for words

A word stands at a place of a text if it is written there between two word
boundaries. The search goes through the text from left to right, takes the first
of its words that stands at a place, and goes on behind it.
-/

set_option autoImplicit false

namespace DocLint.Prose

/-- One of the characters next to the place is a word character, and the other is none. -/
def AtBoundary (before after : List Char) : Prop :=
  (∃ c, before.getLast? = some c ∧ Text.isWordChar c = true) ↔
    ¬ ∃ c, after.head? = some c ∧ Text.isWordChar c = true

/-- The text behind `before` starts with the word, and the word ends at a boundary as it starts at
one. -/
def Stands (before word text : List Char) : Prop :=
  ∃ after, text = word ++ after ∧ AtBoundary before text ∧ AtBoundary (before ++ word) after

/-- The words found in a text behind `before`, from left to right and without overlaps. Of the
words that stand at a place, the first of the list counts. -/
inductive Search (words : List (List Char)) : List Char → List Char → List (List Char) → Prop
  | done (before : List Char) : Search words before [] []
  | pass (before : List Char) (c : Char) (rest : List Char) (found : List (List Char))
      (hnone : ∀ w ∈ words, ¬ Stands before w (c :: rest))
      (hrest : Search words (before ++ [c]) rest found) : Search words before (c :: rest) found
  | take (before word after : List Char) (found earlier later : List (List Char))
      (hwords : words = earlier ++ word :: later)
      (hearlier : ∀ w ∈ earlier, ¬ Stands before w (word ++ after))
      (hstands : Stands before word (word ++ after))
      (hrest : Search words (before ++ word) after found) :
      Search words before (word ++ after) (word :: found)

theorem boundary_iff (before after : List Char) :
    boundary before.getLast? after = true ↔ AtBoundary before after := by
  unfold boundary AtBoundary
  rw [beq_iff_eq]
  cases before.getLast? with
  | none => cases after <;> simp [Text.wordEnds]
  | some c =>
    cases after with
    | nil => simp [Text.wordEnds]
    | cons d ds =>
      cases hc : Text.isWordChar c <;> cases hd : Text.isWordChar d <;>
        simp [Text.wordEnds, hc, hd]

theorem stands_iff (before word text : List Char) :
    (boundary before.getLast? text = true ∧ standsAt before.getLast? word text = true) ↔
      Stands before word text := by
  rw [boundary_iff, standsAt]
  cases hstrip : Text.strip? word text with
  | none =>
    have hnot : ¬ Stands before word text := by
      intro ⟨after, htext, _⟩
      rw [(Text.strip?_eq_some_iff _ _ _).mpr htext] at hstrip
      cases hstrip
    simp [hnot]
  | some after =>
    have htext := (Text.strip?_eq_some_iff _ _ _).mp hstrip
    dsimp only
    rw [← List.getLast?_append, boundary_iff]
    constructor
    · intro ⟨hopens, hcloses⟩
      exact ⟨after, htext, hopens, hcloses⟩
    · intro ⟨after', htext', hopens, hcloses⟩
      obtain rfl : after' = after := List.append_cancel_left (htext'.symm.trans htext)
      exact ⟨hopens, hcloses⟩

theorem wordAt?_eq_none_iff (words : List (List Char)) (before text : List Char) :
    wordAt? words before.getLast? text = none ↔ ∀ w ∈ words, ¬ Stands before w text := by
  simp only [← stands_iff, wordAt?]
  cases boundary before.getLast? text <;> simp

theorem wordAt?_eq_some_iff (words : List (List Char)) (before text word : List Char) :
    wordAt? words before.getLast? text = some word ↔
      ∃ earlier later, words = earlier ++ word :: later ∧
        (∀ w ∈ earlier, ¬ Stands before w text) ∧ Stands before word text := by
  simp only [← stands_iff, wordAt?]
  cases boundary before.getLast? text with
  | false => simp
  | true =>
    simp only [if_true, true_and, List.find?_eq_some_iff_append, Bool.not_eq_true]
    constructor
    · intro ⟨hword, earlier, later, hwords, hearlier⟩
      exact ⟨earlier, later, hwords, by simpa using hearlier, hword⟩
    · intro ⟨earlier, later, hwords, hearlier, hword⟩
      exact ⟨hword, earlier, later, hwords, by simpa using hearlier⟩

theorem scan_skip (words : List (List Char)) (before front rest : List Char) :
    scan words front.length before.getLast? (front ++ rest) =
      scan words 0 (before ++ front).getLast? rest := by
  induction front generalizing before with
  | nil => simp
  | cons c front ih =>
    have hstep := ih (before ++ [c])
    rw [List.getLast?_concat, List.append_assoc] at hstep
    exact hstep

theorem scan_none (words : List (List Char)) (before rest : List Char) (c : Char)
    (h : ∀ w ∈ words, ¬ Stands before w (c :: rest)) :
    scan words 0 before.getLast? (c :: rest) = scan words 0 (before ++ [c]).getLast? rest := by
  rw [scan, (wordAt?_eq_none_iff words before (c :: rest)).mpr h, List.getLast?_concat]

theorem scan_word (words : List (List Char)) (before word after : List Char) (hne : word ≠ [])
    (h : wordAt? words before.getLast? (word ++ after) = some word) :
    scan words 0 before.getLast? (word ++ after) =
      word :: scan words 0 (before ++ word).getLast? after := by
  cases word with
  | nil => exact absurd rfl hne
  | cons c tail =>
    have hskip := scan_skip words (before ++ [c]) tail after
    rw [List.getLast?_concat, List.append_assoc] at hskip
    rw [List.cons_append] at h ⊢
    rw [scan, h]
    exact congrArg ((c :: tail) :: ·) hskip

theorem eq_scan_of_search (words : List (List Char)) (before text : List Char)
    (found : List (List Char)) (hwords : ∀ w ∈ words, w ≠ [])
    (h : Search words before text found) : found = scan words 0 before.getLast? text := by
  induction h with
  | done before => rfl
  | pass before c rest found hnone _ ih => rw [scan_none words before rest c hnone, ih]
  | take before word after found earlier later hlist hearlier hstands _ ih =>
    have hword := (wordAt?_eq_some_iff words before (word ++ after) word).mpr
      ⟨earlier, later, hlist, hearlier, hstands⟩
    have hne : word ≠ [] := hwords word (by simp [hlist])
    rw [scan_word words before word after hne hword, ih]

theorem search_scan (words : List (List Char)) (before text : List Char)
    (hwords : ∀ w ∈ words, w ≠ []) :
    Search words before text (scan words 0 before.getLast? text) := by
  induction hlength : text.length using Nat.strongRecOn generalizing before text with
  | ind n ih =>
    cases text with
    | nil => exact .done before
    | cons c rest =>
      cases hword : wordAt? words before.getLast? (c :: rest) with
      | none =>
        have hnone := (wordAt?_eq_none_iff words before (c :: rest)).mp hword
        rw [scan_none words before rest c hnone]
        exact .pass before c rest _ hnone (ih rest.length (by simp [← hlength]) _ rest rfl)
      | some word =>
        obtain ⟨earlier, later, hlist, hearlier, hstands⟩ :=
          (wordAt?_eq_some_iff words before (c :: rest) word).mp hword
        have hne : word ≠ [] := hwords word (by simp [hlist])
        have ⟨after, htext, _⟩ := hstands
        have hshorter : after.length < n := by
          have := List.length_pos_iff.mpr hne
          rw [← hlength, htext, List.length_append]
          omega
        rw [htext] at hword hearlier hstands ⊢
        rw [scan_word words before word after hne hword]
        exact .take before word after _ earlier later hlist hearlier hstands
          (ih after.length hshorter _ after rfl)

theorem search_iff (words : List (List Char)) (before text : List Char)
    (found : List (List Char)) (hwords : ∀ w ∈ words, w ≠ []) :
    Search words before text found ↔ found = scan words 0 before.getLast? text := by
  constructor
  · exact eq_scan_of_search words before text found hwords
  · rintro rfl
    exact search_scan words before text hwords

theorem subset_of_search (words : List (List Char)) (before text : List Char)
    (found : List (List Char)) (h : Search words before text found) : found ⊆ words := by
  induction h with
  | done before => simp
  | pass _ _ _ _ _ _ ih => exact ih
  | take _ word _ _ earlier later hlist _ _ _ ih =>
    apply List.cons_subset.mpr
    exact ⟨by simp [hlist], ih⟩

end DocLint.Prose
