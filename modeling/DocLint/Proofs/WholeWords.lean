import DocLint.Proofs.DistinctWords

/-!
# Whole words

A stop word that is made of word characters stands at a place exactly if it is
the whole run of word characters there. So the one search for all stop words,
from left to right, by the order of the list and without overlaps, finds the
words that are found by cutting the prose into its runs and looking each run up
in the list.
-/

set_option autoImplicit false

namespace DocLint.Prose

/-- A run of word characters, with no further word character next to it. -/
def IsRun (text run : List Char) : Prop :=
  ∃ before after, text = before ++ run ++ after ∧ run ≠ [] ∧
    (∀ c ∈ run, Text.isWordChar c = true) ∧
    before.getLast?.any Text.isWordChar = false ∧ after.head?.any Text.isWordChar = false

def AllWordy (words : List (List Char)) : Prop :=
  ∀ w ∈ words, w ≠ [] ∧ ∀ c ∈ w, Text.isWordChar c = true

theorem atBoundary_iff (before after : List Char) :
    AtBoundary before after ↔
      before.getLast?.any Text.isWordChar = !after.head?.any Text.isWordChar := by
  unfold AtBoundary
  cases before.getLast? with
  | none => cases after <;> simp
  | some c =>
    cases after with
    | nil => simp
    | cons d ds => cases hc : Text.isWordChar c <;> cases hd : Text.isWordChar d <;> simp [hc, hd]

theorem any_head?_word (word rest : List Char) (hne : word ≠ [])
    (hword : ∀ c ∈ word, Text.isWordChar c = true) :
    (word ++ rest).head?.any Text.isWordChar = true := by
  cases word with
  | nil => exact absurd rfl hne
  | cons c cs => exact hword c List.mem_cons_self

theorem any_getLast?_word (before word : List Char) (hne : word ≠ [])
    (hword : ∀ c ∈ word, Text.isWordChar c = true) :
    (before ++ word).getLast?.any Text.isWordChar = true := by
  rw [List.getLast?_append, List.getLast?_eq_some_getLast hne]
  exact hword _ (List.getLast_mem hne)

theorem stands_word_iff (before word text : List Char) (hne : word ≠ [])
    (hword : ∀ c ∈ word, Text.isWordChar c = true) :
    Stands before word text ↔
      ∃ after, text = word ++ after ∧ before.getLast?.any Text.isWordChar = false ∧
        after.head?.any Text.isWordChar = false := by
  have hlast := any_getLast?_word before word hne hword
  unfold Stands
  simp only [atBoundary_iff, hlast]
  constructor
  · rintro ⟨after, rfl, hopens, hcloses⟩
    rw [any_head?_word word after hne hword] at hopens
    exact ⟨after, rfl, hopens, by simpa using hcloses.symm⟩
  · rintro ⟨after, rfl, hopens, hcloses⟩
    rw [any_head?_word word after hne hword]
    exact ⟨after, rfl, hopens, by rw [hcloses]; rfl⟩

theorem eq_takeWhile_of_stands (before word text : List Char) (hne : word ≠ [])
    (hword : ∀ c ∈ word, Text.isWordChar c = true) (h : Stands before word text) :
    word = text.takeWhile Text.isWordChar := by
  obtain ⟨after, rfl, -, hcloses⟩ := (stands_word_iff before word text hne hword).mp h
  rw [List.takeWhile_append_of_pos hword]
  cases after with
  | nil => simp
  | cons c cs =>
    have hc : Text.isWordChar c = false := hcloses
    simp [hc]

theorem not_stands_behind (before front word rest : List Char) (hne : word ≠ [])
    (hword : ∀ c ∈ word, Text.isWordChar c = true) (hfront : front ≠ [])
    (hrun : ∀ c ∈ front, Text.isWordChar c = true) : ¬ Stands (before ++ front) word rest := by
  intro h
  obtain ⟨after, -, hopens, -⟩ := (stands_word_iff _ word rest hne hword).mp h
  rw [any_getLast?_word before front hfront hrun] at hopens
  contradiction

theorem mem_search_iff (words : List (List Char)) (before text : List Char)
    (found : List (List Char)) (hwords : AllWordy words) (h : Search words before text found)
    (word : List Char) :
    word ∈ found ↔ word ∈ words ∧
      ∃ front rest, text = front ++ rest ∧ Stands (before ++ front) word rest := by
  induction h with
  | done before =>
    constructor
    · intro hmem
      contradiction
    · rintro ⟨hmem, front, rest, hsplit, after, hrest, -⟩
      rw [hrest] at hsplit
      simp [(hwords word hmem).1] at hsplit
  | pass before c rest found hnone _ ih =>
    rw [ih]
    constructor
    · rintro ⟨hmem, front, back, rfl, hstands⟩
      exact ⟨hmem, c :: front, back, rfl, by simpa using hstands⟩
    · rintro ⟨hmem, front, back, hsplit, hstands⟩
      cases front with
      | nil =>
        rw [List.append_nil, ← List.nil_append back, ← hsplit] at hstands
        exact absurd hstands (hnone word hmem)
      | cons d front =>
        obtain ⟨rfl, rfl⟩ := List.cons.inj hsplit
        exact ⟨hmem, front, back, rfl, by simpa using hstands⟩
  | take before taken after found earlier later hlist hearlier hstands _ ih =>
    have htaken : taken ∈ words := by simp [hlist]
    have hwordy := hwords taken htaken
    rw [List.mem_cons, ih]
    constructor
    · rintro (rfl | ⟨hmem, front, back, rfl, hfurther⟩)
      · exact ⟨htaken, [], word ++ after, rfl, by simpa using hstands⟩
      · exact ⟨hmem, taken ++ front, back, by simp, by simpa using hfurther⟩
    · rintro ⟨hmem, front, back, hsplit, hplace⟩
      have hfits := hwords word hmem
      rcases List.append_eq_append_iff.mp hsplit with ⟨between, rfl, rfl⟩ | ⟨inner, rfl, rfl⟩
      · right
        exact ⟨hmem, between, back, rfl, by simpa using hplace⟩
      · by_cases hfront : front = []
        · subst hfront
          left
          simp only [List.append_nil, List.nil_append] at hplace hstands hwordy
          rw [eq_takeWhile_of_stands before word _ hfits.1 hfits.2 hplace]
          exact (eq_takeWhile_of_stands before inner _ hwordy.1 hwordy.2 hstands).symm
        · have hrun : ∀ c ∈ front, Text.isWordChar c = true :=
            fun c hc => hwordy.2 c (List.mem_append_left inner hc)
          exact absurd hplace
            (not_stands_behind before front word _ hfits.1 hfits.2 hfront hrun)

theorem isRun_iff (text word : List Char) (hne : word ≠ [])
    (hword : ∀ c ∈ word, Text.isWordChar c = true) :
    IsRun text word ↔ ∃ front rest, text = front ++ rest ∧ Stands front word rest := by
  constructor
  · rintro ⟨before, after, rfl, -, -, hopens, hcloses⟩
    exact ⟨before, word ++ after, by simp,
      (stands_word_iff before word _ hne hword).mpr ⟨after, rfl, hopens, hcloses⟩⟩
  · rintro ⟨front, rest, rfl, hstands⟩
    obtain ⟨after, rfl, hopens, hcloses⟩ := (stands_word_iff front word rest hne hword).mp hstands
    exact ⟨front, after, by simp, hne, hword, hopens, hcloses⟩

theorem allWordy_stopWords (settings : LanguageSettings)
    (h : ∀ s ∈ settings.stopWords,
      ∀ c ∈ Text.lower (Text.trim s.toList), Text.isWordChar c = true) :
    AllWordy (stopWords settings) := by
  intro w hw
  have hlisted := (List.mem_filter.mp hw).1
  obtain ⟨s, hs, rfl⟩ := List.mem_map.mp hlisted
  exact ⟨stopWords_ne_nil settings _ hw, h s hs⟩

theorem foundWords_sublist (settings : LanguageSettings) (block : List Char) :
    (foundWords settings block).Sublist (stopWords settings) :=
  List.filter_sublist

/-- If the stop words are made of word characters, the words found are the runs of the prose that
are stop words, in the order of the list. -/
theorem whole_words_found (settings : LanguageSettings) (block : List Char)
    (h : ∀ s ∈ settings.stopWords, ∀ c ∈ Text.lower (Text.trim s.toList),
      Text.isWordChar c = true) :
    (∀ word, word ∈ foundWords settings block ↔
      word ∈ stopWords settings ∧ IsRun (normalize block) word) ∧
    (foundWords settings block).Sublist (stopWords settings) := by
  have hwordy := allWordy_stopWords settings h
  have hsearch := search_scan (stopWords settings) [] (normalize block) (stopWords_ne_nil settings)
  constructor
  · intro word
    rw [mem_foundWords_iff, found_iff, ← List.getLast?_nil,
      mem_search_iff (stopWords settings) [] _ _ hwordy hsearch word]
    apply and_congr_right
    intro hmem
    exact (isRun_iff (normalize block) word (hwordy word hmem).1 (hwordy word hmem).2).symm
  · exact foundWords_sublist settings block

def prefixWords : LanguageSettings := { threshold := 2, stopWords := ["es", " Este ", "est"] }

theorem longer_word_found :
    "este".toList ∈ foundWords prefixWords "/** Es de este. */".toList ∧
      (foundWords prefixWords "/** Es de este. */".toList).Sublist
        ["es".toList, "este".toList, "est".toList] := by
  have hwordy : prefixWords.stopWords.all (fun s =>
      (Text.lower (Text.trim s.toList)).all Text.isWordChar) = true := by decide
  have hlisted : stopWords prefixWords = ["es".toList, "este".toList, "est".toList] := by
    decide
  have hprose : normalize "/** Es de este. */".toList =
      "es de ".toList ++ "este".toList ++ ". ".toList := by decide
  have hword : "este".toList.all Text.isWordChar = true := by decide
  simp only [List.all_eq_true] at hwordy hword
  have hfound := whole_words_found prefixWords "/** Es de este. */".toList hwordy
  rw [hlisted, hprose] at hfound
  exact ⟨(hfound.1 _).mpr ⟨by simp, _, _, rfl, by simp, hword, by decide, by decide⟩, hfound.2⟩

end DocLint.Prose
