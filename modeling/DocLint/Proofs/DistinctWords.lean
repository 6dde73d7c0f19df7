import DocLint.Proofs.WordSearch
import Mathlib.Data.List.Dedup
import Mathlib.Data.List.Perm.Subperm

/-!
# Stop words that are listed more than once

The words found in a block are given back as the list of stop words has them, so
a word counts as often as it is listed there. They are the different words found,
and the threshold is for different words, exactly if each word found is listed
once.
-/

set_option autoImplicit false

namespace DocLint.Prose

/-- The search for the stop words finds the word in the prose of the block. -/
def Found (settings : LanguageSettings) (block word : List Char) : Prop :=
  ∃ found, Search (stopWords settings) [] (normalize block) found ∧ word ∈ found

theorem stopWords_ne_nil (settings : LanguageSettings) : ∀ w ∈ stopWords settings, w ≠ [] := by
  intro w hw
  simpa using (List.mem_filter.mp hw).2

theorem found_iff (settings : LanguageSettings) (block word : List Char) :
    Found settings block word ↔ word ∈ scan (stopWords settings) 0 none (normalize block) := by
  have hsearch (found : List (List Char)) : Search (stopWords settings) [] (normalize block) found ↔
      found = scan (stopWords settings) 0 none (normalize block) :=
    search_iff _ [] _ found (stopWords_ne_nil settings)
  rw [Found]
  simp only [hsearch, exists_eq_left]

theorem mem_stopWords_of_found (settings : LanguageSettings) (block word : List Char)
    (h : Found settings block word) : word ∈ stopWords settings := by
  obtain ⟨found, hsearch, hmem⟩ := h
  exact subset_of_search _ _ _ found hsearch hmem

theorem foundWords_eq_filter (settings : LanguageSettings) (block : List Char)
    (different : List (List Char)) (h : ∀ w, w ∈ different ↔ Found settings block w) :
    foundWords settings block = (stopWords settings).filter fun w => different.contains w := by
  apply List.filter_congr
  intro w _
  rw [Bool.eq_iff_iff, List.contains_iff_mem, List.contains_iff_mem, h, found_iff]

theorem mem_foundWords_iff (settings : LanguageSettings) (block word : List Char) :
    word ∈ foundWords settings block ↔ Found settings block word := by
  rw [foundWords, List.mem_filter, List.contains_iff_mem, ← found_iff]
  exact and_iff_right_of_imp (mem_stopWords_of_found settings block word)

theorem count_foundWords (settings : LanguageSettings) (block word : List Char)
    (h : Found settings block word) :
    (foundWords settings block).count word = (stopWords settings).count word := by
  apply List.count_filter
  rwa [List.contains_iff_mem, ← found_iff]

theorem nodup_foundWords_iff (settings : LanguageSettings) (block : List Char) :
    (foundWords settings block).Nodup ↔
      ∀ w, Found settings block w → (stopWords settings).count w = 1 := by
  rw [List.nodup_iff_count_eq_one]
  constructor
  · intro h w hw
    rw [← count_foundWords settings block w hw]
    exact h w ((mem_foundWords_iff settings block w).mpr hw)
  · intro h w hw
    rw [mem_foundWords_iff] at hw
    rw [count_foundWords settings block w hw]
    exact h w hw

theorem detect_eq_some_iff (settings : LanguageSettings) (block : List Char)
    (words : List (List Char)) :
    detect settings block = some words ↔
      words = foundWords settings block ∧ settings.threshold ≤ words.length := by
  rw [detect]
  by_cases h : settings.threshold ≤ (foundWords settings block).length
  · simp only [h, if_true, Option.some.injEq]
    constructor
    · rintro rfl
      exact ⟨rfl, h⟩
    · intro hwords
      exact hwords.1.symm
  · simp only [h, if_false]
    constructor
    · intro hnone
      cases hnone
    · rintro ⟨rfl, hle⟩
      exact absurd hle h

theorem isSome_detect_iff (settings : LanguageSettings) (block : List Char) :
    (detect settings block).isSome = true ↔
      settings.threshold ≤ (foundWords settings block).length := by
  simp [Option.isSome_iff_exists, detect_eq_some_iff]

/-- The words given back are the different stop words found, and these are as many as the
threshold asks for, if and only if each of them is listed once. In any case the words are given
back in the order of the list and as often as they are listed, and a block with enough different
words is detected. -/
theorem words_counted_once_iff (settings : LanguageSettings) (block : List Char) :
    ∃ different : List (List Char),
      different.Nodup ∧ (∀ w, w ∈ different ↔ Found settings block w) ∧
      ((foundWords settings block).Nodup ∧
          ((detect settings block).isSome = true ↔ settings.threshold ≤ different.length) ↔
        ∀ w ∈ different, (stopWords settings).count w = 1) ∧
      foundWords settings block = (stopWords settings).filter (fun w => different.contains w) ∧
      (∀ words, detect settings block = some words ↔
        words = foundWords settings block ∧ settings.threshold ≤ words.length) ∧
      (settings.threshold ≤ different.length → (detect settings block).isSome = true) := by
  let different := (scan (stopWords settings) 0 none (normalize block)).dedup
  have hnodup : different.Nodup := List.nodup_dedup _
  have hmem (w : List Char) : w ∈ different ↔ Found settings block w := by
    rw [List.mem_dedup, found_iff]
  have hsubset : different ⊆ foundWords settings block := by
    intro w hw
    rw [mem_foundWords_iff, ← hmem]
    exact hw
  refine ⟨different, hnodup, hmem, ⟨?_, ?_⟩, foundWords_eq_filter settings block different hmem,
    detect_eq_some_iff settings block, ?_⟩
  · intro ⟨honce, _⟩ w hw
    exact (nodup_foundWords_iff settings block).mp honce w ((hmem w).mp hw)
  · intro hlisted
    have honce : (foundWords settings block).Nodup :=
      (nodup_foundWords_iff settings block).mpr fun w hw => hlisted w ((hmem w).mpr hw)
    have hperm : (foundWords settings block).Perm different := by
      rw [List.perm_ext_iff_of_nodup honce hnodup]
      intro w
      rw [mem_foundWords_iff, hmem]
    exact ⟨honce, by rw [isSome_detect_iff, hperm.length_eq]⟩
  · intro hle
    rw [isSome_detect_iff]
    exact Nat.le_trans hle (List.subperm_of_subset hnodup hsubset).length_le

def twiceListed : LanguageSettings := { threshold := 2, stopWords := ["el", " El"] }

/-- The word is found once, counts twice and is reported. -/
theorem word_listed_twice_detected :
    foundWords twiceListed "/** Opens el file. */".toList = ["el".toList, "el".toList] ∧
      detect twiceListed "/** Opens el file. */".toList = some ["el".toList, "el".toList] ∧
      ∀ w, Found twiceListed "/** Opens el file. */".toList w ↔ w = "el".toList := by
  refine ⟨by decide +kernel, by decide +kernel, ?_⟩
  have hscan : scan (stopWords twiceListed) 0 none (normalize "/** Opens el file. */".toList) =
      ["el".toList] := by decide +kernel
  intro w
  rw [found_iff, hscan, List.mem_singleton]

end DocLint.Prose
