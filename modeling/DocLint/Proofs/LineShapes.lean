import DocLint.Declaration.Shape
import DocLint.Proofs.Names
import DocLint.Proofs.PatternExtension

/-!
# The parts of a declaring line

What the parts of the line patterns read: words, gaps, names and marks. A word at
the start of a line is told apart from what follows it, so it can be read in one
way only.
-/

set_option autoImplicit false

namespace DocLint

namespace DeclarationShape

open Pattern

theorem reads_words (ws : List String) (passage rest : List Char) :
    Reads (words ws) passage rest ↔ ∃ w ∈ ws, passage = w.toList := by
  show passage ∈ ws.map String.toList ↔ _
  rw [List.mem_map]
  simp only [eq_comm]

theorem reads_text (s : String) (passage rest : List Char) :
    Reads (text s) passage rest ↔ passage = s.toList := by
  rw [text, reads_words]
  simp

theorem reads_wordEnd (passage rest : List Char) :
    Reads wordEnd passage rest ↔ passage = [] ∧ rest.head?.any Text.isWordChar = false := by
  show _ ∧ (!rest.head?.any Text.isWordChar) = true ↔ _
  rw [Bool.not_eq_true']

theorem reads_gap (passage rest : List Char) :
    Reads gap passage rest ↔ passage ≠ [] ∧ ∀ c ∈ passage, Text.isBlank c = true := by
  constructor
  · rintro ⟨_, y, rfl, ⟨c, rfl, hc⟩, hy⟩
    refine ⟨by simp, ?_⟩
    intro d hd
    rcases List.mem_cons.mp hd with rfl | hd
    · exact hc
    · exact hy d hd
  · rintro ⟨hne, hblank⟩
    cases passage with
    | nil => exact absurd rfl hne
    | cons c cs =>
      rw [List.forall_mem_cons] at hblank
      exact ⟨[c], cs, rfl, ⟨c, rfl, hblank.1⟩, hblank.2⟩

theorem reads_words_gap (ws : List String) (passage rest : List Char) :
    Reads (words ws ++ gap) passage rest ↔
      ∃ w ∈ ws, ∃ g, passage = w.toList ++ g ∧ g ≠ [] ∧ ∀ c ∈ g, Text.isBlank c = true := by
  simp only [reads_append, reads_words, reads_gap]
  constructor
  · rintro ⟨_, g, rfl, ⟨w, hw, rfl⟩, hg⟩
    exact ⟨w, hw, g, rfl, hg⟩
  · rintro ⟨w, hw, g, rfl, hg⟩
    exact ⟨w.toList, g, rfl, ⟨w, hw, rfl⟩, hg⟩

theorem reads_identifier (passage rest : List Char) :
    Reads identifier passage rest ↔ ∃ c cs, passage = c :: cs ∧
      (Text.isNameStart c = true ∨ c = '#') ∧ ∀ d ∈ cs, Text.isNameChar d = true := by
  constructor
  · rintro ⟨_, cs, rfl, ⟨c, rfl, hc⟩, hcs⟩
    exact ⟨c, cs, rfl, by simpa using hc, hcs⟩
  · rintro ⟨c, cs, rfl, hc, hcs⟩
    exact ⟨[c], cs, rfl, ⟨c, rfl, by simpa using hc⟩, hcs⟩

def isNamePart (c : Char) : Bool := Text.isNameChar c || c == '#'

theorem namePart_identifier (name rest : List Char) (h : Reads identifier name rest) :
    name ≠ [] ∧ ∀ d ∈ name, isNamePart d = true := by
  obtain ⟨c, cs, rfl, hc, hcs⟩ := (reads_identifier name rest).mp h
  refine ⟨by simp, List.forall_mem_cons.mpr ⟨?_, ?_⟩⟩
  · rcases hc with hc | rfl
    · simp [isNamePart, Text.nameChar_of_nameStart c hc]
    · decide
  · intro d hd
    simp [isNamePart, hcs d hd]

theorem ofText?_eq_some_iff (cs : List Char) (shape : DeclarationShape) :
    ofText? cs = some shape ↔ startsStatement cs = false ∧ shape.form = formOf cs ∧
      (rules.find? fun rule => rule.1.opens cs).map (·.2) = some shape.kind := by
  rw [ofText?]
  by_cases h : startsStatement cs = true
  · simp [h]
  · rw [if_neg h, Bool.not_eq_true] at *
    obtain ⟨kind, form⟩ := shape
    cases rules.find? fun rule => rule.1.opens cs with
    | none => simp
    | some rule => simp [h, and_comm, eq_comm]

end DeclarationShape

namespace Line

def plainMarks : List String := ["/*", "*", "//", "@", "\x7d"]

theorem kindOfTrimmed_eq_declaration_iff (cs : List Char) (shape : DeclarationShape) :
    kindOfTrimmed cs = .declaration shape ↔
      cs ≠ [] ∧ (∀ mark ∈ plainMarks, ¬ mark.toList <+: cs) ∧ ¬ "*/".toList <:+ cs ∧
        DeclarationShape.ofText? cs = some shape := by
  have hdoc (h : "/**".toList <+: cs) : "/*".toList <+: cs := List.IsPrefix.trans (by decide) h
  have hclose (h : "*/".toList <+: cs) : "*".toList <+: cs := List.IsPrefix.trans (by decide) h
  have hmarks : (∀ mark ∈ plainMarks, ¬ mark.toList <+: cs) ↔
      ¬ "/*".toList <+: cs ∧ ¬ "*".toList <+: cs ∧ ¬ "//".toList <+: cs ∧ ¬ "@".toList <+: cs ∧
        ¬ ['}'] <+: cs := by
    simp only [plainMarks, List.forall_mem_cons, List.not_mem_nil, false_imp_iff, implies_true,
      and_true]
    exact Iff.rfl
  rw [hmarks, kindOfTrimmed]
  simp only [List.isEmpty_iff, Bool.or_eq_true, List.isPrefixOf_iff_prefix,
    List.isSuffixOf_iff_suffix]
  constructor
  · intro h
    split_ifs at h with hempty hd ho hc hi hl ha hb
    cases hshape : DeclarationShape.ofText? cs with
    | none => simp [hshape] at h
    | some found =>
      obtain rfl : found = shape := by simpa [hshape] using h
      exact ⟨hempty, ⟨ho, hi, hl, ha, hb⟩, fun hs => hc (Or.inr hs), rfl⟩
  · rintro ⟨hempty, ⟨ho, hi, hl, ha, hb⟩, hs, hshape⟩
    have hd : ¬ "/**".toList <+: cs := fun h => ho (hdoc h)
    have hc : ¬ ("*/".toList <+: cs ∨ "*/".toList <:+ cs) := fun h => h.elim (hi ∘ hclose) hs
    rw [if_neg hempty, if_neg hd, if_neg ho, if_neg hc, if_neg hi, if_neg hl, if_neg ha, if_neg hb,
      hshape]

end Line

end DocLint
