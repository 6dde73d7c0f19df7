import DocLint.Line
import Mathlib.Tactic.SplitIfs

/-!
# Kinds of lines and comment delimiters

The kind of a line says whether it opens or closes a comment. Openers come
first in the classification, so a line that closes a comment is never a spacer
and never a line of the interior.
-/

set_option autoImplicit false

namespace DocLint

namespace Text

theorem trimEnd_cons (c : Char) (cs : List Char) :
    trimEnd (c :: cs) = if isBlank c ∧ trimEnd cs = [] then [] else c :: trimEnd cs := by
  rw [trimEnd, trimEnd, List.reverse_cons, List.dropWhile_append]
  by_cases he : cs.reverse.dropWhile isBlank = []
  · by_cases hc : isBlank c = true <;> simp [he, hc]
  · simp [he]

theorem trimEnd_prefix (cs : List Char) : trimEnd cs <+: cs := by
  have h : cs.reverse.dropWhile isBlank <:+ cs.reverse := List.dropWhile_suffix _
  rwa [← List.reverse_prefix, List.reverse_reverse] at h

theorem trim_eq_nil_iff (cs : List Char) : trim cs = [] ↔ ∀ c ∈ cs, isBlank c = true := by
  induction cs with
  | nil => simp [trim, trimStart, trimEnd]
  | cons c cs ih =>
    by_cases hc : isBlank c = true
    · rw [trim, trimStart_cons, if_pos hc, ← trim, ih]
      simp [hc]
    · rw [trim, trimStart_cons, if_neg hc, trimEnd_cons]
      simp [hc]

theorem trimmed_eq_empty_iff (text : String) :
    trimmed text = "" ↔ ∀ c ∈ text.toList, isBlank c = true := by
  rw [trimmed, ← trim_eq_nil_iff]
  exact String.ofList_eq_empty_iff

theorem suffix_trim_iff (c : Char) (rest cs : List Char) (hc : isBlank c = false) :
    (c :: rest) <:+ trim cs ↔ (c :: rest) <:+ trimEnd cs := by
  induction cs with
  | nil => rfl
  | cons b cs ih =>
    by_cases hb : isBlank b = true
    · have hbc : c ≠ b := by
        rintro rfl
        simp [hc] at hb
      rw [trim, trimStart_cons, if_pos hb, ← trim, ih, trimEnd_cons]
      by_cases he : trimEnd cs = []
      · simp [he, hb]
      · simp [he, List.suffix_cons_iff, hbc]
    · rw [trim, trimStart_cons, if_neg hb]

end Text

namespace Line

theorem closesComment_eq (line : Line) :
    line.closesComment = "*/".toList.isSuffixOf (Text.trim line) := by
  rw [Bool.eq_iff_iff, closesComment, List.isSuffixOf_iff_suffix, List.isSuffixOf_iff_suffix]
  exact (Text.suffix_trim_iff '*' ['/'] line (by decide)).symm

theorem opensComment_of_opensDoc (line : Line) (h : line.opensDoc = true) :
    line.opensComment = true := by
  rw [opensDoc, List.isPrefixOf_iff_prefix] at h
  rw [opensComment, List.isPrefixOf_iff_prefix]
  exact List.IsPrefix.trans (by decide) h

theorem kind_cases (line : Line) :
    (line.opensDoc = true ∧ line.kind = .docOpen) ∨
    (line.opensDoc = false ∧ line.opensComment = true ∧ line.kind = .commentOpen) ∨
    (line.opensComment = false ∧ line.kind = .commentClose) ∨
    (line.opensComment = false ∧ line.closesComment = false ∧ line.kind ≠ .docOpen ∧
      line.kind ≠ .commentOpen ∧ line.kind ≠ .commentClose) := by
  rw [closesComment_eq, opensDoc, opensComment, kind, kindOfTrimmed]
  generalize Text.trim line = cs
  by_cases hempty : cs.isEmpty = true
  · rw [List.isEmpty_iff] at hempty
    simp [hempty]
  by_cases hdoc : "/**".toList.isPrefixOf cs = true
  · simp only [hempty, hdoc, Bool.false_eq_true, if_false, if_true, true_and, true_or]
  by_cases hopen : "/*".toList.isPrefixOf cs = true
  · simp only [hempty, hdoc, hopen, Bool.false_eq_true, if_false, if_true, true_and, true_or,
      or_true]
  by_cases hclose : ("*/".toList.isPrefixOf cs || "*/".toList.isSuffixOf cs) = true
  · simp only [hempty, hdoc, hopen, hclose, Bool.false_eq_true, if_false, if_true, true_and,
      true_or, or_true]
  · have hsuffix : "*/".toList.isSuffixOf cs = false := by
      rw [Bool.or_eq_true, not_or] at hclose
      exact Bool.not_eq_true _ ▸ hclose.2
    refine Or.inr (Or.inr (Or.inr ⟨Bool.not_eq_true _ ▸ hopen, hsuffix, ?_⟩))
    simp only [hempty, hdoc, hopen, hclose, Bool.false_eq_true, if_false]
    split_ifs
    · simp
    · simp
    · simp
    · simp
    · cases DeclarationShape.ofText? cs <;> simp

theorem kind_eq_docOpen_iff (line : Line) : line.kind = .docOpen ↔ line.opensDoc = true := by
  have hoc := opensComment_of_opensDoc line
  rcases kind_cases line with ⟨h, hk⟩ | ⟨h, -, hk⟩ | ⟨h, hk⟩ | ⟨h, -, hk, -⟩ <;> simp_all

theorem opensComment_of_kind (line : Line)
    (h : line.kind = .commentInterior ∨ line.kind = .commentClose ∨ line.kind = .blank) :
    line.opensComment = false := by
  rcases kind_cases line with ⟨-, hk⟩ | ⟨-, -, hk⟩ | ⟨ho, -⟩ | ⟨ho, -⟩
  · simp [hk] at h
  · simp [hk] at h
  · exact ho
  · exact ho

theorem closesComment_of_kind (line : Line)
    (h : line.kind = .commentInterior ∨ line.kind = .blank) : line.closesComment = false := by
  rcases kind_cases line with ⟨-, hk⟩ | ⟨-, -, hk⟩ | ⟨-, hk⟩ | ⟨-, hc, -⟩
  · simp [hk] at h
  · simp [hk] at h
  · simp [hk] at h
  · exact hc

theorem kind_of_closesComment (line : Line) (hc : line.closesComment = true)
    (ho : line.opensComment = false) : line.kind = .commentClose := by
  have hoc := opensComment_of_opensDoc line
  rcases kind_cases line with ⟨h, -⟩ | ⟨-, h, -⟩ | ⟨-, hk⟩ | ⟨-, h, -⟩ <;> simp_all

theorem isSpacer_of_closesComment (line : Line) (hc : line.closesComment = true) :
    line.kind.isSpacer = false := by
  rcases kind_cases line with ⟨-, hk⟩ | ⟨-, -, hk⟩ | ⟨-, hk⟩ | ⟨-, h, -⟩
  · simp [hk, LineKind.isSpacer]
  · simp [hk, LineKind.isSpacer]
  · simp [hk, LineKind.isSpacer]
  · simp [hc] at h

end Line

end DocLint
