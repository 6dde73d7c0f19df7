import DocLint.Proofs.LineShapes
import DocLint.Proofs.Ownership

/-!
# Lines of a key and a value

A line with a key, a colon and a value declares nothing outside a class body. The
exceptions are the keys that are spelled like a word that announces a
declaration: what the colon does to such a word is not looked at.
-/

set_option autoImplicit false

namespace DocLint

namespace DeclarationShape

open Pattern

def announcingWords : List String :=
  ["export", "default", "declare", "abstract", "class", "interface", "enum", "namespace",
    "module", "function", "async", "public", "private", "protected", "static", "readonly",
    "override", "accessor"]

/-- The key is such a word, or it goes on with a dollar sign behind one. -/
def SpelledExplicit (key : List Char) : Prop :=
  ∃ w ∈ announcingWords, key = w.toList ∨ ∃ rest, key = w.toList ++ '$' :: rest

theorem nameChar_announcingWords :
    (announcingWords.all fun w => w.toList.all Text.isNameChar) = true := by decide

theorem colon_not_nameChar : Text.isNameChar ':' = false := by decide

theorem prefix_key (key value word rest : List Char) (hword : ∀ c ∈ word, Text.isNameChar c = true)
    (h : key ++ ':' :: value = word ++ rest) : ∃ left, key = word ++ left ∧
      rest = left ++ ':' :: value := by
  rcases List.append_eq_append_iff.mp h with ⟨left, hw, hrest⟩ | ⟨left, hkey, hrest⟩
  · cases left with
    | nil => exact ⟨[], by simpa using hw.symm, hrest.symm⟩
    | cons c left =>
      obtain rfl : ':' = c := (List.cons.inj hrest).1
      have hcolon := hword ':' (by simp [hw])
      rw [colon_not_nameChar] at hcolon
      contradiction
  · exact ⟨left, hkey, hrest⟩

theorem explicitForm_opens_keyed (key value : List Char)
    (hkey : ∀ c ∈ key, Text.isNameChar c = true) :
    explicitForm.opens (key ++ ':' :: value) = true ↔ SpelledExplicit key := by
  have hform : explicitForm = words announcingWords ++ wordEnd := rfl
  rw [opens_iff, hform]
  simp only [reads_append, reads_words, reads_wordEnd]
  constructor
  · rintro ⟨_, rest, htext, _, _, rfl, ⟨w, hw, rfl⟩, rfl, hend⟩
    have hname : ∀ c ∈ w.toList, Text.isNameChar c = true :=
      List.all_eq_true.mp (List.all_eq_true.mp nameChar_announcingWords w hw)
    rw [List.append_nil] at htext
    obtain ⟨left, rfl, rfl⟩ := prefix_key key value w.toList rest hname htext
    refine ⟨w, hw, ?_⟩
    cases left with
    | nil => exact Or.inl (List.append_nil _)
    | cons c left =>
      have hc : (Text.isWordChar c || c == '$') = true := hkey c (by simp)
      have hnot : Text.isWordChar c = false := hend
      rw [hnot, Bool.false_or, beq_iff_eq] at hc
      exact Or.inr ⟨left, by rw [hc]⟩
  · rintro ⟨w, hw, rfl | ⟨rest, rfl⟩⟩
    · have hcolon : Text.isWordChar ':' = false := by decide
      exact ⟨w.toList, ':' :: value, rfl, w.toList, [], by simp, ⟨w, hw, rfl⟩, rfl, hcolon⟩
    · have hdollar : Text.isWordChar '$' = false := by decide
      exact ⟨w.toList, '$' :: rest ++ ':' :: value, by simp, w.toList, [], by simp, ⟨w, hw, rfl⟩,
        rfl, hdollar⟩

theorem not_reads_keyword_keyed (ws : List String) (key value passage rest : List Char)
    (hws : ∀ w ∈ ws, ∀ c ∈ w.toList, Text.isNameChar c = true)
    (hkey : ∀ c ∈ key, Text.isNameChar c = true) (h : key ++ ':' :: value = passage ++ rest) :
    ¬ Reads (words ws ++ gap) passage rest := by
  rw [reads_words_gap]
  rintro ⟨w, hw, g, rfl, hne, hblank⟩
  rw [List.append_assoc] at h
  obtain ⟨left, rfl, hleft⟩ := prefix_key key value w.toList _ (hws w hw) h
  cases g with
  | nil => exact hne rfl
  | cons b g =>
    have hb : Text.isBlank b = true := hblank b List.mem_cons_self
    cases left with
    | nil =>
      obtain rfl : b = ':' := (List.cons.inj hleft).1
      revert hb
      decide
    | cons c left =>
      obtain rfl : b = c := (List.cons.inj hleft).1
      have hc := hkey b (by simp)
      rw [Text.not_nameChar_of_blank b hb] at hc
      contradiction

theorem variableRule_opens_keyed (key value : List Char)
    (hkey : ∀ c ∈ key, Text.isNameChar c = true) :
    variableRule.opens (key ++ ':' :: value) = false := by
  have hwords : (["export", "declare", "const", "let", "var"].all fun w =>
      w.toList.all Text.isNameChar) = true := by decide
  have hfirst (ws : List String) (hsub : ws ⊆ ["export", "declare", "const", "let", "var"])
      (passage rest : List Char) (h : key ++ ':' :: value = passage ++ rest) :
      ¬ Reads (words ws ++ gap) passage rest := by
    apply not_reads_keyword_keyed ws key value passage rest _ hkey h
    intro w hw
    exact List.all_eq_true.mp (List.all_eq_true.mp hwords w (hsub hw))
  rw [← Bool.not_eq_true, opens_iff]
  rintro ⟨_, rest, htext, _, bound, rfl, ⟨exported, declared, rfl, hexport, hdeclare⟩, hbinder⟩
  rcases hexport with rfl | hexport
  · rcases hdeclare with rfl | hdeclare
    · exact hfirst _ (by simp) bound rest htext hbinder
    · exact hfirst ["declare"] (by simp) declared _ (by simpa using htext) hdeclare
  · exact hfirst ["export"] (by simp) exported _ (by simpa using htext) hexport

theorem memberRule_opens_keyed (c : Char) (key value : List Char)
    (hc : Text.isNameStart c = true) (hkey : ∀ d ∈ key, Text.isNameChar d = true) :
    memberRule.opens (c :: key ++ ':' :: value) = true := by
  rw [opens_iff]
  refine ⟨c :: key ++ [':'], value, by simp, c :: key, [':'], rfl, ?_, ?_⟩
  · refine ⟨c :: key, [], by simp, ⟨c :: key, [], by simp, ?_, Or.inl rfl⟩, by simp [Reads, blanks]⟩
    exact (reads_identifier _ _).mpr ⟨c, key, rfl, Or.inl hc, hkey⟩
  · exact Or.inl ((reads_text ":" _ _).mpr rfl)

theorem startsStatement_keyed (c : Char) (key value : List Char)
    (hc : Text.isNameStart c = true) (hkey : ∀ d ∈ key, Text.isNameChar d = true) :
    startsStatement (c :: key ++ ':' :: value) = true ↔
      ∃ w ∈ statementWords, w.toList = c :: key := by
  rw [startsStatement, Text.name?_word c key (':' :: value) hkey colon_not_nameChar, if_pos hc]
  simp

theorem announcing_statement_words : (announcingWords.all fun w =>
    Text.isName w.toList && (w == "default" || !statementWords.contains w)) = true := by
  decide

theorem dollar_not_statementWords :
    (statementWords.all fun w => !w.toList.contains '$') = true := by
  decide

theorem nameStart_of_spelledExplicit (key : List Char) (h : SpelledExplicit key) :
    ∃ c cs, key = c :: cs ∧ Text.isNameStart c = true := by
  obtain ⟨w, hw, hkey⟩ := h
  have hfacts := List.all_eq_true.mp announcing_statement_words w hw
  rw [Bool.and_eq_true] at hfacts
  cases hword : w.toList with
  | nil =>
    rw [hword] at hfacts
    exact absurd hfacts.1 (by decide)
  | cons c cs =>
    rw [hword, Text.isName, Bool.and_eq_true] at hfacts
    rcases hkey with rfl | ⟨rest, rfl⟩
    · exact ⟨c, cs, hword, hfacts.1.1⟩
    · exact ⟨c, cs ++ '$' :: rest, by rw [hword, List.cons_append], hfacts.1.1⟩

theorem startsStatement_of_spelledExplicit (key value : List Char)
    (hkey : ∀ c ∈ key, Text.isNameChar c = true) (h : SpelledExplicit key) :
    startsStatement (key ++ ':' :: value) = true ↔ key = "default".toList := by
  obtain ⟨c, cs, rfl, hc⟩ := nameStart_of_spelledExplicit key h
  rw [List.forall_mem_cons] at hkey
  rw [startsStatement_keyed c cs value hc hkey.2]
  constructor
  · rintro ⟨s, hs, hword⟩
    obtain ⟨w, hw, hspelled | ⟨rest, hspelled⟩⟩ := h
    · obtain rfl : s = w := String.toList_inj.mp (hword.trans hspelled)
      have hfacts := List.all_eq_true.mp announcing_statement_words s hw
      simp only [Bool.and_eq_true, Bool.or_eq_true, beq_iff_eq, Bool.not_eq_true',
        List.contains_eq_mem, decide_eq_false_iff_not] at hfacts
      rcases hfacts.2 with rfl | hnot
      · exact hword.symm
      · exact absurd hs hnot
    · have hnone := List.all_eq_true.mp dollar_not_statementWords s hs
      rw [hword, hspelled] at hnone
      simp at hnone
  · intro hdefault
    exact ⟨"default", by decide, hdefault.symm⟩

theorem formOf_keyed (key value : List Char) (hkey : ∀ c ∈ key, Text.isNameChar c = true) :
    (SpelledExplicit key ∧ formOf (key ++ ':' :: value) = .explicit) ∨
      (¬ SpelledExplicit key ∧ formOf (key ++ ':' :: value) = .bare) := by
  have hbinding := variableRule_opens_keyed key value hkey
  have hexplicit := explicitForm_opens_keyed key value hkey
  by_cases h : SpelledExplicit key
  · exact Or.inl ⟨h, by simp [formOf, hbinding, hexplicit.mpr h]⟩
  · have hnot : explicitForm.opens (key ++ ':' :: value) = false := by
      rw [← Bool.not_eq_true, hexplicit]
      exact h
    exact Or.inr ⟨h, by simp [formOf, hbinding, hnot]⟩

/-- A key spelled like an announcing word makes a property or function of any scope, but for the
key that starts a case of a statement. -/
theorem ofText?_keyed (key value : List Char) (hkey : ∀ c ∈ key, Text.isNameChar c = true)
    (h : SpelledExplicit key) :
    if key = "default".toList then ofText? (key ++ ':' :: value) = none
    else ∃ kind, ofText? (key ++ ':' :: value) = some ⟨kind, .explicit⟩ := by
  have hform : formOf (key ++ ':' :: value) = .explicit := by
    rcases formOf_keyed key value hkey with ⟨-, hform⟩ | ⟨hnot, -⟩
    · exact hform
    · exact absurd h hnot
  have hstatement := startsStatement_of_spelledExplicit key value hkey h
  split
  · next hdefault => rw [ofText?, if_pos (hstatement.mpr hdefault)]
  · next hdefault =>
    obtain ⟨c, cs, rfl, hc⟩ := nameStart_of_spelledExplicit key h
    rw [List.forall_mem_cons] at hkey
    have hmember := memberRule_opens_keyed c cs value hc hkey.2
    have hsome :
        (rules.find? fun rule => rule.1.opens (c :: cs ++ ':' :: value)).isSome = true := by
      rw [List.find?_isSome]
      exact ⟨(memberRule, .property), by simp [rules], hmember⟩
    obtain ⟨rule, hrule⟩ := Option.isSome_iff_exists.mp hsome
    refine ⟨rule.2, ?_⟩
    rw [ofText?, if_neg (fun hs => hdefault (hstatement.mp hs)), hrule, Option.map_some, hform]

end DeclarationShape

namespace Line

theorem head_plainMarks :
    (plainMarks.all fun mark => mark.toList.head?.any fun c => !Text.isNameChar c) = true := by
  decide

/-- A line that starts with a name character declares something if it has a shape and does not
end in a comment. -/
theorem kind_eq_declaration_iff (line : Line) (c : Char) (cs : List Char)
    (shape : DeclarationShape) (htrim : Text.trim line = c :: cs)
    (hc : Text.isNameChar c = true) :
    line.kind = .declaration shape ↔
      line.closesComment = false ∧ DeclarationShape.ofText? (c :: cs) = some shape := by
  have hmarks : ∀ mark ∈ plainMarks, ¬ mark.toList <+: c :: cs := by
    intro mark hmark hprefix
    have hhead := List.all_eq_true.mp head_plainMarks mark hmark
    cases hchars : mark.toList with
    | nil => simp [hchars] at hhead
    | cons d ds =>
      rw [hchars, List.cons_prefix_cons] at hprefix
      simp [hchars, hprefix.1, hc] at hhead
  rw [kind, kindOfTrimmed_eq_declaration_iff, closesComment_eq, htrim, ← Bool.not_eq_true,
    List.isSuffixOf_iff_suffix]
  simp only [ne_eq, reduceCtorEq, not_false_eq_true, true_and, and_iff_right hmarks]

end Line

open DeclarationShape in
/-- Outside a class body, a line of a key and a value declares nothing if and only if its key is
not spelled like an announcing word, or is the one that starts a case of a statement, or the line
is taken for a comment or stands between parentheses. -/
theorem keyed_line_declares_nothing_iff (lines : List Line) (index : Nat) (line : Line)
    (key value : List Char) (hline : lines[index]? = some line)
    (htrim : Text.trim line = key ++ ':' :: value) (hne : key ≠ [])
    (hkey : ∀ c ∈ key, Text.isNameChar c = true)
    (hscope : enclosingScope lines index ≠ .classBody) :
    declarationAt lines index = none ↔
      ¬ SpelledExplicit key ∨ key = "default".toList ∨ line.closesComment = true ∨
        insideOpenParen lines index = true := by
  have hkind (shape : DeclarationShape) : line.kind = .declaration shape ↔
      line.closesComment = false ∧ ofText? (key ++ ':' :: value) = some shape := by
    cases key with
    | nil => exact absurd rfl hne
    | cons c cs =>
      exact line.kind_eq_declaration_iff c _ shape htrim (hkey c List.mem_cons_self)
  constructor
  · intro hnone
    by_cases hspelled : SpelledExplicit key
    · by_cases hdefault : key = "default".toList
      · exact Or.inr (Or.inl hdefault)
      by_cases hclose : line.closesComment = true
      · exact Or.inr (Or.inr (Or.inl hclose))
      by_cases hparen : insideOpenParen lines index = true
      · exact Or.inr (Or.inr (Or.inr hparen))
      have hshape := ofText?_keyed key value hkey hspelled
      rw [if_neg hdefault] at hshape
      obtain ⟨kind, hshape⟩ := hshape
      have hsome := (declarationAt_eq_some_iff lines index ⟨index, kind⟩).mpr
        ⟨line, _, hline, (hkind _).mpr ⟨Bool.eq_false_iff.mpr hclose, hshape⟩, rfl,
          Bool.eq_false_iff.mpr hparen, rfl⟩
      rw [hnone] at hsome
      contradiction
    · exact Or.inl hspelled
  · intro hreason
    rw [Option.eq_none_iff_forall_ne_some]
    intro d hd
    obtain ⟨line', shape, hline', hdeclares, haccepts, hparen, -⟩ :=
      (declarationAt_eq_some_iff lines index d).mp hd
    obtain rfl : line = line' := Option.some.inj (hline.symm.trans hline')
    obtain ⟨hclose, hshape⟩ := (hkind shape).mp hdeclares
    rcases hreason with hspelled | rfl | hclose' | hparen'
    · have hform : shape.form = .bare := by
        rw [((ofText?_eq_some_iff _ shape).mp hshape).2.1]
        exact ((formOf_keyed key value hkey).resolve_left fun h => hspelled h.1).2
      rw [Scope.accepts, hform, beq_iff_eq] at haccepts
      exact hscope haccepts
    · have hnone := ofText?_keyed "default".toList value hkey ⟨"default", by decide, Or.inl rfl⟩
      rw [if_pos rfl, hshape] at hnone
      exact Option.some_ne_none shape hnone
    · rw [hclose] at hclose'
      contradiction
    · rw [hparen] at hparen'
      contradiction

def servedFiles : List Line :=
  ["const served = \x7b", "  staticFiles: 3,", "\x7d;"].map String.toList

theorem longer_key_declares_nothing :
    enclosingScope servedFiles 1 = .block ∧ declarationAt servedFiles 1 = none := by
  have hscope : enclosingScope servedFiles 1 = .block := by decide
  have hkey : ∀ c ∈ "staticFiles".toList, Text.isNameChar c = true :=
    List.all_eq_true.mp (by decide)
  have hspelled : ¬ DeclarationShape.SpelledExplicit "staticFiles".toList := by
    rw [← DeclarationShape.explicitForm_opens_keyed _ " 3,".toList hkey]
    decide
  exact ⟨hscope, (keyed_line_declares_nothing_iff servedFiles 1 "  staticFiles: 3,".toList
    "staticFiles".toList " 3,".toList rfl (by decide) (by decide) hkey
    (by simp [hscope])).mpr (Or.inl hspelled)⟩

/-- An object whose key is an announcing word: the line is taken for a declaration. -/
def servedOptions : List Line :=
  ["const options = \x7b", "  static: true,", "\x7d;"].map String.toList

theorem announcing_key_declares_property :
    enclosingScope servedOptions 1 = .block ∧
      declarationAt servedOptions 1 = some ⟨1, .property⟩ := by decide

end DocLint
