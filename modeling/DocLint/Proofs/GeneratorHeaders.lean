import DocLint.Proofs.CommentedShapes
import DocLint.Proofs.KeyedLines
import DocLint.Proofs.MemberHeaders

/-!
# Headers of generator methods

The header of a generator method has a star before its name. By the line patterns
it is a function, with or without modifiers; only its form depends on them. No text
with a star behind its modifiers is a class, a variable or a statement.
-/

set_option autoImplicit false

namespace DocLint

namespace DeclarationShape

open Pattern

def Starred (text : List Char) : Prop :=
  ∃ ms : List String, (∀ m ∈ ms, m ∈ memberModifiers) ∧
    ∃ tail, text = Text.spaced (ms.map String.toList) ++ '*' :: tail

theorem isName_memberModifiers :
    (memberModifiers.all fun m => Text.isName m.toList) = true := by decide

theorem isName_of_modifier (m : String) (h : m ∈ memberModifiers) :
    Text.isName m.toList = true := List.all_eq_true.mp isName_memberModifiers m h

theorem starred_word (word : String) (rest : List Char) (h : Starred (word.toList ++ rest))
    (hword : Text.isName word.toList = true) (hrest : rest.head?.any Text.isNameChar = false) :
    word ∈ memberModifiers ∧ ∃ left, rest = ' ' :: left ∧ Starred left := by
  obtain ⟨ms, hms, tail, htext⟩ := h
  cases ms with
  | nil =>
    have hstart := Text.head?_isName word.toList rest hword
    have hstar : Text.isNameStart '*' = true := by simpa [htext, Text.spaced] using hstart
    exact absurd hstar (by decide)
  | cons m ms =>
    rw [List.forall_mem_cons] at hms
    rw [List.map_cons, Text.spaced_cons] at htext
    have hleft := Text.takeWhile_word word.toList rest (Text.nameChar_of_isName _ hword) hrest
    have hright := Text.takeWhile_word m.toList (' ' :: (Text.spaced (ms.map String.toList) ++
      '*' :: tail)) (Text.nameChar_of_isName _ (isName_of_modifier m hms.1)) rfl
    rw [htext] at hleft
    obtain rfl : m = word := String.toList_inj.mp (hright.1.symm.trans hleft.1)
    exact ⟨hms.1, _, hleft.2.symm.trans hright.2, ms, hms.2, tail, rfl⟩

theorem starred_not_blank (text : List Char) (h : Starred text) :
    text.head?.any Text.isBlank = false := by
  obtain ⟨ms, hms, tail, rfl⟩ := h
  apply Text.spaced_not_blank
  · intro word hword
    obtain ⟨m, hm, rfl⟩ := List.mem_map.mp hword
    exact isName_of_modifier m (hms m hm)
  · rfl

theorem starred_keyword (ws : List String) (x rest : List Char)
    (hws : (ws.all fun w => Text.isName w.toList) = true) (hreads : Reads (words ws ++ gap) x rest)
    (h : Starred (x ++ rest)) : (∃ w ∈ ws, w ∈ memberModifiers) ∧ Starred rest := by
  obtain ⟨w, hw, g, rfl, hne, hblank⟩ := (reads_words_gap ws x rest).mp hreads
  cases g with
  | nil => exact absurd rfl hne
  | cons b g =>
    rw [List.forall_mem_cons] at hblank
    rw [List.append_assoc] at h
    obtain ⟨hmodifier, left, hleft, hstarred⟩ := starred_word w _ h
      (List.all_eq_true.mp hws w hw) (Text.not_nameChar_of_blank b hblank.1)
    obtain ⟨-, hleft⟩ := List.cons.inj hleft
    refine ⟨⟨w, hw, hmodifier⟩, ?_⟩
    have hstart := starred_not_blank left hstarred
    cases g with
    | nil =>
      obtain rfl : rest = left := hleft
      exact hstarred
    | cons d g =>
      have hd : Text.isBlank d = false := by simpa [← hleft] using hstart
      rw [hblank.2 d List.mem_cons_self] at hd
      contradiction

def KeepsStar (p : Pattern Char) : Prop :=
  ∀ x rest, Reads p x rest → Starred (x ++ rest) → Starred rest

theorem keepsStar_append (a b : Pattern Char) (ha : KeepsStar a) (hb : KeepsStar b) :
    KeepsStar (a ++ b) := by
  rintro _ rest ⟨x, y, rfl, hx, hy⟩ h
  rw [List.append_assoc] at h
  exact hb y rest hy (ha x (y ++ rest) hx h)

theorem keepsStar_optional (a : Pattern Char) (ha : KeepsStar a) : KeepsStar (optional a) := by
  rintro x rest (rfl | hx) h
  · exact h
  · exact ha x rest hx h

theorem keepsStar_keyword (word : String) (h : Text.isName word.toList = true) :
    KeepsStar (keyword word) := by
  intro x rest hx hstarred
  exact (starred_keyword [word] x rest (by simpa using h) hx hstarred).2

def classLead : Pattern Char :=
  optional (keyword "export" ++ optional (keyword "default")) ++ optional (keyword "declare") ++
    optional (keyword "abstract") ++ optional (keyword "const")

theorem keepsStar_classLead : KeepsStar classLead := by
  have hkeyword (word : String) (h : Text.isName word.toList = true) :=
    keepsStar_optional _ (keepsStar_keyword word h)
  apply keepsStar_append _ _ _ (hkeyword "const" (by decide))
  apply keepsStar_append _ _ _ (hkeyword "abstract" (by decide))
  apply keepsStar_append _ _ _ (hkeyword "declare" (by decide))
  apply keepsStar_optional
  exact keepsStar_append _ _ (keepsStar_keyword "export" (by decide))
    (hkeyword "default" (by decide))

theorem classWords_not_modifiers :
    (["class", "interface", "enum", "namespace", "module"].all fun w =>
      Text.isName w.toList && !memberModifiers.contains w) = true := by decide

theorem classRule_starred (text : List Char) (h : Starred text) :
    classRule.opens text = false := by
  rw [← Bool.not_eq_true, opens_iff]
  rintro ⟨_, rest, rfl, _, tail, rfl, ⟨lead, _, rfl, hlead, hword⟩, htail⟩
  obtain ⟨w, hw, rfl⟩ := (reads_words _ _ _).mp hword
  have hfacts := List.all_eq_true.mp classWords_not_modifiers w hw
  rw [Bool.and_eq_true, Bool.not_eq_true'] at hfacts
  have hend : (tail ++ rest).head?.any Text.isNameChar = false := by
    rcases htail with ⟨c, rfl, hc⟩ | hend
    · rw [Bool.or_eq_true, beq_iff_eq] at hc
      rcases hc with hblank | rfl
      · exact Text.not_nameChar_of_blank c hblank
      · rfl
    · obtain ⟨rfl, rfl⟩ := (reads_atEnd _ _).mp hend
      rfl
  have hstarred : Starred (w.toList ++ (tail ++ rest)) :=
    keepsStar_classLead lead _ (by rwa [← List.append_assoc]) (by simpa using h)
  have hmodifier := (starred_word w (tail ++ rest) hstarred hfacts.1 hend).1
  rw [List.contains_iff_mem.mpr hmodifier] at hfacts
  exact Bool.false_ne_true hfacts.2.symm

theorem variableRule_starred (text : List Char) (h : Starred text) :
    variableRule.opens text = false := by
  have hlead : KeepsStar (optional (keyword "export") ++ optional (keyword "declare")) :=
    keepsStar_append _ _ (keepsStar_optional _ (keepsStar_keyword "export" (by decide)))
      (keepsStar_optional _ (keepsStar_keyword "declare" (by decide)))
  rw [← Bool.not_eq_true, opens_iff]
  rintro ⟨_, rest, rfl, x, y, rfl, hx, hy⟩
  rw [List.append_assoc] at h
  obtain ⟨⟨w, hw, hmodifier⟩, -⟩ :=
    starred_keyword ["const", "let", "var"] y rest (by decide) hy (hlead x (y ++ rest) hx h)
  have hnone : (["const", "let", "var"].all fun w => !memberModifiers.contains w) = true := by
    decide
  have hw := List.all_eq_true.mp hnone w hw
  rw [List.contains_iff_mem.mpr hmodifier] at hw
  exact Bool.false_ne_true hw

theorem modifiers_not_statementWords :
    (statementWords.all fun w => !memberModifiers.contains w) = true := by decide

theorem startsStatement_starred (text : List Char) (h : Starred text) :
    startsStatement text = false := by
  obtain ⟨ms, hms, tail, rfl⟩ := h
  cases ms with
  | nil => rfl
  | cons m ms =>
    rw [List.forall_mem_cons] at hms
    rw [List.map_cons, Text.spaced_cons, startsStatement,
      Text.name?_isName m.toList _ (isName_of_modifier m hms.1) rfl]
    show (statementWords.any fun w => w.toList == m.toList) = false
    rw [List.any_eq_false]
    intro w hw heq
    obtain rfl := String.toList_inj.mp (beq_iff_eq.mp heq)
    have hnone := List.all_eq_true.mp modifiers_not_statementWords w hw
    rw [List.contains_iff_mem.mpr hms.1] at hnone
    exact Bool.false_ne_true hnone

theorem modifiers_announce :
    (memberModifiers.all announcingWords.contains) = true := by decide

theorem explicitForm_modified (m : String) (rest : List Char) (h : m ∈ memberModifiers) :
    explicitForm.opens (m.toList ++ ' ' :: rest) = true := by
  have hword := List.all_eq_true.mp modifiers_announce m h
  refine (opens_iff _ _).mpr ⟨m.toList, ' ' :: rest, rfl, m.toList, [], by simp, ?_, ?_⟩
  · exact (reads_words announcingWords _ _).mpr ⟨m, List.contains_iff_mem.mp hword, rfl⟩
  · exact (reads_wordEnd _ _).mpr ⟨rfl, rfl⟩

theorem explicitForm_star (rest : List Char) : explicitForm.opens ('*' :: rest) = false := by
  have hnone : (announcingWords.all fun w => w.toList.head?.any (· != '*')) = true := by decide
  rw [← Bool.not_eq_true, opens_iff]
  rintro ⟨_, after, htext, _, y, rfl, hword, -⟩
  obtain ⟨w, hw, rfl⟩ := (reads_words announcingWords _ _).mp hword
  have hhead := List.all_eq_true.mp hnone w hw
  cases hchars : w.toList with
  | nil => simp [hchars] at hhead
  | cons c cs =>
    rw [hchars] at htext hhead
    obtain rfl : '*' = c := (List.cons.inj htext).1
    simp at hhead

def isMemberName : List Char → Bool
  | [] => false
  | c :: cs => (Text.isNameStart c || c == '#') && cs.all Text.isNameChar

theorem reads_memberName (name rest : List Char) (h : isMemberName name = true) :
    Reads identifier name rest := by
  cases name with
  | nil => simp [isMemberName] at h
  | cons c cs =>
    rw [isMemberName, Bool.and_eq_true, Bool.or_eq_true, beq_iff_eq, List.all_eq_true] at h
    exact (reads_identifier _ _).mpr ⟨c, cs, rfl, h⟩

theorem reads_no_blanks (rest : List Char) : Reads blanks [] rest := by simp [Reads, blanks]

theorem reads_called (lead : Pattern Char) (x name rest : List Char)
    (hlead : Reads lead x (name ++ '(' :: rest)) (hname : isMemberName name = true) :
    Reads (called lead) (x ++ name ++ ['(']) rest := by
  refine ⟨x ++ name, ['('], rfl, ?_, (reads_text "(" _ _).mpr rfl⟩
  refine ⟨x ++ name, [], by simp, ?_, reads_no_blanks _⟩
  refine ⟨x ++ name, [], by simp, ?_, Or.inl rfl⟩
  refine ⟨x ++ name, [], by simp, ?_, reads_no_blanks _⟩
  exact ⟨x, name, rfl, by simpa using hlead, reads_memberName name _ hname⟩

theorem reads_star (rest : List Char) : Reads accessor ['*'] rest :=
  Or.inr (Or.inr ⟨['*'], [], rfl, (reads_text "*" _ _).mpr rfl, reads_no_blanks _⟩)

theorem reads_modifiers (m : String) (ms : List String) (rest : List Char)
    (h : ∀ k ∈ m :: ms, k ∈ memberModifiers) :
    Reads modifiers (Text.spaced ((m :: ms).map String.toList)) rest := by
  have hone (k : String) (hk : k ∈ memberModifiers) (left : List Char) :
      Reads modifier (k.toList ++ [' ']) left :=
    (reads_words_gap memberModifiers _ _).mpr ⟨k, hk, [' '], rfl, by simp, by simp; decide⟩
  have hmore (ms : List String) (hms : ∀ k ∈ ms, k ∈ memberModifiers) :
      Reads (repeated modifier) (Text.spaced (ms.map String.toList)) rest := by
    induction ms with
    | nil => exact Copies.none rest
    | cons k ms ih =>
      rw [List.forall_mem_cons] at hms
      exact Copies.more _ _ rest (hone k hms.1 _) (ih hms.2)
  rw [List.forall_mem_cons] at h
  exact ⟨m.toList ++ [' '], Text.spaced (ms.map String.toList), rfl, hone m h.1 _, hmore ms h.2⟩

end DeclarationShape

def paramMarks : List Char :=
  ['(', ')', '[', ']', '{', '}', '<', '>', '"', '\x27', '\x60', '/', ';']

/-- The header of a generator method, with plain parameters. -/
structure GeneratorHeader where
  modifiers : List String
  name : List Char
  params : List Char
  modifiers_known : ∀ m ∈ modifiers, m ∈ memberModifiers
  named : DeclarationShape.isMemberName name = true
  params_plain : ∀ c ∈ params, c ∉ paramMarks

namespace GeneratorHeader

open Pattern DeclarationShape

variable (h : GeneratorHeader)

def core : List Char := '*' :: (h.name ++ '(' :: (h.params ++ [')', ' ', '{']))

def text : List Char := Text.spaced (h.modifiers.map String.toList) ++ h.core

theorem starred_text : Starred h.text := ⟨h.modifiers, h.modifiers_known, _, rfl⟩

theorem methodRule_opens_core : methodRule.opens h.core = true := by
  have hcalled : Reads (called accessor) ('*' :: (h.name ++ ['('])) (h.params ++ [')', ' ', '{']) :=
    reads_called accessor ['*'] h.name _ (reads_star _) h.named
  have hparams : Reads parameters (h.params ++ [')', ' ']) ['{'] := by
    refine ⟨h.params ++ [')'], [' '], by simp, ⟨h.params, [')'], rfl, ?_, ?_⟩, ?_⟩
    · intro c hc
      have hmark := h.params_plain c hc
      rw [isNot, bne_iff_ne]
      rintro rfl
      exact hmark (by decide)
    · exact (reads_text ")" _ _).mpr rfl
    · intro c hc
      rw [List.mem_singleton.mp hc]
      decide
  rw [methodRule_eq]
  refine (opens_iff _ _).mpr ⟨h.core, [], by simp, h.core, [], by simp, ?_,
    (reads_atEnd _ _).mpr ⟨rfl, rfl⟩⟩
  refine ⟨h.core, [], by simp, ?_, reads_no_blanks _⟩
  refine ⟨'*' :: (h.name ++ ['(']), h.params ++ [')', ' ', '{'], by simp [core],
    by simpa using hcalled, Or.inl ?_⟩
  refine ⟨h.params ++ [')', ' '], ['{'], by simp, ?_, Or.inr ⟨'{', rfl, by decide⟩⟩
  refine ⟨h.params ++ [')', ' '], [], by simp, ?_, reads_no_blanks _⟩
  exact ⟨h.params ++ [')', ' '], [], by simp, by simpa using hparams, Or.inl rfl⟩

theorem modifiedMethodRule_opens_text (hne : h.modifiers ≠ []) :
    modifiedMethodRule.opens h.text = true := by
  obtain ⟨m, ms, hmodifiers⟩ := List.exists_cons_of_ne_nil hne
  have hlead : Reads (DeclarationShape.modifiers ++ accessor)
      (Text.spaced (h.modifiers.map String.toList) ++ ['*'])
      (h.name ++ '(' :: (h.params ++ [')', ' ', '{'])) := by
    refine ⟨_, ['*'], rfl, ?_, reads_star _⟩
    have hknown := h.modifiers_known
    rw [hmodifiers] at hknown ⊢
    exact reads_modifiers m ms _ hknown
  have hcalled := reads_called _ _ h.name _ hlead h.named
  exact (opens_iff _ _).mpr ⟨_, _, by simp [text, core], hcalled⟩

theorem formOf_text : formOf h.text = if h.modifiers = [] then .bare else .explicit := by
  have hvariable := variableRule_starred h.text h.starred_text
  cases hmodifiers : h.modifiers with
  | nil =>
    have htext : h.text = h.core := by simp [text, hmodifiers, Text.spaced]
    have hexplicit : explicitForm.opens h.core = false := explicitForm_star _
    rw [htext] at hvariable ⊢
    simp [formOf, hvariable, hexplicit]
  | cons m ms =>
    have hexplicit : explicitForm.opens h.text = true := by
      rw [text, hmodifiers, List.map_cons, Text.spaced_cons]
      exact explicitForm_modified m _ (h.modifiers_known m (by simp [hmodifiers]))
    simp [formOf, hvariable, hexplicit]

theorem ofText?_text :
    ofText? h.text = some ⟨.function, if h.modifiers = [] then .bare else .explicit⟩ := by
  have hfunction : functionRules.any (·.opens h.text) = true := by
    rw [List.any_eq_true]
    by_cases hne : h.modifiers = []
    · have htext : h.text = h.core := by simp [text, hne, Text.spaced]
      exact ⟨methodRule, by simp [functionRules], htext ▸ h.methodRule_opens_core⟩
    · exact ⟨modifiedMethodRule, by simp [functionRules], h.modifiedMethodRule_opens_text hne⟩
  rw [ofText?_eq_some_iff, find?_rules, classRule_starred h.text h.starred_text, hfunction]
  exact ⟨startsStatement_starred h.text h.starred_text, h.formOf_text.symm, rfl⟩

end GeneratorHeader

end DocLint
