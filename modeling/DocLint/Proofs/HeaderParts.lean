import DocLint.Proofs.Names
import DocLint.Proofs.NestedText

/-!
# The parts of a header

A header is words with blanks between them, then parameters in parentheses, then
what follows the parentheses. Each part is read back from its place, whatever
nested texts the parameters are.
-/

set_option autoImplicit false

namespace DocLint

namespace Text

theorem trimStart_eq_self (cs : List Char) (h : cs.head?.any isBlank = false) :
    trimStart cs = cs := by
  cases cs with
  | nil => rfl
  | cons c cs =>
    have hc : isBlank c = false := h
    rw [trimStart_cons, hc]
    rfl

theorem trimEnd_append (a b : List Char) (h : trimEnd b ≠ []) :
    trimEnd (a ++ b) = a ++ trimEnd b := by
  induction a with
  | nil => rfl
  | cons c a ih =>
    have hne : ¬ (isBlank c = true ∧ trimEnd (a ++ b) = []) := by simp [ih, h]
    rw [List.cons_append, trimEnd_cons, if_neg hne, ih]
    rfl

theorem trimEnd_behind (a b : List Char) (c : Char) (hc : isBlank c = false) :
    trimEnd (a ++ c :: b) = a ++ c :: trimEnd b := by
  have hend : trimEnd (c :: b) = c :: trimEnd b := by simp [trimEnd_cons, hc]
  rw [trimEnd_append a _ (by simp [hend]), hend]

theorem trim_behind (a b : List Char) (c : Char)
    (hstart : (a ++ c :: b).head?.any isBlank = false) (hc : isBlank c = false) :
    trim (a ++ c :: b) = a ++ c :: trimEnd b := by
  rw [trim, trimStart_eq_self _ hstart, trimEnd_behind a b c hc]

theorem trim_concat (a : List Char) (c : Char) (hstart : (a ++ [c]).head?.any isBlank = false)
    (hc : isBlank c = false) : trim (a ++ [c]) = a ++ [c] :=
  trim_behind a [] c hstart hc

theorem trim_append_blank (cs : List Char) : trim (cs ++ [' ']) = trim cs := by
  have hend (text : List Char) : trimEnd (text ++ [' ']) = trimEnd text := by
    rw [trimEnd, List.reverse_append]
    rfl
  rw [trim, trim, trimStart, trimStart, List.dropWhile_append]
  by_cases hblank : cs.dropWhile isBlank = []
  · rw [hblank]
    rfl
  · rw [if_neg (by simpa using hblank), hend]

theorem head?_trimEnd (p : Char → Bool) (cs : List Char) (h : cs.head?.any p = false) :
    (trimEnd cs).head?.any p = false := by
  cases cs with
  | nil => rfl
  | cons c cs =>
    rw [trimEnd_cons]
    split
    · rfl
    · exact h

theorem exists_trim (cs : List Char) : ∃ front back, cs = front ++ (trim cs ++ back) ∧
    (∀ c ∈ front, isBlank c = true) ∧ ∀ c ∈ back, isBlank c = true := by
  have hback : trimStart cs =
      trimEnd (trimStart cs) ++ ((trimStart cs).reverse.takeWhile isBlank).reverse := by
    rw [trimEnd, ← List.reverse_append, List.takeWhile_append_dropWhile, List.reverse_reverse]
  refine ⟨cs.takeWhile isBlank, ((trimStart cs).reverse.takeWhile isBlank).reverse, ?_, ?_, ?_⟩
  · rw [trim, ← hback, trimStart, List.takeWhile_append_dropWhile]
  · exact List.all_eq_true.mp List.all_takeWhile
  · intro c hc
    exact List.all_eq_true.mp List.all_takeWhile c (List.mem_reverse.mp hc)

theorem cutAt_append (sep : Char) (a b : List Char) (h : sep ∉ a) :
    cutAt sep (a ++ sep :: b) = some (a, b) := by
  induction a with
  | nil => simp [cutAt]
  | cons c a ih =>
    rw [List.mem_cons, not_or] at h
    simp [cutAt, Ne.symm h.1, ih h.2]

def spaced (words : List (List Char)) : List Char := words.flatMap (· ++ [' '])

theorem spaced_cons (word : List Char) (words : List (List Char)) (rest : List Char) :
    spaced (word :: words) ++ rest = word ++ ' ' :: (spaced words ++ rest) := by
  simp [spaced]

theorem length_le_spaced (words : List (List Char)) : words.length ≤ (spaced words).length := by
  induction words with
  | nil => exact Nat.le_refl 0
  | cons word words ih =>
    rw [spaced] at ih
    simp only [spaced, List.flatMap_cons, List.length_append, List.length_cons, List.length_nil]
    omega

theorem head?_isName (name rest : List Char) (h : isName name = true) :
    (name ++ rest).head?.any isNameStart = true := by
  cases name with
  | nil => simp [isName] at h
  | cons c name =>
    rw [isName, Bool.and_eq_true] at h
    exact h.1

theorem head?_not_blank (cs : List Char) (h : cs.head?.any isNameStart = true) :
    cs.head?.any isBlank = false := by
  cases cs with
  | nil => rfl
  | cons c cs => exact not_blank_of_nameChar c (nameChar_of_nameStart c h)

theorem head?_ne (d : Char) (cs : List Char) (h : cs.head?.any isNameStart = true)
    (hd : isNameStart d = false) : cs.head? ≠ some d := by
  intro heq
  rw [heq, Option.any_some, hd] at h
  contradiction

theorem head?_spaced (words : List (List Char)) (rest : List Char)
    (hwords : ∀ word ∈ words, isName word = true) :
    words = [] ∨ (spaced words ++ rest).head?.any isNameStart = true := by
  cases words with
  | nil => exact Or.inl rfl
  | cons word words =>
    rw [spaced_cons]
    exact Or.inr (head?_isName word _ (hwords word List.mem_cons_self))

theorem spaced_not_blank (words : List (List Char)) (rest : List Char)
    (hwords : ∀ word ∈ words, isName word = true) (hrest : rest.head?.any isBlank = false) :
    (spaced words ++ rest).head?.any isBlank = false := by
  rcases head?_spaced words rest hwords with rfl | hstart
  · exact hrest
  · exact head?_not_blank _ hstart

end Text

theorem not_bracket_of_nameChar (c : Char) (h : Text.isNameChar c = true) :
    isBracket c = false := by
  rw [isBracket, List.any_eq_false]
  intro p hp hcp
  rw [Bool.or_eq_true, beq_iff_eq, beq_iff_eq] at hcp
  have hpair : Text.isNameChar p.1 = false ∧ Text.isNameChar p.2 = false := by
    rcases pair_cases p.1 p.2 hp with ⟨h₁, h₂⟩ | ⟨h₁, h₂⟩ | ⟨h₁, h₂⟩ | ⟨h₁, h₂⟩ <;>
      rw [h₁, h₂] <;> decide
  rcases hcp with rfl | rfl
  · simp [hpair.1] at h
  · simp [hpair.2] at h

namespace Nested

theorem of_word (out word : List Char) (hword : ∀ c ∈ word, Text.isNameChar c = true)
    (hout : out.any Text.isNameChar = false) : Nested out word := by
  apply of_no_brackets
  rw [List.all_eq_true]
  intro c hc
  have hchar := hword c hc
  rw [List.any_eq_false] at hout
  have hmem : c ∉ out := fun hmem => hout c hmem hchar
  simp [not_bracket_of_nameChar c hchar, hmem]

theorem of_isName (out name : List Char) (h : Text.isName name = true)
    (hout : out.any Text.isNameChar = false) : Nested out name :=
  of_word out name (Text.nameChar_of_isName name h) hout

theorem spaced (out : List Char) (words : List (List Char))
    (hwords : ∀ word ∈ words, Text.isName word = true) (hout : out.any Text.isNameChar = false)
    (hblank : ' ' ∉ out) : Nested out (Text.spaced words) :=
  flatMap out words _ fun word hword =>
    (of_isName out word (hwords word hword) hout).append
      (char out [] ' ' (by decide) hblank (nil out))

theorem join (texts : List (List Char)) (h : ∀ t ∈ texts, Nested [','] t) :
    Nested [] (Text.join ", ".toList texts) := by
  cases texts with
  | nil => exact nil []
  | cons t ts =>
    rw [List.forall_mem_cons] at h
    rw [Text.join_cons]
    exact h.1.mono.append (flatMap [] ts _ fun u hu =>
      (of_no_brackets [] ", ".toList (by decide)).append (h.2 u hu).mono)

end Nested

namespace Signature

theorem dropModifiers_none (fuel : Nat) (cs : List Char)
    (h : ∀ m ∈ paramModifiers, afterKeyword? m cs = none) : dropModifiers fuel cs = cs := by
  cases fuel with
  | zero => rfl
  | succ fuel => rw [dropModifiers, List.findSome?_eq_none_iff.mpr h]

theorem dropEllipses_stop (cs : List Char) (h : cs.head? ≠ some '.') : dropEllipses cs = cs := by
  cases cs with
  | nil => rfl
  | cons c cs =>
    have hc : c ≠ '.' := by simpa using h
    rw [dropEllipses]
    simp [hc]

theorem paramName?_blank (param : List Char) : paramName? (' ' :: param) = paramName? param := rfl

theorem splitCommas_last (t : List Char) (ht : Nested [','] t) (prev : Char) :
    splitCommas 0 prev [] t = [t] := by
  have hwhole := splitCommas_nested t ht prev [] []
  rw [List.append_nil] at hwhole
  rw [hwhole, splitCommas]
  simp

theorem splitCommas_piece (t rest : List Char) (ht : Nested [','] t) (prev : Char) :
    splitCommas 0 prev [] (t ++ ',' :: rest) = t :: splitCommas 0 ',' [] rest := by
  have hcomma (prev : Char) (current : List Char) :
      splitCommas 0 prev current (',' :: rest) = current.reverse :: splitCommas 0 ',' [] rest := rfl
  rw [splitCommas_nested t ht, hcomma]
  simp

theorem splitCommas_pieces (t : List Char) (ts : List (List Char)) (ht : Nested [','] t)
    (hts : ∀ u ∈ ts, Nested [','] u) (prev : Char) :
    splitCommas 0 prev [] (t ++ ts.flatMap (',' :: ·)) = t :: ts := by
  induction ts generalizing t prev with
  | nil => simpa using splitCommas_last t ht prev
  | cons u ts ih =>
    rw [List.forall_mem_cons] at hts
    rw [List.flatMap_cons, List.cons_append, splitCommas_piece t _ ht, ih u hts.1 hts.2]

theorem splitParams_join (texts : List (List Char)) (h : ∀ t ∈ texts, Nested [','] t) :
    splitParams (Text.join ", ".toList texts) = texts.filterMap paramName? := by
  cases texts with
  | nil => rfl
  | cons t ts =>
    rw [List.forall_mem_cons] at h
    have hjoin : Text.join ", ".toList (t :: ts) =
        t ++ (ts.map (' ' :: ·)).flatMap (',' :: ·) := by
      rw [Text.join_cons, List.flatMap_map]
      rfl
    have hblank : ∀ u ∈ ts.map (' ' :: ·), Nested [','] u := by
      rw [List.forall_mem_map]
      exact fun u hu => .char [','] u ' ' (by decide) (by decide) (h.2 u hu)
    rw [hjoin, splitParams, splitCommas_pieces t _ h.1 hblank, List.filterMap_cons,
      List.filterMap_map, List.filterMap_cons]
    rfl

theorem calleeAt?_spaced (c : Char) (word rest : List Char)
    (hword : ∀ d ∈ word, Text.isNameChar d = true)
    (hrest : rest.head?.any Text.isNameStart = true) :
    calleeAt? (c :: word ++ ' ' :: rest) = none := by
  rw [calleeAt?, Text.name?_word c word _ hword rfl]
  by_cases hc : Text.isNameStart c = true
  · have hopens : opensParams (' ' :: rest) = false := by
      cases rest with
      | nil => rfl
      | cons d rest =>
        have hparen : d ≠ '(' := by simpa using Text.head?_ne '(' (d :: rest) hrest rfl
        have hangle : d ≠ '<' := by simpa using Text.head?_ne '<' (d :: rest) hrest rfl
        have htrim : Text.trimStart (' ' :: d :: rest) = d :: rest :=
          Text.trimStart_eq_self (d :: rest) (Text.head?_not_blank _ hrest)
        rw [opensParams, htrim]
        simp [hparen, hangle]
    simp [hc, hopens]
  · simp [hc]

theorem firstAt_calleeAt?_word (word rest : List Char)
    (hword : ∀ d ∈ word, Text.isNameChar d = true)
    (hrest : rest.head?.any Text.isNameStart = true) :
    Text.firstAt calleeAt? (word ++ ' ' :: rest) = Text.firstAt calleeAt? rest := by
  induction word with
  | nil =>
    have hblank : calleeAt? (' ' :: rest) = none := rfl
    rw [List.nil_append, Text.firstAt, hblank]
  | cons c word ih =>
    rw [List.forall_mem_cons] at hword
    have hnone : calleeAt? (c :: (word ++ ' ' :: rest)) = none :=
      calleeAt?_spaced c word rest hword.2 hrest
    rw [List.cons_append, Text.firstAt, hnone]
    exact ih hword.2

theorem calleeAt?_name (name rest : List Char) (h : Text.isName name = true) :
    calleeAt? (name ++ '(' :: rest) = some name := by
  rw [calleeAt?, Text.name?_isName name ('(' :: rest) h rfl]
  rfl

theorem firstAt_calleeAt?_spaced (words : List (List Char)) (name rest : List Char)
    (hwords : ∀ word ∈ words, Text.isName word = true) (hname : Text.isName name = true) :
    Text.firstAt calleeAt? (Text.spaced words ++ (name ++ '(' :: rest)) = some name := by
  induction words with
  | nil =>
    have hcallee := calleeAt?_name name rest hname
    rw [Text.spaced, List.flatMap_nil, List.nil_append]
    cases htext : name ++ '(' :: rest with
    | nil => simp at htext
    | cons c cs =>
      rw [htext] at hcallee
      rw [Text.firstAt, hcallee]
  | cons word words ih =>
    rw [List.forall_mem_cons] at hwords
    have hnext :
        (Text.spaced words ++ (name ++ '(' :: rest)).head?.any Text.isNameStart = true := by
      rcases Text.head?_spaced words (name ++ '(' :: rest) hwords.2 with rfl | hnext
      · exact Text.head?_isName name ('(' :: rest) hname
      · exact hnext
    rw [Text.spaced_cons,
      firstAt_calleeAt?_word word _ (Text.nameChar_of_isName word hwords.1) hnext, ih hwords.2]

def bindingWords : List String := ["export", "const", "let", "var"]

theorem variableName?_eq_none (header : List Char)
    (h : ∀ k ∈ bindingWords, afterKeyword? k header = none) : variableName? header = none := by
  simp only [bindingWords, List.forall_mem_cons] at h
  simp [variableName?, h.1, h.2.1, h.2.2.1, h.2.2.2.1]

theorem nameOf?_spaced (words : List (List Char)) (name rest : List Char)
    (hwords : ∀ word ∈ words, Text.isName word = true)
    (hbinds : ∀ k ∈ bindingWords, k.toList ∉ words) (hname : Text.isName name = true) :
    nameOf? (Text.spaced words ++ (name ++ '(' :: rest)) = some name := by
  have hnone : variableName? (Text.spaced words ++ (name ++ '(' :: rest)) = none := by
    apply variableName?_eq_none
    intro k hk
    have hkeyword : Text.isName k.toList = true ∧ '(' ∉ k.toList :=
      (by decide : ∀ k ∈ bindingWords, Text.isName k.toList = true ∧ '(' ∉ k.toList) k hk
    cases words with
    | nil =>
      exact afterKeyword?_name k name rest '(' (Text.nameChar_of_isName name hname) (by decide)
        hkeyword.2
    | cons word words =>
      have hne : k.toList ≠ word := fun heq => hbinds k hk (heq ▸ List.mem_cons_self)
      rw [Text.spaced_cons]
      exact afterKeyword?_word k word _ hkeyword.1
        (Text.nameChar_of_isName word (hwords word List.mem_cons_self)) rfl hne
  rw [nameOf?, hnone]
  exact firstAt_calleeAt?_spaced words name rest hwords hname

theorem ofHeader_spaced (words : List (List Char)) (name inner behind : List Char)
    (hwords : ∀ word ∈ words, Text.isName word = true)
    (hbinds : ∀ k ∈ bindingWords, k.toList ∉ words) (hname : Text.isName name = true)
    (hinner : Nested [] inner) :
    ofHeader (Text.spaced words ++ (name ++ '(' :: (inner ++ ')' :: behind))) =
      ⟨some name, splitParams inner, returnType? behind⟩ := by
  have hparen : '(' ∉ Text.spaced words ++ name := by
    simp only [Text.spaced, List.mem_append, List.mem_flatMap, not_or, not_exists, not_and]
    exact ⟨fun word hword => ⟨Text.not_mem_of_isName word '(' (hwords word hword) (by decide),
      by decide⟩, Text.not_mem_of_isName name '(' hname (by decide)⟩
  have hcut : cutParams 0 (inner ++ ')' :: behind) = (inner, behind) := by
    rw [cutParams_nested [] inner hinner]
    simp [cutParams]
  rw [ofHeader, nameOf?_spaced words name _ hwords hbinds hname, ← List.append_assoc,
    Text.cutAt_append '(' _ _ hparen]
  dsimp only
  rw [hcut]

end Signature

end DocLint
