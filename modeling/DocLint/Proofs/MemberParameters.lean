import DocLint.Proofs.HeaderParts

/-!
# Parameters of a member

A parameter is written with modifiers, dots, a word or a pattern, a mark, a type
and a value, most of which may be left out. Whatever its nested parts are, it is
one piece of a parameter list, and the name that it declares is read from it.
-/

set_option autoImplicit false

namespace DocLint

def patternPairs : List (Char × Char) := [('{', '}'), ('[', ']')]

/-- What a parameter binds: a word that is no modifier, or a pattern. -/
inductive ParamTarget where
  | named (word : List Char) (nonempty : word ≠ []) (chars : word.all Text.isNameChar = true)
      (notModifier : ∀ m ∈ Signature.paramModifiers, m.toList ≠ word)
  | pattern (o c : Char) (inner : List Char) (pair : (o, c) ∈ patternPairs)
      (nested : Nested [] inner)

/-- A parameter of a member, as a header gives it. -/
structure MemberParam where
  modifiers : List String
  variadic : Bool
  target : ParamTarget
  isOptional : Bool
  type : Option (List Char)
  value : Option (List Char)
  modifiers_known : ∀ m ∈ modifiers, m ∈ Signature.paramModifiers
  type_nested : ∀ t ∈ type, Nested [','] t
  value_nested : ∀ v ∈ value, Nested [','] v

namespace Signature

theorem isName_paramModifier : ∀ m ∈ paramModifiers, Text.isName m.toList = true := by decide

theorem afterKeyword?_no_word (cs : List Char) (h : cs.head?.any Text.isNameChar = false) :
    ∀ m ∈ paramModifiers, afterKeyword? m cs = none := by
  intro m hm
  have hname := isName_paramModifier m hm
  apply afterKeyword?_word m [] cs hname (by simp) h
  intro hnil
  simp [hnil, Text.isName] at hname

theorem isName_modifiers (modifiers : List String)
    (hknown : ∀ m ∈ modifiers, m ∈ paramModifiers) :
    ∀ word ∈ modifiers.map String.toList, Text.isName word = true :=
  List.forall_mem_map.mpr fun m hm => isName_paramModifier m (hknown m hm)

theorem dropModifiers_spaced (modifiers : List String) (core : List Char) (fuel : Nat)
    (hknown : ∀ m ∈ modifiers, m ∈ paramModifiers) (hfuel : modifiers.length ≤ fuel)
    (hstart : core.head?.any Text.isBlank = false)
    (hnone : ∀ m ∈ paramModifiers, afterKeyword? m core = none) :
    dropModifiers fuel (Text.spaced (modifiers.map String.toList) ++ core) = core := by
  induction modifiers generalizing fuel with
  | nil => exact dropModifiers_none fuel core hnone
  | cons m modifiers ih =>
    rw [List.forall_mem_cons] at hknown
    cases fuel with
    | zero => simp at hfuel
    | succ fuel =>
      have hrest := Text.spaced_not_blank _ core (isName_modifiers modifiers hknown.2) hstart
      rw [List.map_cons, Text.spaced_cons, dropModifiers,
        findSome?_afterKeyword? paramModifiers m _ isName_paramModifier hknown.1,
        Text.trimStart_eq_self _ hrest]
      exact ih fuel hknown.2 (by simpa using hfuel)

theorem paramName?_eq (param : List Char) :
    paramName? param =
      ((Text.name? (dropEllipses (dropModifiers (Text.trim param).length (Text.trim param)))).map
        Prod.fst).filter (· != "this".toList) := by
  rw [paramName?]
  cases Text.name? (dropEllipses (dropModifiers (Text.trim param).length (Text.trim param))) with
  | none => rfl
  | some found =>
    show (if (found.1 == "this".toList) = true then none else some found.1) = _
    rw [Option.map_some, Option.filter_some, bne]
    cases found.1 == "this".toList <;> rfl

end Signature

namespace ParamTarget

def text : ParamTarget → List Char
  | named word _ _ _ => word
  | pattern o c inner _ _ => o :: (inner ++ [c])

def word? : ParamTarget → Option (List Char)
  | named word _ _ _ => some word
  | pattern _ _ _ _ _ => none

theorem pattern_cases (o c : Char) (h : (o, c) ∈ patternPairs) :
    (o = '{' ∧ c = '}') ∨ (o = '[' ∧ c = ']') := by
  simpa [patternPairs] using h

variable (t : ParamTarget) (rest : List Char)

theorem nested_text : Nested [','] t.text := by
  cases t with
  | named word nonempty chars notModifier =>
    exact .of_word [','] word (List.all_eq_true.mp chars) (by decide)
  | pattern o c inner pair nested =>
    rcases pattern_cases o c pair with ⟨rfl, rfl⟩ | ⟨rfl, rfl⟩
    · exact .group [','] inner [] '{' '}' (by decide) (by decide) nested (by simp) (.nil [','])
    · exact .group [','] inner [] '[' ']' (by decide) (by decide) nested (by simp) (.nil [','])

theorem head?_text : (t.text ++ rest).head?.any Text.isBlank = false ∧
    (t.text ++ rest).head? ≠ some '.' := by
  cases t with
  | named word nonempty chars notModifier =>
    cases word with
    | nil => contradiction
    | cons c word =>
      have hc : Text.isNameChar c = true := List.all_eq_true.mp chars c List.mem_cons_self
      constructor
      · exact Text.not_blank_of_nameChar c hc
      · intro heq
        obtain rfl : c = '.' := Option.some.inj heq
        contradiction
  | pattern o c inner pair nested =>
    rcases pattern_cases o c pair with ⟨rfl, rfl⟩ | ⟨rfl, rfl⟩
    · exact ⟨rfl, by simp [text]⟩
    · exact ⟨rfl, by simp [text]⟩

theorem text_eq_concat : ∃ front c, t.text = front ++ [c] ∧ Text.isBlank c = false := by
  cases t with
  | named word nonempty chars notModifier =>
    exact ⟨word.dropLast, word.getLast nonempty, (List.dropLast_concat_getLast nonempty).symm,
      Text.not_blank_of_nameChar _ (List.all_eq_true.mp chars _ (List.getLast_mem nonempty))⟩
  | pattern o c inner pair nested =>
    have hc : Text.isBlank c = false := by
      rcases pattern_cases o c pair with ⟨rfl, rfl⟩ | ⟨rfl, rfl⟩ <;> rfl
    exact ⟨o :: inner, c, rfl, hc⟩

theorem afterKeyword?_text (hrest : rest.head?.any Text.isNameChar = false) :
    ∀ m ∈ Signature.paramModifiers, Signature.afterKeyword? m (t.text ++ rest) = none := by
  cases t with
  | named word nonempty chars notModifier =>
    intro m hm
    exact Signature.afterKeyword?_word m word rest (Signature.isName_paramModifier m hm)
      (List.all_eq_true.mp chars) hrest (notModifier m hm)
  | pattern o c inner pair nested =>
    apply Signature.afterKeyword?_no_word
    rcases pattern_cases o c pair with ⟨rfl, rfl⟩ | ⟨rfl, rfl⟩ <;> rfl

theorem name?_text (hrest : rest.head?.any Text.isNameChar = false) :
    (Text.name? (t.text ++ rest)).map Prod.fst = t.word?.filter Text.isName := by
  cases t with
  | named word nonempty chars notModifier =>
    cases word with
    | nil => contradiction
    | cons c word =>
      rw [List.all_cons, Bool.and_eq_true] at chars
      have hname : Text.isName (c :: word) = Text.isNameStart c := by
        rw [Text.isName, chars.2, Bool.and_true]
      rw [text, Text.name?_word c word rest (List.all_eq_true.mp chars.2) hrest, word?,
        Option.filter_some, hname]
      by_cases hc : Text.isNameStart c = true <;> simp [hc]
  | pattern o c inner pair nested =>
    rcases pattern_cases o c pair with ⟨rfl, rfl⟩ | ⟨rfl, rfl⟩ <;> rfl

end ParamTarget

namespace MemberParam

variable (p : MemberParam)

def lead : List Char := (if p.variadic then "...".toList else []) ++ p.target.text

def tail : List Char :=
  (if p.isOptional then ['?'] else []) ++ p.type.elim [] (": ".toList ++ ·) ++
    p.value.elim [] (" = ".toList ++ ·)

def text : List Char := Text.spaced (p.modifiers.map String.toList) ++ (p.lead ++ p.tail)

/-- The word that is declared: one whose first character may start a name, other than the
receiver `this`. -/
def declared? : Option (List Char) :=
  p.target.word?.filter fun word => Text.isName word && word != "this".toList

theorem nested_text : Nested [','] p.text := by
  have hmodifiers : Nested [','] (Text.spaced (p.modifiers.map String.toList)) :=
    .spaced [','] _ (Signature.isName_modifiers p.modifiers p.modifiers_known) (by decide)
      (by decide)
  have hdots : Nested [','] (if p.variadic then "...".toList else []) := by
    cases p.variadic with
    | false => exact .nil [',']
    | true => exact .of_no_brackets [','] "...".toList (by decide)
  have hmark : Nested [','] (if p.isOptional then ['?'] else []) := by
    cases p.isOptional with
    | false => exact .nil [',']
    | true => exact .of_no_brackets [','] ['?'] (by decide)
  have htype : Nested [','] (p.type.elim [] (": ".toList ++ ·)) := by
    cases htype : p.type with
    | none => exact .nil [',']
    | some t =>
      exact (Nested.of_no_brackets [','] ": ".toList (by decide)).append (p.type_nested t htype)
  have hvalue : Nested [','] (p.value.elim [] (" = ".toList ++ ·)) := by
    cases hvalue : p.value with
    | none => exact .nil [',']
    | some v =>
      exact (Nested.of_no_brackets [','] " = ".toList (by decide)).append (p.value_nested v hvalue)
  exact hmodifiers.append ((hdots.append p.target.nested_text).append
    ((hmark.append htype).append hvalue))

theorem head?_lead (rest : List Char) : (p.lead ++ rest).head?.any Text.isBlank = false := by
  rw [lead]
  cases p.variadic with
  | false => exact (p.target.head?_text rest).1
  | true => rfl

theorem head?_text (rest : List Char) : (p.text ++ rest).head?.any Text.isBlank = false := by
  rw [text, List.append_assoc, List.append_assoc]
  exact Text.spaced_not_blank _ _ (Signature.isName_modifiers p.modifiers p.modifiers_known)
    (p.head?_lead _)

theorem trim_text : Text.trim p.text =
    Text.spaced (p.modifiers.map String.toList) ++ (p.lead ++ Text.trimEnd p.tail) := by
  obtain ⟨front, c, htarget, hc⟩ := p.target.text_eq_concat
  have hstart := p.head?_text []
  simp only [text, lead, htarget] at hstart ⊢
  simpa using Text.trim_behind (Text.spaced (p.modifiers.map String.toList) ++
    ((if p.variadic then "...".toList else []) ++ front)) p.tail c (by simpa using hstart) hc

theorem head?_tail : (Text.trimEnd p.tail).head?.any Text.isNameChar = false := by
  apply Text.head?_trimEnd
  rw [tail]
  cases p.isOptional <;> cases p.type <;> cases p.value <;> rfl

theorem afterKeyword?_lead (rest : List Char) (hrest : rest.head?.any Text.isNameChar = false) :
    ∀ m ∈ Signature.paramModifiers, Signature.afterKeyword? m (p.lead ++ rest) = none := by
  rw [lead]
  cases p.variadic with
  | false => exact p.target.afterKeyword?_text rest hrest
  | true => exact Signature.afterKeyword?_no_word _ rfl

theorem dropEllipses_lead (rest : List Char) :
    Signature.dropEllipses (p.lead ++ rest) = p.target.text ++ rest := by
  have hstop := Signature.dropEllipses_stop _ (p.target.head?_text rest).2
  rw [lead]
  cases p.variadic with
  | false => exact hstop
  | true => exact hstop

theorem paramName?_text : Signature.paramName? p.text = p.declared? := by
  have hfuel : p.modifiers.length ≤ (Text.spaced (p.modifiers.map String.toList) ++
      (p.lead ++ Text.trimEnd p.tail)).length := by
    have hspaced := Text.length_le_spaced (p.modifiers.map String.toList)
    rw [List.length_map] at hspaced
    rw [List.length_append]
    omega
  rw [Signature.paramName?_eq, p.trim_text,
    Signature.dropModifiers_spaced p.modifiers _ _ p.modifiers_known hfuel (p.head?_lead _)
    (p.afterKeyword?_lead _ p.head?_tail), p.dropEllipses_lead,
    p.target.name?_text _ p.head?_tail, Option.filter_filter, declared?]

end MemberParam

end DocLint
