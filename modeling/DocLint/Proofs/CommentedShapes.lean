import DocLint.Proofs.CommentedRules

/-!
# Shapes with a comment behind them

The kind of a shape is decided by the first rule that opens the text, and rules of
one kind stand together. So a text keeps its shape behind a comment if some rule of
its kind reads it with the comment and no rule of an earlier kind does.
-/

set_option autoImplicit false

namespace DocLint.DeclarationShape

open Pattern LineComment

variable (k : LineComment) (t : List Char)

def functionRules : List (Pattern Char) :=
  [functionRule, functionVariableRule, functionMemberRule, modifiedMethodRule, methodRule]

def propertyRules : List (Pattern Char) := [modifiedPropertyRule, variableRule, memberRule]

theorem find?_kind (ps : List (Pattern Char)) (kind : DeclarationKind) :
    ((ps.map fun p => (p, kind)).find? fun rule => rule.1.opens t).map (·.2) =
      if ps.any (·.opens t) then some kind else none := by
  induction ps with
  | nil => rfl
  | cons p ps ih =>
    cases h : p.opens t with
    | true => simp [h]
    | false => simpa [h] using ih

theorem find?_rules : (rules.find? fun rule => rule.1.opens t).map (·.2) =
    if classRule.opens t then some .classLike
    else if functionRules.any (·.opens t) then some .function
    else if propertyRules.any (·.opens t) then some .property else none := by
  have hrules : rules = [classRule].map (fun p => (p, .classLike)) ++
      functionRules.map (fun p => (p, .function)) ++
      propertyRules.map fun p => (p, .property) := rfl
  have hclass : [classRule].any (·.opens t) = classRule.opens t := by simp
  rw [hrules, List.find?_append, List.find?_append, Option.map_or, Option.map_or, find?_kind,
    find?_kind, find?_kind, hclass]
  generalize classRule.opens t = class?
  generalize functionRules.any (·.opens t) = function?
  generalize propertyRules.any (·.opens t) = property?
  cases class? <;> cases function? <;> rfl

theorem find?_rules_iff (kind : DeclarationKind) :
    (rules.find? fun rule => rule.1.opens t).map (·.2) = some kind ↔
      match kind with
      | .classLike => classRule.opens t = true
      | .function => classRule.opens t = false ∧ functionRules.any (·.opens t) = true
      | .property => classRule.opens t = false ∧ functionRules.any (·.opens t) = false ∧
          propertyRules.any (·.opens t) = true := by
  rw [find?_rules]
  generalize classRule.opens t = class?
  generalize functionRules.any (·.opens t) = function?
  generalize propertyRules.any (·.opens t) = property?
  cases class? <;> cases function? <;> cases property? <;> cases kind <;> simp

theorem bindingEnd_chars (h : (bindingHead ++ atEnd).opens t = true) :
    (∀ c ∈ ['=', '(', ':', ';', 'f', 'm'], c ∉ t) ∧ t.count 's' ≤ 1 := by
  obtain ⟨_, _, rfl, x, _, rfl, hx, hend⟩ := (opens_iff _ _).mp h
  obtain ⟨rfl, rfl⟩ := (reads_atEnd _ _).mp hend
  rw [List.append_nil, List.append_nil]
  have havoids : (['=', '(', ':', ';', 'f', 'm'].all fun c => bindingHead.avoids c) = true := by
    decide
  refine ⟨?_, ?_⟩
  · intro c hc
    exact not_mem_of_avoids c bindingHead x _ (List.all_eq_true.mp havoids c hc) hx
  · obtain ⟨front, _, rfl, hfront, hword⟩ := hx
    obtain ⟨w, hw, rfl⟩ := (reads_words _ _ _).mp hword
    have hnone := not_mem_of_avoids 's' _ front _ (by decide) hfront
    have hcount : (["const", "let", "var"].all fun w => w.toList.count 's' ≤ 1) = true := by
      decide
    rw [List.count_append, List.count_eq_zero_of_not_mem hnone, Nat.zero_add]
    simpa using List.all_eq_true.mp hcount w hw

theorem bindingEnd_of_mem (c : Char) (hc : c ∈ ['=', '(', ':', ';', 'f', 'm']) (hmem : c ∈ t) :
    (bindingHead ++ atEnd).opens t = false := by
  rw [← Bool.not_eq_true]
  intro h
  exact (bindingEnd_chars t h).1 c hc hmem

theorem bindingEnd_of_classRule (h : classRule.opens t = true) :
    (bindingHead ++ atEnd).opens t = false := by
  obtain ⟨_, left, rfl, ⟨front, _, rfl, -, hword⟩, -⟩ := (opens_append_iff _ _ t).mp h
  obtain ⟨w, hw, rfl⟩ := (reads_words _ _ _).mp hword
  have hall : (["class", "interface", "enum", "namespace", "module"].all fun w =>
      2 ≤ w.toList.count 's' || w.toList.contains 'f' || w.toList.contains 'm') = true := by
    decide
  have hchars := List.all_eq_true.mp hall w hw
  simp only [Bool.or_eq_true, decide_eq_true_eq, List.contains_iff_mem] at hchars
  rcases hchars with (hs | hf) | hm
  · rw [← Bool.not_eq_true]
    intro hend
    have hcount := (bindingEnd_chars _ hend).2
    rw [List.count_append, List.count_append] at hcount
    omega
  · exact bindingEnd_of_mem _ 'f' (by decide) (by simp [hf])
  · exact bindingEnd_of_mem _ 'm' (by decide) (by simp [hm])

theorem formOf_commented
    (h : variableRule.opens t = true ∨ (bindingHead ++ atEnd).opens t = false) :
    formOf (t ++ k.chars) = formOf t := by
  have hbinding : variableRule.opens (t ++ k.chars) = variableRule.opens t := by
    rw [variableRule_commented]
    rcases h with h | h
    · rw [h, Bool.true_or]
    · rw [h, Bool.or_false]
  rw [formOf, formOf, hbinding, explicitForm_commented]

theorem startsStatement_commented : startsStatement (t ++ k.chars) = startsStatement t := by
  have hblank := Text.not_nameChar_of_blank k.blank k.isBlank_blank
  cases t with
  | nil =>
    have hstart : Text.isNameStart k.blank = false := by
      rw [← Bool.not_eq_true]
      intro h
      rw [Text.nameChar_of_nameStart k.blank h] at hblank
      contradiction
    simp [startsStatement, k.chars_eq, Text.name?, hstart]
  | cons c cs =>
    have htake : (cs ++ k.chars).takeWhile Text.isNameChar = cs.takeWhile Text.isNameChar := by
      rw [List.takeWhile_append, k.chars_eq, List.takeWhile_cons, hblank]
      split
      · next hall =>
        rw [(List.takeWhile_prefix Text.isNameChar).eq_of_length hall]
        exact List.append_nil cs
      · rfl
    rw [List.cons_append, startsStatement, startsStatement, Text.name?, Text.name?, htake]
    cases Text.isNameStart c <;> rfl

/-- All ways in which a text with a comment behind it is read as a function. -/
def functionWays : List Continuation :=
  .within functionRule :: (variableWays ++ memberWays ++ modifiedWays ++ headerWays)

def readsAsFunction (t comment : List Char) : Bool := functionWays.any (·.opens t comment)

theorem functionRules_commented (hline : '\n' ∉ k.start) :
    functionRules.any (·.opens (t ++ k.chars)) = readsAsFunction t k.text := by
  have hfunction : functionRule.opens (t ++ k.chars) =
      (Continuation.within functionRule).opens t k.text := by
    rw [Continuation.opens_within, functionRule_commented]
  simp only [functionRules, List.any_cons, List.any_nil, Bool.or_false, readsAsFunction,
    functionWays, List.any_append, hfunction, splits_functionVariableRule hline t,
    splits_functionMemberRule t, splits_modifiedMethodRule t, splits_methodRule t, Bool.or_assoc]

theorem mem_of_opens_text (a : Pattern Char) (s : String) (c : Char) (hc : c ∈ s.toList)
    (h : (a ++ text s).opens t = true) : c ∈ t := by
  obtain ⟨x, left, rfl, -, hopens⟩ := (opens_append_iff _ _ t).mp h
  obtain ⟨_, rest, rfl, hreads⟩ := (opens_iff _ _).mp hopens
  rw [(reads_text s _ _).mp hreads]
  simp [hc]

theorem bindingEnd_of_function (h : functionRules.any (·.opens t) = true) :
    (bindingHead ++ atEnd).opens t = false := by
  simp only [functionRules, List.any_cons, List.any_nil, Bool.or_false, Bool.or_eq_true] at h
  rcases h with h | h | h | h | h
  · exact bindingEnd_of_mem t 'f' (by decide)
      (mem_of_opens_text t _ "function" 'f' (by decide) (opens_left _ _ t h))
  · exact bindingEnd_of_mem t '=' (by decide)
      (mem_of_opens_text t _ "=" '=' (by decide) (opens_left _ _ t (opens_left _ _ t h)))
  · exact bindingEnd_of_mem t '=' (by decide)
      (mem_of_opens_text t _ "=" '=' (by decide) (opens_left _ _ t (opens_left _ _ t h)))
  · exact bindingEnd_of_mem t '(' (by decide) (mem_of_opens_text t _ "(" '(' (by decide) h)
  · exact bindingEnd_of_mem t '(' (by decide) (mem_of_opens_text t _ "(" '(' (by decide)
      (opens_left _ _ t (opens_left _ _ t (opens_left _ _ t h))))

def markedMember : Pattern Char :=
  modifiers ++ identifier ++ memberMark ++ blanks ++ one fun c => c == ':' || c == '=' || c == ';'

def bareMember : Pattern Char := modifiers ++ identifier ++ memberMark ++ blanks ++ atEnd

/-- The rules for properties that do not ask for the end of the text. -/
def lastingProperties : List (Pattern Char) := [markedMember, variableRule, memberRule]

theorem modifiedPropertyRule_opens :
    modifiedPropertyRule.opens t = (markedMember.opens t || bareMember.opens t) :=
  opens_append_or _ _ _ t

theorem lasting_property (rule : Pattern Char)
    (hrule : rule ∈ lastingProperties) (h : rule.opens t = true) :
    propertyRules.any (·.opens (t ++ k.chars)) = true ∧
      (variableRule.opens t = true ∨ (bindingHead ++ atEnd).opens t = false) := by
  have hlike : EndsLike k.blank rule := by
    simp only [lastingProperties, List.mem_cons, List.not_mem_nil, or_false] at hrule
    rcases hrule with rfl | rfl | rfl
    · simp [markedMember, EndsLike, modifiers, modifier, identifier, memberMark, gap, blanks, words]
    · simp [variableRule, EndsLike, keyword, binder, gap, blanks, text, words]
    · simp [memberRule, EndsLike, identifier, memberMark, blanks, text, words]
  have h' := k.opens_of rule t hlike h
  simp only [propertyRules, List.any_cons, List.any_nil, Bool.or_false, Bool.or_eq_true]
  simp only [lastingProperties, List.mem_cons, List.not_mem_nil, or_false] at hrule
  rcases hrule with rfl | rfl | rfl
  · rw [modifiedPropertyRule_opens, h', Bool.true_or]
    refine ⟨Or.inl rfl, Or.inr ?_⟩
    obtain ⟨c, hmem, hc⟩ := exists_mem_of_opens_one _ _ t h
    simp only [Bool.or_eq_true, beq_iff_eq] at hc
    apply bindingEnd_of_mem t c _ hmem
    rcases hc with (rfl | rfl) | rfl <;> decide
  · exact ⟨Or.inr (Or.inl h'), Or.inl h⟩
  · refine ⟨Or.inr (Or.inr h'), Or.inr ?_⟩
    obtain ⟨_, rest, rfl, x, _, rfl, -, hcolon | ⟨_, c, rfl, hequals, -⟩⟩ := (opens_iff _ _).mp h
    · apply bindingEnd_of_mem _ ':' (by decide)
      rw [(reads_text ":" _ _).mp hcolon]
      simp
    · apply bindingEnd_of_mem _ '=' (by decide)
      rw [(reads_text "=" _ _).mp hequals]
      simp

theorem bareMember_commented : bareMember.opens (t ++ k.chars) = false := by
  rw [← Bool.not_eq_true]
  intro h
  obtain ⟨_, rest, htext, x, _, rfl, hx, hend⟩ := (opens_iff _ _).mp h
  obtain ⟨rfl, rfl⟩ := (reads_atEnd _ _).mp hend
  have hslash := not_mem_of_avoids '/' _ x _ (by decide) hx
  rw [List.append_nil, List.append_nil] at htext
  rw [← htext] at hslash
  simp [chars, start] at hslash

theorem not_mem_bareMember (c : Char) (hc : c ∈ [':', '=', ';']) (h : bareMember.opens t = true) :
    c ∉ t := by
  obtain ⟨_, rest, rfl, x, _, rfl, hx, hend⟩ := (opens_iff _ _).mp h
  obtain ⟨rfl, rfl⟩ := (reads_atEnd _ _).mp hend
  have havoids : ([':', '=', ';'].all fun c =>
      (modifiers ++ identifier ++ memberMark ++ blanks).avoids c) = true := by decide
  rw [List.append_nil, List.append_nil]
  exact not_mem_of_avoids c _ x _ (List.all_eq_true.mp havoids c hc) hx

theorem no_mark_bareMember (lead : Pattern Char) (h : bareMember.opens t = true)
    (hslash : (lead ++ one fun c => c == ':' || c == '=' || c == ';').avoids '/' = true)
    (hlike : EndsLike k.blank lead) :
    (lead ++ one fun c => c == ':' || c == '=' || c == ';').opens (t ++ k.chars) = false := by
  have hmark (c : Char) (hc : (c == ':' || c == '=' || c == ';') = true) :
      c ∈ [':', '=', ';'] := by
    simpa [or_assoc] using hc
  have hsolid := solid_one k lead _ hslash (fun c hc => by
    have hall : ([':', '=', ';'].all fun d => !Text.isBlank d) = true := by decide
    simpa using List.all_eq_true.mp hall c (hmark c hc)) hlike
  rw [hsolid.opens_eq, ← Bool.not_eq_true]
  intro hopens
  obtain ⟨c, hmem, hc⟩ := exists_mem_of_opens_one _ _ t hopens
  exact not_mem_bareMember t c (hmark c hc) h hmem

/-- Of the rules for properties, only the one for bindings may open such a member with a comment
behind it. -/
theorem propertyRules_bareMember (h : bareMember.opens t = true) :
    propertyRules.any (·.opens (t ++ k.chars)) = variableRule.opens (t ++ k.chars) := by
  have hmodified : modifiedPropertyRule.opens (t ++ k.chars) = false := by
    rw [modifiedPropertyRule_opens, Bool.or_eq_false_iff]
    refine ⟨no_mark_bareMember k t _ h (by decide) ?_, bareMember_commented k t⟩
    simp [EndsLike, modifiers, modifier, identifier, memberMark, gap, blanks, words]
  have hmember : memberRule.opens (t ++ k.chars) = false := by
    have hnone := no_mark_bareMember k t (identifier ++ memberMark ++ blanks) h (by decide)
      (by simp [EndsLike, identifier, memberMark, blanks])
    rw [← Bool.not_eq_true] at hnone ⊢
    intro hopens
    apply hnone
    obtain ⟨x, left, htext, hx, hmark⟩ := (opens_append_iff _ _ _).mp hopens
    refine (opens_append_iff _ _ _).mpr ⟨x, left, htext, hx, ?_⟩
    rw [opens_one]
    obtain ⟨_, rest, rfl, hcolon | ⟨_, c, rfl, hequals, -⟩⟩ := (opens_iff _ _).mp hmark
    · rw [(reads_text ":" _ _).mp hcolon]
      rfl
    · rw [(reads_text "=" _ _).mp hequals]
      rfl
  simp only [propertyRules, List.any_cons, List.any_nil, Bool.or_false, hmodified, hmember,
    Bool.false_or]

/-- Whether a text of a kind keeps it, and its form, with a comment behind the text. -/
def keepsKind : DeclarationKind → List Char → List Char → Bool
  | .classLike, _, _ => true
  | .function, t, comment => readsAsFunction t comment
  | .property, t, comment => !readsAsFunction t comment && lastingProperties.any (·.opens t)

theorem bareMember_of_property (h : propertyRules.any (·.opens t) = true)
    (hlasting : lastingProperties.any (·.opens t) = false) :
    bareMember.opens t = true ∧ variableRule.opens t = false := by
  simp only [lastingProperties, List.any_cons, List.any_nil, Bool.or_false,
    Bool.or_eq_false_iff] at hlasting
  simp only [propertyRules, List.any_cons, List.any_nil, Bool.or_false,
    modifiedPropertyRule_opens, hlasting.1, hlasting.2.1, hlasting.2.2, Bool.false_or] at h
  exact ⟨h, hlasting.2.1⟩

theorem formOf_bareMember (h : bareMember.opens t = true) (hbinding : variableRule.opens t = false)
    (hproperty : propertyRules.any (·.opens (t ++ k.chars)) = true) :
    formOf t ≠ formOf (t ++ k.chars) := by
  rw [propertyRules_bareMember k t h] at hproperty
  rw [formOf, formOf, hproperty, hbinding, if_pos rfl, if_neg Bool.false_ne_true]
  split <;> exact nofun

theorem ofText?_commented_iff (shape : DeclarationShape) (h : ofText? t = some shape)
    (hline : '\n' ∉ k.start) :
    ofText? (t ++ k.chars) = some shape ↔ keepsKind shape.kind t k.text = true := by
  obtain ⟨kind, form⟩ := shape
  rw [ofText?_eq_some_iff, find?_rules_iff] at h
  rw [ofText?_eq_some_iff, find?_rules_iff, startsStatement_commented, classRule_commented,
    functionRules_commented k t hline]
  obtain ⟨hstatement, hform, hkind⟩ := h
  cases kind with
  | classLike =>
    have hkept := formOf_commented k t (Or.inr (bindingEnd_of_classRule t hkind))
    exact iff_of_true ⟨hstatement, hform.trans hkept.symm, hkind⟩ rfl
  | function =>
    have hkept := formOf_commented k t (Or.inr (bindingEnd_of_function t hkind.2))
    constructor
    · intro hcommented
      exact hcommented.2.2.2
    · intro hreads
      exact ⟨hstatement, hform.trans hkept.symm, hkind.1, hreads⟩
  | property =>
    rw [keepsKind, Bool.and_eq_true, Bool.not_eq_true']
    constructor
    · rintro ⟨-, hform', -, hreads, hproperty⟩
      refine ⟨hreads, ?_⟩
      rw [← Bool.not_eq_false]
      intro hlasting
      obtain ⟨hbare, hbinding⟩ := bareMember_of_property t hkind.2.2 hlasting
      exact formOf_bareMember k t hbare hbinding hproperty (hform.symm.trans hform')
    · rintro ⟨hreads, hlasting⟩
      obtain ⟨rule, hrule, hopens⟩ := List.any_eq_true.mp hlasting
      have hkept := lasting_property k t rule hrule hopens
      exact ⟨hstatement, hform.trans (formOf_commented k t hkept.2).symm, hkind.1, hreads, hkept.1⟩

end DocLint.DeclarationShape
