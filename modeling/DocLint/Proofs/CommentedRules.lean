import DocLint.Proofs.Continuations

/-!
# The rules for functions on a text with a comment behind it

A value, the parameters of a header, its return type or its type parameters may be open at the
end of a text. Then the rules read on in the comment. These are all the ways in which they do.
-/

set_option autoImplicit false

namespace DocLint.DeclarationShape

open Pattern LineComment

variable (k : LineComment) (t : List Char)

def valued (lead value : Pattern Char) : Pattern Char :=
  lead ++ typeNote ++ text "=" ++ blanks ++ value

def variableLead : Pattern Char := optional (keyword "export") ++ binder ++ identifier ++ blanks

def memberLead : Pattern Char := repeated modifier ++ identifier ++ memberMark ++ blanks

def wordValue : Pattern Char := (text "async" ++ wordEnd) ||| (text "function" ++ wordEnd)

def variableValue : Pattern Char :=
  wordValue ||| (text "(" ++ many (isNot ')') ++ atEnd) ||| (many (isNot '\n') ++ text "=>")

def memberValue : Pattern Char :=
  wordValue ||| (text "(" ++ many (isNot ')') ++ text ")" ++ blanks ++ typeNote ++ text "=>") |||
    (identifier ++ blanks ++ text "=>")

/-- A name with a parenthesis behind it, and what may stand before the name. -/
def called (lead : Pattern Char) : Pattern Char :=
  lead ++ identifier ++ blanks ++ typeParams ++ blanks ++ text "("

def openParameters : Pattern Char := many fun c => c != ')' && c != ';'

def parameters : Pattern Char := many (isNot ';') ++ text ")" ++ blanks

def returnType : Pattern Char :=
  text ":" ++ blanks ++ one methodRule.returnChar ++ many methodRule.returnChar

theorem methodRule_eq : methodRule = called accessor ++ (parameters ++ optional returnType ++
    blanks ++ optional (one fun c => c == '{' || c == ';') ||| openParameters) ++ blanks ++ atEnd :=
  rfl

def arguments : Pattern Char :=
  (parameters ++ optional returnType ++ blanks ++ optional (one fun c => c == '{' || c == ';') |||
    openParameters) ++ blanks ++ atEnd

def headerEnd : Pattern Char :=
  blanks ++ optional (one fun c => c == '{' || c == ';') ++ blanks ++ atEnd

/-- The type of a variable, the parameters of its arrow function or what else its value is may be
open. -/
def variableWays : List Continuation :=
  [⟨variableLead ++ text ":" ++ many (isNot '=') ++ atEnd,
      many (isNot '=') ++ text "=" ++ blanks ++ variableValue⟩,
    .within (valued variableLead wordValue),
    ⟨valued variableLead (text "(" ++ many (isNot ')') ++ atEnd), many (isNot ')') ++ atEnd⟩,
    ⟨valued variableLead (many (isNot '\n') ++ atEnd), many (isNot '\n') ++ text "=>"⟩,
    .within (valued variableLead (many (isNot '\n') ++ text "=>"))]

/-- The type of a member, the parameters of its arrow function or their type may be open. -/
def memberWays : List Continuation :=
  [⟨memberLead ++ text ":" ++ many (isNot '=') ++ atEnd,
      many (isNot '=') ++ text "=" ++ blanks ++ memberValue⟩,
    .within (valued memberLead wordValue),
    ⟨valued memberLead (text "(" ++ many (isNot ')') ++ atEnd),
      many (isNot ')') ++ text ")" ++ blanks ++ typeNote ++ text "=>"⟩,
    ⟨valued memberLead (text "(" ++ many (isNot ')') ++ text ")" ++ blanks ++ text ":" ++
        many (isNot '=') ++ atEnd), many (isNot '=') ++ text "=>"⟩,
    .within (valued memberLead (text "(" ++ many (isNot ')') ++ text ")" ++ blanks ++ typeNote ++
      text "=>")),
    .within (valued memberLead (identifier ++ blanks ++ text "=>"))]

def modifiedWays : List Continuation :=
  [⟨modifiers ++ accessor ++ identifier ++ blanks ++ text "<" ++ many (isNot '>') ++ atEnd,
      many (isNot '>') ++ text ">" ++ blanks ++ text "("⟩,
    .within (called (modifiers ++ accessor))]

/-- The type parameters, the parameters or the return type of a header may be open, or another
parenthesis in the comment closes the parameters. -/
def headerWays : List Continuation :=
  [⟨accessor ++ identifier ++ blanks ++ text "<" ++ many (isNot '>') ++ atEnd,
      many (isNot '>') ++ text ">" ++ blanks ++ text "(" ++ arguments⟩,
    ⟨called accessor ++ many (isNot ';') ++ atEnd, parameters ++ optional returnType ++ headerEnd⟩,
    ⟨called accessor ++ parameters ++ text ":" ++ many methodRule.returnChar ++ atEnd,
      many methodRule.returnChar ++ headerEnd⟩,
    ⟨called accessor ++ openParameters ++ atEnd, openParameters ++ blanks ++ atEnd⟩]

variable {k}

theorem solid_text (s : String) (h : s.toList.getLast?.any (fun c => !Text.isBlank c) = true)
    (hslash : ([s.toList].all fun t => !t.contains '/') = true) : k.Solid (text s) :=
  ⟨hslash, endsSolid_words [s] (by simpa using h), trivial⟩

theorem start_isNot (c : Char) (hblank : Text.isBlank c = false) (hslash : c ≠ '/') :
    ∀ d ∈ k.start, isNot c d = true := by
  intro d hd
  rw [isNot, bne_iff_ne]
  rintro rfl
  rcases k.blank_or_slash d hd with h | h
  · rw [hblank] at h
    exact Bool.false_ne_true h
  · exact hslash h

theorem splits_typeNote {b : Pattern Char} {ways : List Continuation} (h : k.Splits b ways)
    (hb : Misses b) :
    k.Splits (typeNote ++ b) (⟨text ":" ++ many (isNot '=') ++ atEnd, many (isNot '=') ++ b⟩ ::
      ways.map (.behind typeNote)) := by
  have hbridge := h.bridge (bridges_some _ (start_isNot '=' (by decide) (by decide)))
    ⟨trivial, trivial⟩ hb
  have hcolon := hbridge.solid (solid_text ":" (by decide) (by decide))
  apply h.optional
  apply hcolon.regroup rfl
  simp only [List.map_cons, List.map_map]
  rfl

theorem misses_typeNote {b : Pattern Char} (hb : Misses b) : Misses (typeNote ++ b) :=
  hb.optional ((((misses_words [":"] (by decide)).append _).append _).append b)

theorem splits_valued {lead value : Pattern Char} {ways : List Continuation}
    (h : k.Splits (blanks ++ value) (ways.map (.behind blanks)))
    (hslash : lead.avoids '/' = true) (hlike : EndsLike k.blank lead) :
    k.Splits (valued lead value) (⟨lead ++ text ":" ++ many (isNot '=') ++ atEnd,
      many (isNot '=') ++ text "=" ++ blanks ++ value⟩ ::
        ways.map fun r => ⟨valued lead r.text, r.comment⟩) := by
  have hmisses : Misses (text "=" ++ (blanks ++ value)) :=
    (misses_words ["="] (by decide)).append _
  have hequals := h.solid (solid_text "=" (by decide) (by decide))
  have hlead := (splits_typeNote hequals hmisses).behind lead hslash hlike (misses_typeNote hmisses)
  apply hlead.regroup
  · simp [valued]
  · simp [valued, Continuation.parts, Continuation.behind, Function.comp_def]

theorem splits_word (word : String)
    (hlast : word.toList.getLast?.any (fun c => !Text.isBlank c) = true)
    (hslash : ([word.toList].all fun t => !t.contains '/') = true)
    (hhead : ([word].all fun w => w.toList.head?.any fun c => !Text.isBlank c && c != '/') = true) :
    k.Splits (blanks ++ (text word ++ wordEnd)) [.within (blanks ++ (text word ++ wordEnd))] :=
  (splits_wordEnd.solid (solid_text word hlast hslash)).behind blanks (by decide) trivial
    ((misses_words [word] hhead).append wordEnd)

theorem splits_wordValue : k.Splits (blanks ++ wordValue) [.within (blanks ++ wordValue)] := by
  have hasync := splits_word (k := k) "async" (by decide) (by decide) (by decide)
  have hfunction := splits_word (k := k) "function" (by decide) (by decide) (by decide)
  intro t
  refine (hasync.append_or hfunction t).trans ?_
  simp [Continuation.opens_within, wordValue, opens_append_or]

theorem misses_mark (s : String) (b : Pattern Char)
    (h : ([s].all fun w => w.toList.head?.any fun c => !Text.isBlank c && c != '/') = true) :
    Misses (text s ++ b) := (misses_words [s] h).append b

theorem splits_variableValue (hline : '\n' ∉ k.start) :
    k.Splits (blanks ++ variableValue) (List.map (.behind blanks)
      [.within wordValue,
        ⟨text "(" ++ many (isNot ')') ++ atEnd, many (isNot ')') ++ atEnd⟩,
        ⟨many (isNot '\n') ++ atEnd, many (isNot '\n') ++ text "=>"⟩,
        .within (many (isNot '\n') ++ text "=>")]) := by
  have hopen := splits_atEnd.bridge
    (bridges_many (k := k) _ (start_isNot ')' (by decide) (by decide))) trivial misses_atEnd
  have hparen : k.Splits (blanks ++ (text "(" ++ many (isNot ')') ++ atEnd)) _ :=
    ((hopen.solid (solid_text "(" (by decide) (by decide))).behind blanks (by decide) trivial
      (misses_mark "(" _ (by decide))).regroup rfl rfl
  have hstart : ∀ c ∈ k.start, isNot '\n' c = true := by
    intro c hc
    rw [isNot, bne_iff_ne]
    exact fun heq => hline (heq ▸ hc)
  have harrow := (solid_text (k := k) "=>" (by decide) (by decide)).splits.bridge
    (bridges_blanks_many _ hstart) ⟨trivial, trivial⟩ (misses_words ["=>"] (by decide))
  have harrow' : k.Splits (blanks ++ (many (isNot '\n') ++ text "=>")) _ := harrow.regroup rfl rfl
  exact ((splits_wordValue.append_or hparen).append_or harrow').regroup rfl rfl

theorem splits_memberValue :
    k.Splits (blanks ++ memberValue) (List.map (.behind blanks)
      [.within wordValue,
        ⟨text "(" ++ many (isNot ')') ++ atEnd,
          many (isNot ')') ++ text ")" ++ blanks ++ typeNote ++ text "=>"⟩,
        ⟨text "(" ++ many (isNot ')') ++ text ")" ++ blanks ++ text ":" ++
          many (isNot '=') ++ atEnd, many (isNot '=') ++ text "=>"⟩,
        .within (text "(" ++ many (isNot ')') ++ text ")" ++ blanks ++ typeNote ++ text "=>"),
        .within (identifier ++ blanks ++ text "=>")]) := by
  have hmisses : Misses (text "=>") := misses_words ["=>"] (by decide)
  have htyped := splits_typeNote (solid_text (k := k) "=>" (by decide) (by decide)).splits hmisses
  have hclosed := (htyped.behind blanks (by decide) trivial (misses_typeNote hmisses)).solid
    (solid_text ")" (by decide) (by decide))
  have hparams := hclosed.bridge (bridges_many _ (start_isNot ')' (by decide) (by decide))) trivial
    (misses_mark ")" _ (by decide))
  have hparen : k.Splits (blanks ++
      (text "(" ++ many (isNot ')') ++ text ")" ++ blanks ++ typeNote ++ text "=>")) _ :=
    ((hparams.solid (solid_text "(" (by decide) (by decide))).behind blanks (by decide) trivial
      (misses_mark "(" _ (by decide))).regroup rfl rfl
  have hname : k.Solid (blanks ++ (identifier ++ blanks ++ text "=>")) := by
    refine ⟨by decide, endsSolid_append _ _ (endsSolid_append _ _ (endsSolid_words _ (by decide))),
      ?_⟩
    simp [EndsLike, identifier, blanks, text, words]
  exact ((splits_wordValue.append_or hparen).append_or hname.splits).regroup rfl rfl

theorem endsLike_variableLead : EndsLike k.blank variableLead := by
  simp [variableLead, EndsLike, keyword, binder, identifier, gap, blanks, text, words]

theorem endsLike_memberLead : EndsLike k.blank memberLead := by
  simp [memberLead, EndsLike, modifier, identifier, memberMark, gap, blanks, words]

theorem splits_functionVariableRule (hline : '\n' ∉ k.start) :
    k.Splits functionVariableRule variableWays := by
  have hvalued : k.Splits (valued variableLead variableValue) _ :=
    splits_valued (splits_variableValue hline) (by decide) endsLike_variableLead
  exact hvalued.regroup rfl rfl

theorem splits_functionMemberRule : k.Splits functionMemberRule memberWays := by
  have hvalued : k.Splits (valued memberLead memberValue) _ :=
    splits_valued splits_memberValue (by decide) endsLike_memberLead
  exact hvalued.regroup rfl rfl

theorem splits_typeParams {b : Pattern Char} {ways : List Continuation} (h : k.Splits b ways) :
    k.Splits (typeParams ++ b) (⟨text "<" ++ many (isNot '>') ++ atEnd,
      many (isNot '>') ++ text ">" ++ b⟩ :: ways.map (.behind typeParams)) := by
  have hbridge := (h.solid (solid_text ">" (by decide) (by decide))).bridge
    (bridges_many _ (start_isNot '>' (by decide) (by decide))) trivial
    (misses_mark ">" b (by decide))
  have hless := hbridge.solid (solid_text "<" (by decide) (by decide))
  apply h.optional
  apply hless.regroup rfl
  simp only [List.map_cons, List.map_map]
  rfl

theorem splits_headed {lead b : Pattern Char} {ways : List Continuation} (h : k.Splits b ways)
    (hb : Misses b) (hslash : (lead ++ identifier ++ blanks).avoids '/' = true)
    (hlike : EndsLike k.blank (lead ++ identifier ++ blanks)) :
    k.Splits (lead ++ identifier ++ blanks ++ typeParams ++ blanks ++ b)
      (⟨lead ++ identifier ++ blanks ++ text "<" ++ many (isNot '>') ++ atEnd,
        many (isNot '>') ++ text ">" ++ blanks ++ b⟩ ::
        ways.map (.behind (lead ++ identifier ++ blanks ++ typeParams ++ blanks))) := by
  have hlead := (splits_typeParams (h.behind blanks (by decide) trivial hb)).behind _ hslash hlike
    (hb.blanks.optional (((misses_mark "<" _ (by decide)).append _).append _))
  apply hlead.regroup
  · simp
  · simp [Continuation.parts, Continuation.behind, Function.comp_def]

theorem splits_modifiedMethodRule : k.Splits modifiedMethodRule modifiedWays := by
  have hlike : EndsLike k.blank (modifiers ++ accessor ++ identifier ++ blanks) := by
    simp [EndsLike, modifiers, modifier, accessor, keyword, identifier, gap, blanks, text, words]
  have hheaded := splits_headed (solid_text (k := k) "(" (by decide) (by decide)).splits
    (misses_words ["("] (by decide)) (by decide) hlike
  exact hheaded.regroup rfl rfl

theorem splits_end : k.Splits (blanks ++ atEnd) [] :=
  splits_atEnd.behind blanks (by decide) trivial misses_atEnd

theorem misses_headerMark :
    Misses (optional (one fun c => c == '{' || c == ';') ++ (blanks ++ atEnd)) := by
  apply misses_atEnd.blanks.optional
  apply (misses_one _ _).append
  intro c hc
  rw [Bool.or_eq_true, beq_iff_eq, beq_iff_eq] at hc
  rcases hc with rfl | rfl <;> decide

theorem misses_headerEnd : Misses headerEnd := misses_headerMark.blanks.regroup rfl

theorem splits_headerEnd : k.Splits headerEnd [] := by
  have hmark : k.Splits (optional (one fun c => c == '{' || c == ';') ++ (blanks ++ atEnd)) [] :=
    splits_end.behind _ (by decide) trivial misses_atEnd.blanks
  exact (hmark.behind blanks (by decide) trivial misses_headerMark).regroup rfl rfl

theorem start_returnChar : ∀ c ∈ k.start, methodRule.returnChar c = true := by
  intro c hc
  have hnot (d : Char) (hblank : Text.isBlank d = false) (hslash : d ≠ '/') : (c != d) = true :=
    start_isNot d hblank hslash c hc
  rw [methodRule.returnChar, hnot '=' (by decide) (by decide), hnot ';' (by decide) (by decide),
    hnot '{' (by decide) (by decide)]
  rfl

theorem returnChar_of_blank (c : Char) (h : Text.isBlank c = true) :
    methodRule.returnChar c = true := by
  rw [methodRule.returnChar, Bool.and_eq_true, Bool.and_eq_true, bne_iff_ne, bne_iff_ne, bne_iff_ne]
  refine ⟨⟨?_, ?_⟩, ?_⟩ <;>
  · rintro rfl
    exact absurd h (by decide)

theorem splits_returnType : k.Splits (optional returnType ++ headerEnd)
    [⟨text ":" ++ many methodRule.returnChar ++ atEnd,
      many methodRule.returnChar ++ headerEnd⟩] := by
  have hbridge := splits_headerEnd.bridge
    (bridges_blanks_some (k := k) _ start_returnChar returnChar_of_blank)
    ⟨⟨trivial, trivial⟩, trivial⟩ misses_headerEnd
  have hcolon := hbridge.solid (solid_text ":" (by decide) (by decide))
  have htype : k.Splits (returnType ++ headerEnd) (_ :: []) := hcolon.regroup rfl rfl
  exact splits_headerEnd.optional htype

theorem splits_arguments : k.Splits arguments
    [⟨many (isNot ';') ++ atEnd, parameters ++ optional returnType ++ headerEnd⟩,
      ⟨parameters ++ text ":" ++ many methodRule.returnChar ++ atEnd,
        many methodRule.returnChar ++ headerEnd⟩,
      ⟨openParameters ++ atEnd, openParameters ++ blanks ++ atEnd⟩] := by
  have hmisses : Misses (optional returnType ++ headerEnd) :=
    misses_headerEnd.optional ((((misses_mark ":" _ (by decide)).append _).append _).append _)
  have hclosed := ((splits_returnType (k := k)).behind blanks (by decide) trivial hmisses).solid
    (solid_text ")" (by decide) (by decide))
  have hparameters := hclosed.bridge (bridges_many _ (start_isNot ';' (by decide) (by decide)))
    trivial (misses_mark ")" _ (by decide))
  have hstart : ∀ c ∈ k.start, (c != ')' && c != ';') = true := by
    intro c hc
    rw [show (c != ')') = true from start_isNot ')' (by decide) (by decide) c hc,
      show (c != ';') = true from start_isNot ';' (by decide) (by decide) c hc]
    rfl
  have hopen := (splits_end (k := k)).bridge (bridges_many _ hstart) trivial misses_atEnd.blanks
  have hclosed' : k.Splits ((parameters ++ optional returnType ++ blanks ++
      optional (one fun c => c == '{' || c == ';')) ++ (blanks ++ atEnd)) _ :=
    hparameters.regroup rfl rfl
  exact (hclosed'.or_append hopen).regroup rfl rfl

theorem splits_methodRule : k.Splits methodRule headerWays := by
  have hlike : EndsLike k.blank (accessor ++ identifier ++ blanks) := by
    simp [EndsLike, accessor, keyword, identifier, gap, blanks, text, words]
  have hparen := (splits_arguments (k := k)).solid (solid_text "(" (by decide) (by decide))
  have hheaded := splits_headed hparen (misses_mark "(" _ (by decide)) (by decide) hlike
  exact hheaded.regroup rfl rfl

end DocLint.DeclarationShape
