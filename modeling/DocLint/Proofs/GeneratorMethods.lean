import DocLint.Proofs.CodeContents
import DocLint.Proofs.GeneratorHeaders
import DocLint.Proofs.PairedLines

/-!
# Generator methods of a class

A class has a generator method among its members. If modifiers stand before the
star, the method is a declaration and the class goes on below it. If the line starts
with the star, it is no declaration and its brace is not counted, so the brace that
ends the method is taken for the end of the class.
-/

set_option autoImplicit false

namespace DocLint

namespace DeclarationShape

open Pattern

theorem classRule_of_classLike (text : List Char) (form : DeclarationForm)
    (h : ofText? text = some ⟨.classLike, form⟩) : classRule.opens text = true := by
  have hkind := ((ofText?_eq_some_iff text _).mp h).2.2
  rw [find?_rules] at hkind
  by_contra hclass
  rw [if_neg hclass] at hkind
  split_ifs at hkind <;> simp at hkind

theorem classRule_brace (rest : List Char) : classRule.opens ('{' :: rest) = false := by
  rw [← Bool.not_eq_true]
  intro h
  obtain ⟨x, left, htext, hx, -⟩ := (opens_append_iff _ _ _).mp h
  have hnot := not_mem_of_avoids '{' _ x left (by decide) hx
  obtain ⟨lead, _, rfl, -, hword⟩ := hx
  obtain ⟨w, hw, rfl⟩ := (reads_words _ _ _).mp hword
  have hfacts := List.all_eq_true.mp classWords_not_modifiers w hw
  rw [Bool.and_eq_true] at hfacts
  cases hchars : lead ++ w.toList with
  | nil =>
    rw [(List.append_eq_nil_iff.mp hchars).2] at hfacts
    exact absurd hfacts.1 (by decide)
  | cons c cs =>
    rw [hchars] at htext hnot
    obtain rfl : '{' = c := (List.cons.inj htext).1
    exact hnot List.mem_cons_self

end DeclarationShape

theorem enclosingScope_of_class (lines : List Line) (k o : Nat) (header : Line)
    (form : DeclarationForm) (hopen : (openLines lines k).head? = some o)
    (hline : lines[o]? = some header)
    (hclass : DeclarationShape.ofText? (Text.trim header) = some ⟨.classLike, form⟩) :
    enclosingScope lines k = .classBody := by
  have hbrace : ['{'].isPrefixOf (Text.trim header) = false := by
    rw [← Bool.not_eq_true, List.isPrefixOf_iff_prefix]
    rintro ⟨rest, hrest⟩
    have hopens := DeclarationShape.classRule_of_classLike _ form hclass
    rw [← hrest] at hopens
    exact Bool.false_ne_true ((DeclarationShape.classRule_brace rest).symm.trans hopens)
  have hheader : blockHeader lines o = header := by
    simp [blockHeader, hline, hbrace]
  rw [enclosingScope, enclosingOpen_eq, hopen]
  simp only [hheader, hclass]

namespace Line

theorem codeFrom_plain (text : List Char) (h : ∀ c ∈ text, isQuote c = false ∧ c ≠ '/') :
    codeFrom .code text = text := by
  induction text with
  | nil => rfl
  | cons c text ih =>
    rw [List.forall_mem_cons] at h
    rw [codeFrom_code_cons c text fun hc => absurd hc h.1.2, h.1.1, ih h.2]
    rfl

theorem codeChars_star (line : Line) (rest : List Char) (h : Text.trim line = '*' :: rest) :
    line.codeChars = [] := by
  have htrim : Text.trim line <+: Text.trimStart line := Text.trimEnd_prefix _
  have hprefix : ['*'] <+: Text.trimStart line := by
    rw [h] at htrim
    exact List.IsPrefix.trans ⟨rest, rfl⟩ htrim
  have hcomment : line.isCommentLine = true := by
    rw [isCommentLine, Bool.or_eq_true]
    exact Or.inl (List.isPrefixOf_iff_prefix.mpr hprefix)
  rw [codeChars, if_pos hcomment]

theorem kindOfTrimmed_star (rest : List Char) (hslash : rest.head? ≠ some '/')
    (hend : ¬ "*/".toList <:+ '*' :: rest) : kindOfTrimmed ('*' :: rest) = .commentInterior := by
  have hclose : ¬ ("*/".toList.isPrefixOf ('*' :: rest) ||
      "*/".toList.isSuffixOf ('*' :: rest)) = true := by
    rw [Bool.or_eq_true, List.isPrefixOf_iff_prefix, List.isSuffixOf_iff_suffix]
    rintro (⟨more, hmore⟩ | hsuffix)
    · obtain ⟨-, hrest⟩ : '*' = '*' ∧ '/' :: more = rest := List.cons.inj hmore
      exact hslash (by rw [← hrest]; rfl)
    · exact hend hsuffix
  have hempty : ¬ ('*' :: rest).isEmpty = true := Bool.false_ne_true
  have hdoc : ¬ "/**".toList.isPrefixOf ('*' :: rest) = true := Bool.false_ne_true
  have hopen : ¬ "/*".toList.isPrefixOf ('*' :: rest) = true := Bool.false_ne_true
  have hstar : "*".toList.isPrefixOf ('*' :: rest) = true :=
    List.isPrefixOf_iff_prefix.mpr ⟨rest, rfl⟩
  rw [kindOfTrimmed, if_neg hempty, if_neg hdoc, if_neg hopen, if_neg hclose, if_pos hstar]

theorem codeChars_plain (line : Line) (hstar : (Text.trim line).head? ≠ some '*')
    (h : ∀ c ∈ Text.trim line, isQuote c = false ∧ c ≠ '/') : line.codeChars = line := by
  obtain ⟨front, back, hline, hfront, hback⟩ := Text.exists_trim line
  have hblank (c : Char) (hc : Text.isBlank c = true) : isQuote c = false ∧ c ≠ '/' := by
    constructor
    · rw [← Bool.not_eq_true]
      intro hq
      rcases quote_cases c hq with rfl | rfl | rfl <;> exact absurd hc (by decide)
    · rintro rfl
      exact absurd hc (by decide)
  have hplain : ∀ c ∈ line, isQuote c = false ∧ c ≠ '/' := by
    intro c hc
    rw [hline] at hc
    rcases List.mem_append.mp hc with hc | hc
    · exact hblank c (hfront c hc)
    · exact (List.mem_append.mp hc).elim (h c) fun hc => hblank c (hback c hc)
  have hcomment : ¬ line.isCommentLine = true := by
    rw [isCommentLine, Bool.or_eq_true, List.isPrefixOf_iff_prefix, List.isPrefixOf_iff_prefix]
    rintro (⟨rest, hrest⟩ | ⟨rest, hrest⟩)
    · apply hstar
      rw [Text.trim, ← hrest]
      show (Text.trimEnd ([] ++ '*' :: rest)).head? = some '*'
      rw [Text.trimEnd_behind [] rest '*' (by decide)]
      rfl
    · have hmem : '/' ∈ Text.trimStart line := by simp [← hrest]
      exact (hplain '/' ((List.dropWhile_suffix _).subset hmem)).2 rfl
  rw [codeChars, if_neg hcomment, codeFrom_plain line hplain]

end Line

theorem bracesOf_blank (text : List Char) (h : ∀ c ∈ text, Text.isBlank c = true) :
    bracketsOf '{' '}' text = [] := by
  apply bracketsOf_eq_nil
  intro c hc
  have hc := h c hc
  constructor <;> rintro rfl <;> exact absurd hc (by decide)

theorem leftoverOf_plain (line : Line) (hstar : (Text.trim line).head? ≠ some '*')
    (h : ∀ c ∈ Text.trim line, Line.isQuote c = false ∧ c ≠ '/') :
    leftoverOf [line] = leftover (bracketsOf '{' '}' (Text.trim line)) := by
  obtain ⟨front, back, hline, hfront, hback⟩ := Text.exists_trim line
  rw [leftoverOf_singleton, line.codeChars_plain hstar h]
  conv_lhs => rw [hline]
  rw [bracketsOf_append, bracketsOf_append, bracesOf_blank front hfront,
    bracesOf_blank back hback, List.nil_append, List.append_nil]

namespace GeneratorHeader

variable (h : GeneratorHeader)

def codeMarks : List Char := ['{', '}', '"', '\x27', '\x60', '/']

def front : List Char :=
  Text.spaced (h.modifiers.map String.toList) ++
    '*' :: (h.name ++ '(' :: (h.params ++ [')', ' ']))

theorem text_eq : h.text = h.front ++ ['{'] := by simp [text, core, front]

theorem not_codeMark_of_nameChar (c : Char) (hc : Text.isNameChar c = true) : c ∉ codeMarks := by
  have hall : (codeMarks.all fun d => !Text.isNameChar d) = true := by decide
  intro hmem
  have hnot := List.all_eq_true.mp hall c hmem
  rw [hc] at hnot
  exact Bool.false_ne_true hnot

theorem front_plain (c : Char) (hc : c ∈ h.front) : c ∉ codeMarks := by
  have hmarks : (codeMarks.all paramMarks.contains) = true := by decide
  simp only [front, List.mem_append, List.mem_cons, List.not_mem_nil, or_false] at hc
  rcases hc with hc | rfl | hc | rfl | hc | rfl | rfl
  · obtain ⟨word, hword, hc⟩ := List.mem_flatMap.mp hc
    obtain ⟨m, hm, rfl⟩ := List.mem_map.mp hword
    have hname := DeclarationShape.isName_of_modifier m (h.modifiers_known m hm)
    rcases List.mem_append.mp hc with hc | hc
    · exact not_codeMark_of_nameChar c (Text.nameChar_of_isName _ hname c hc)
    · rw [List.mem_singleton.mp hc]
      decide
  · decide
  · have hparts := (DeclarationShape.namePart_identifier h.name []
      (DeclarationShape.reads_memberName _ _ h.named)).2 c hc
    rw [DeclarationShape.isNamePart, Bool.or_eq_true, beq_iff_eq] at hparts
    rcases hparts with hname | rfl
    · exact not_codeMark_of_nameChar c hname
    · decide
  · decide
  · intro hmark
    exact h.params_plain c hc (List.contains_iff_mem.mp (List.all_eq_true.mp hmarks c hmark))
  · decide
  · decide

theorem text_plain (c : Char) (hc : c ∈ h.text) : Line.isQuote c = false ∧ c ≠ '/' := by
  rw [text_eq, List.mem_append, List.mem_singleton] at hc
  rcases hc with hc | rfl
  · have hmark := h.front_plain c hc
    simp only [codeMarks, List.mem_cons, List.not_mem_nil, or_false, not_or] at hmark
    exact ⟨by simp [Line.isQuote, hmark], hmark.2.2.2.2.2⟩
  · decide

theorem leftover_text : leftover (bracketsOf '{' '}' h.text) = ⟨0, [0]⟩ := by
  have hfront : bracketsOf '{' '}' h.front = [] := by
    apply bracketsOf_eq_nil
    intro c hc
    have hmark := h.front_plain c hc
    simp only [codeMarks, List.mem_cons, not_or] at hmark
    exact ⟨hmark.1, hmark.2.1⟩
  rw [text_eq, bracketsOf_append, hfront]
  rfl

theorem not_closesComment (line : Line) (hline : Text.trim line = h.text) :
    line.closesComment = false := by
  rw [Line.closesComment_eq, hline, text_eq, ← Bool.not_eq_true, List.isSuffixOf_iff_suffix]
  rintro ⟨before, hbefore⟩
  have hlast := congrArg List.getLast? hbefore
  simp at hlast

theorem head?_text (hne : h.modifiers ≠ []) : h.text.head?.any Text.isNameStart = true := by
  have hwords : ∀ word ∈ h.modifiers.map String.toList, Text.isName word = true := by
    intro word hword
    obtain ⟨m, hm, rfl⟩ := List.mem_map.mp hword
    exact DeclarationShape.isName_of_modifier m (h.modifiers_known m hm)
  exact (Text.head?_spaced _ h.core hwords).resolve_left (by simpa using hne)

section Header

variable (line : Line) (hline : Text.trim line = h.text)

include hline

theorem kind_modified (hne : h.modifiers ≠ []) :
    line.kind = .declaration ⟨.function, .explicit⟩ := by
  have hstart := h.head?_text hne
  have hshape := h.ofText?_text
  rw [if_neg hne] at hshape
  cases htext : h.text with
  | nil => simp [htext] at hstart
  | cons c cs =>
    rw [htext] at hline hstart hshape
    rw [line.kind_eq_declaration_iff c cs _ hline (Text.nameChar_of_nameStart c hstart)]
    exact ⟨h.not_closesComment line (hline.trans htext.symm), hshape⟩

theorem leftover_modified (hne : h.modifiers ≠ []) : leftoverOf [line] = ⟨0, [0]⟩ := by
  have hstar := Text.head?_ne '*' h.text (h.head?_text hne) (by decide)
  rw [← hline] at hstar
  rw [leftoverOf_plain line hstar (hline ▸ h.text_plain), hline, leftover_text]

theorem trim_star (hnone : h.modifiers = []) :
    Text.trim line = '*' :: (h.name ++ '(' :: (h.params ++ [')', ' ', '{'])) := by
  rw [hline, text, hnone]
  rfl

theorem kind_star (hnone : h.modifiers = []) : line.kind = .commentInterior := by
  have htrim := h.trim_star line hline hnone
  rw [Line.kind, htrim]
  apply Line.kindOfTrimmed_star
  · have hnamed := h.named
    cases hname : h.name with
    | nil => simp [hname, DeclarationShape.isMemberName] at hnamed
    | cons c cs =>
      rw [hname, DeclarationShape.isMemberName, Bool.and_eq_true] at hnamed
      intro hslash
      obtain rfl : c = '/' := by simpa using hslash
      exact absurd hnamed.1 (by decide)
  · rw [← htrim, ← List.isSuffixOf_iff_suffix, ← Line.closesComment_eq,
      h.not_closesComment line hline]
    exact Bool.false_ne_true

theorem leftover_star (hnone : h.modifiers = []) : BracesPaired [line] := by
  rw [BracesPaired, leftoverOf_singleton, line.codeChars_star _ (h.trim_star line hline hnone)]
  rfl

end Header

end GeneratorHeader

theorem leftoverOf_closing (line : Line) (h : Text.trim line = ['}']) :
    leftoverOf [line] = ⟨1, []⟩ := by
  have hplain : ∀ c ∈ Text.trim line, Line.isQuote c = false ∧ c ≠ '/' := by
    intro c hc
    rw [h, List.mem_singleton] at hc
    subst hc
    decide
  rw [leftoverOf_plain line (by rw [h]; decide) hplain, h]
  rfl

/-- A source with a class that has a generator method among its members. The braces of the code
are paired in the members above the method, in its body and in the members below it. -/
structure GeneratorClass where
  above : List Line
  header : Line
  members : List Line
  method : GeneratorHeader
  line : Line
  body : List Line
  closing : Line
  after : List Line
  rest : List Line
  classLike : ∃ form, DeclarationShape.ofText? (Text.trim header) = some ⟨.classLike, form⟩
  header_opens : ∃ front back, header.codeChars = front ++ '{' :: back ∧
    ∀ c ∈ back, Text.isBlank c = true
  members_paired : Paired [] (codeOf members)
  line_text : Text.trim line = method.text
  body_paired : BracesPaired body
  closing_text : Text.trim closing = ['}']
  after_paired : BracesPaired after

namespace GeneratorClass

variable (s : GeneratorClass)

def methodLines : List Line := [s.line] ++ (s.body ++ [s.closing])

def upper : List Line := s.above ++ ([s.header] ++ s.members)

def lines : List Line := s.upper ++ (s.methodLines ++ (s.after ++ s.rest))

def index : Nat := s.upper.length

def next : Nat := s.index + s.methodLines.length + s.after.length

theorem lines_eq_header : s.lines =
    s.above ++ ([s.header] ++ (s.members ++ (s.methodLines ++ (s.after ++ s.rest)))) := by
  simp [lines, upper]

theorem line_index : s.lines[s.index]? = some s.line := by
  rw [lines, index, List.getElem?_append_right (Nat.le_refl _), Nat.sub_self]
  rfl

theorem line_header : s.lines[s.above.length]? = some s.header := by
  rw [lines_eq_header, List.getElem?_append_right (Nat.le_refl _), Nat.sub_self]
  rfl

theorem open_header : ∃ inner : List Nat,
    inner.length = unclosed '{' '}' s.header.codeChars ∧ (∀ l ∈ inner, l = s.above.length) ∧
    ∃ n, openLines s.lines (s.above.length + 1) =
      inner ++ (openLines s.lines s.above.length).drop n := by
  obtain ⟨inner, hlength, hinner, hopen⟩ := openLines_over s.above [s.header]
    (s.members ++ (s.methodLines ++ (s.after ++ s.rest)))
  rw [leftoverOf_singleton] at hlength
  rw [← lines_eq_header] at hopen
  refine ⟨inner, hlength, ?_, _, hopen⟩
  intro l hl
  have hline := hinner l hl
  rw [List.length_singleton] at hline
  omega

theorem unclosed_header : unclosed '{' '}' s.header.codeChars ≠ 0 := by
  obtain ⟨front, back, hcode, hback⟩ := s.header_opens
  rw [hcode]
  intro hzero
  have hbrace := unclosed_of_append '{' '}' (by decide) front _ hzero
  have hpos := ((unclosed_cons_eq_zero_iff '{' '}' '{' back (by decide)).mp hbrace).2 rfl
  rw [unopened, bracesOf_blank back hback] at hpos
  exact Nat.lt_irrefl 0 hpos

theorem head?_open_header :
    (openLines s.lines (s.above.length + 1)).head? = some s.above.length := by
  obtain ⟨inner, hlength, hinner, n, hopen⟩ := s.open_header
  cases inner with
  | nil => exact absurd hlength.symm s.unclosed_header
  | cons l inner =>
    rw [hopen, List.cons_append, List.head?_cons, hinner l List.mem_cons_self]

theorem open_index : openLines s.lines s.index = openLines s.lines (s.above.length + 1) := by
  have hmembers : BracesPaired s.members := by
    obtain ⟨-, hclosed, hopened⟩ := s.members_paired.counts
    rw [unclosed, List.length_eq_zero_iff] at hclosed
    rw [BracesPaired, leftoverOf, ← hclosed, ← hopened]
    rfl
  have hlines : s.lines = (s.above ++ [s.header]) ++ (s.members ++
      (s.methodLines ++ (s.after ++ s.rest))) := by simp [lines, upper]
  have hindex : s.index = (s.above ++ [s.header]).length + s.members.length := by
    simp only [index, upper, List.length_append, Nat.add_assoc]
  have hopen := openLines_closed (s.above ++ [s.header]) s.members
    (s.methodLines ++ (s.after ++ s.rest)) 0 hmembers
  rw [← hlines, ← hindex, List.length_append] at hopen
  exact hopen

theorem open_next (n : Nat) (h : leftoverOf s.methodLines = ⟨n, []⟩) :
    openLines s.lines s.next = (openLines s.lines (s.above.length + 1)).drop n := by
  have hlines : s.lines = (s.upper ++ s.methodLines) ++ (s.after ++ s.rest) :=
    (List.append_assoc _ _ _).symm
  have hmethod : openLines s.lines (s.index + s.methodLines.length) =
      (openLines s.lines s.index).drop n :=
    openLines_closed s.upper s.methodLines (s.after ++ s.rest) n h
  have hafter := openLines_closed (s.upper ++ s.methodLines) s.after s.rest 0 s.after_paired
  rw [← hlines, List.length_append, List.drop_zero] at hafter
  exact hafter.trans (hmethod.trans (congrArg _ s.open_index))

theorem leftover_methodLines (r : Leftover) (h : leftoverOf [s.line] = r) :
    leftoverOf s.methodLines = r.join ⟨1, []⟩ := by
  have hbody : leftoverOf s.body = ⟨0, []⟩ := s.body_paired
  rw [methodLines, leftoverOf_append, leftoverOf_append, h, hbody,
    leftoverOf_closing s.closing s.closing_text]
  rfl

theorem not_insideOpenParen : insideOpenParen s.lines s.index = false := by
  obtain ⟨front, back, hcode, hback⟩ := s.header_opens
  have hpaired : Paired [] (back ++ codeOf s.members) := by
    apply Paired.text_append _ _ _ _ s.members_paired
    rw [List.all_eq_true]
    intro c hc
    have hnot : c ∉ groupChars := by
      intro hgroup
      have hall : (groupChars.all fun d => !Text.isBlank d) = true := by decide
      have hblank := List.all_eq_true.mp hall c hgroup
      rw [hback c hc] at hblank
      exact Bool.false_ne_true hblank
    simp [hnot]
  have hbefore : codeBefore s.lines s.index =
      (codeOf s.above ++ front) ++ '{' :: (back ++ codeOf s.members) := by
    rw [codeBefore, lines, index, List.take_left]
    simp [upper, codeOf, hcode]
  obtain ⟨hparens, -, hbraces⟩ := hpaired.counts
  exact insideOpenParen_behind_brace s.lines s.index _ _ hbefore hparens hbraces

theorem declarationAt_modified (hne : s.method.modifiers ≠ []) :
    declarationAt s.lines s.index = some ⟨s.index, .function⟩ :=
  (declarationAt_eq_some_iff s.lines s.index _).mpr ⟨s.line, ⟨.function, .explicit⟩, s.line_index,
    s.method.kind_modified s.line s.line_text hne, rfl, s.not_insideOpenParen, rfl⟩

theorem declarationAt_star (hnone : s.method.modifiers = []) :
    declarationAt s.lines s.index = none := by
  rw [declarationAt, s.line_index]
  simp only [s.method.kind_star s.line s.line_text hnone]

theorem scope_in_class (k : Nat)
    (h : openLines s.lines k = openLines s.lines (s.above.length + 1)) :
    enclosingScope s.lines k = .classBody := by
  obtain ⟨form, hclass⟩ := s.classLike
  exact enclosingScope_of_class s.lines k s.above.length s.header form
    (by rw [h, s.head?_open_header]) s.line_header hclass

theorem scope_next_modified (hne : s.method.modifiers ≠ []) :
    enclosingScope s.lines s.next = .classBody :=
  s.scope_in_class s.next (s.open_next 0 (s.leftover_methodLines ⟨0, [0]⟩
    (s.method.leftover_modified s.line s.line_text hne)))

theorem scope_body_star (hnone : s.method.modifiers = []) :
    enclosingScope s.lines (s.index + 1) = .classBody := by
  apply s.scope_in_class
  have hlines : s.lines = s.upper ++ ([s.line] ++ ((s.body ++ [s.closing]) ++
      (s.after ++ s.rest))) := by simp [lines, methodLines]
  have hopen := openLines_closed s.upper [s.line] ((s.body ++ [s.closing]) ++
    (s.after ++ s.rest)) 0 (s.method.leftover_star s.line s.line_text hnone)
  rw [← hlines] at hopen
  exact hopen.trans s.open_index

theorem scope_next_star (hnone : s.method.modifiers = [])
    (htop : enclosingScope s.lines s.above.length = .topLevel)
    (hone : unclosed '{' '}' s.header.codeChars = 1) :
    enclosingScope s.lines s.next = .topLevel := by
  obtain ⟨inner, hlength, -, n, hopen⟩ := s.open_header
  have hmethod : leftoverOf s.methodLines = ⟨1, []⟩ :=
    s.leftover_methodLines ⟨0, []⟩ (s.method.leftover_star s.line s.line_text hnone)
  rw [enclosingScope_eq_topLevel_iff] at htop ⊢
  rw [s.open_next 1 hmethod, hopen, htop, List.drop_nil, List.append_nil, List.drop_eq_nil_iff]
  exact Nat.le_of_eq (hlength.trans hone)

end GeneratorClass

/-- A generator method of a class is accepted as a function, with the class going on below it, if
and only if a modifier stands before its star. Without one the line patterns still have the text
as a function, but the line is taken for a line of a comment and its brace is not counted: the
body is read as a part of the class, and below the method a class at top level is over. -/
theorem generator_method_accepted_iff (s : GeneratorClass) :
    (declarationAt s.lines s.index = some ⟨s.index, .function⟩ ∧
      enclosingScope s.lines s.next = .classBody ↔ s.method.modifiers ≠ []) ∧
    (s.method.modifiers = [] →
      DeclarationShape.ofText? (Text.trim s.line) = some ⟨.function, .bare⟩ ∧
      s.line.kind = .commentInterior ∧ declarationAt s.lines s.index = none ∧
      enclosingScope s.lines (s.index + 1) = .classBody ∧
      (enclosingScope s.lines s.above.length = .topLevel →
        unclosed '{' '}' s.header.codeChars = 1 →
        enclosingScope s.lines s.next = .topLevel)) := by
  refine ⟨⟨?_, ?_⟩, ?_⟩
  · rintro ⟨hdeclared, -⟩ hnone
    rw [s.declarationAt_star hnone] at hdeclared
    contradiction
  · intro hne
    exact ⟨s.declarationAt_modified hne, s.scope_next_modified hne⟩
  · intro hnone
    have hshape := s.method.ofText?_text
    rw [if_pos hnone, ← s.line_text] at hshape
    exact ⟨hshape, s.method.kind_star s.line s.line_text hnone, s.declarationAt_star hnone,
      s.scope_body_star hnone, s.scope_next_star hnone⟩

def orchardLines (line : String) : List Line :=
  ["class Orchard \x7b", "  trees: Tree[];", line, "    yield row;", "  \x7d", "  acres = 3;",
    "\x7d"].map String.toList

def orchardClass : GeneratorClass where
  above := []
  header := "class Orchard \x7b".toList
  members := ["  trees: Tree[];".toList]
  method :=
    { modifiers := ["static"]
      name := "pickings".toList
      params := "row".toList
      modifiers_known := by decide
      named := by decide
      params_plain := by
        have hall : ("row".toList.all fun c => !paramMarks.contains c) = true := by decide
        intro c hc
        simpa using List.all_eq_true.mp hall c hc }
  line := "  static *pickings(row) \x7b".toList
  body := ["    yield row;".toList]
  closing := "  \x7d".toList
  after := ["  acres = 3;".toList]
  rest := ["\x7d".toList]
  classLike := ⟨.explicit, by decide⟩
  header_opens := ⟨"class Orchard ".toList, [], by decide, by simp⟩
  members_paired := .text_append [] "  trees: Tree[];".toList [] (by decide) (.nil [])
  line_text := by decide
  body_paired := rfl
  closing_text := by decide
  after_paired := rfl

theorem static_generator_accepted :
    let lines := orchardLines "  static *pickings(row) \x7b"
    declarationAt lines 2 = some ⟨2, .function⟩ ∧ enclosingScope lines 6 = .classBody :=
  (generator_method_accepted_iff orchardClass).1.mpr (by decide)

/-- Without the modifier, the method is no declaration and ends the class. -/
theorem star_method_ends_class :
    let lines := orchardLines "  *pickings(row) \x7b"
    declarationAt lines 0 = some ⟨0, .classLike⟩ ∧ enclosingScope lines 0 = .topLevel ∧
    enclosingScope lines 2 = .classBody ∧
    DeclarationShape.ofText? "*pickings(row) \x7b".toList = some ⟨.function, .bare⟩ ∧
    declarationAt lines 2 = none ∧ enclosingScope lines 5 = .topLevel := by
  decide

end DocLint
