import DocLint.Proofs.CommentedShapes
import DocLint.Proofs.HeaderParts

/-!
# Comments at the end of a declaring line

A line that ends in a block comment is a comment line, whatever it declares. A
line comment is read on like code: the line keeps its shape if the rules that
decided the shape do not look at the end of the line, or if they find nothing in
the comment. Closed headers and members that end with their name are lost.
-/

set_option autoImplicit false

namespace DocLint

namespace Text

theorem head?_trimStart (cs : List Char) : (trimStart cs).head?.any isBlank = false := by
  have h := List.head?_dropWhile_not isBlank cs
  rw [← trimStart] at h
  cases hhead : (trimStart cs).head? with
  | none => rfl
  | some c => simpa [hhead] using h

theorem trimStart_behind (line : List Char) (h : trim line ≠ []) :
    ∃ b gap, isBlank b = true ∧ (∀ c ∈ gap, isBlank c = true) ∧
      ∀ rest, trimStart (line ++ ' ' :: rest) = trim line ++ b :: (gap ++ rest) := by
  obtain ⟨front, back, hline, hfront, hback⟩ := exists_trim line
  have hhead := head?_trimEnd isBlank _ (head?_trimStart line)
  have hskip (rest : List Char) : trimStart (line ++ ' ' :: rest) =
      trim line ++ (back ++ ' ' :: rest) := by
    have hall : line ++ ' ' :: rest = front ++ (trim line ++ (back ++ ' ' :: rest)) := by
      simpa using congrArg (· ++ ' ' :: rest) hline
    rw [hall, trimStart, List.dropWhile_append_of_pos hfront]
    apply trimStart_eq_self
    cases htrim : trim line with
    | nil => exact absurd htrim h
    | cons c cs =>
      rw [← trim, htrim] at hhead
      exact hhead
  cases back with
  | nil => exact ⟨' ', [], by decide, by simp, by simpa using hskip⟩
  | cons b back =>
    rw [List.forall_mem_cons] at hback
    refine ⟨b, back ++ [' '], hback.1, ?_, by simpa using hskip⟩
    intro c hc
    rcases List.mem_append.mp hc with hc | hc
    · exact hback.2 c hc
    · rw [List.mem_singleton.mp hc]
      decide

theorem not_blank_of_all (mark : List Char) (h : (mark.all fun c => !isBlank c) = true) :
    ∀ c ∈ mark, isBlank c = false := by
  simpa using h

theorem prefix_of_blank (mark t rest : List Char) (b : Char) (hb : isBlank b = true)
    (hmark : ∀ c ∈ mark, isBlank c = false) (h : mark <+: t ++ b :: rest) : mark <+: t := by
  obtain ⟨z, hz⟩ := h
  rcases List.append_eq_append_iff.mp hz with ⟨y, rfl, -⟩ | ⟨y, rfl, hy⟩
  · exact List.prefix_append mark y
  · cases y with
    | nil => simp
    | cons c y =>
      obtain rfl : b = c := (List.cons.inj hy).1
      rw [hmark b (by simp)] at hb
      contradiction

theorem infix_trimEnd_iff (mark comment : List Char) (hne : mark ≠ [])
    (hmark : ∀ c ∈ mark, isBlank c = false) :
    mark <:+: trimEnd (' ' :: comment) ↔ mark <:+: comment := by
  obtain ⟨m, ms, rfl⟩ := List.exists_cons_of_ne_nil hne
  constructor
  · intro h
    have hall : m :: ms <:+: ' ' :: comment := h.trans (Text.trimEnd_prefix _).isInfix
    rcases List.infix_cons_iff.mp hall with hprefix | hinfix
    · obtain rfl : m = ' ' := (List.cons_prefix_cons.mp hprefix).1
      exact absurd (hmark ' ' List.mem_cons_self) (by decide)
    · exact hinfix
  · rintro ⟨front, after, rfl⟩
    obtain ⟨init, last, hlast⟩ : ∃ init last, m :: ms = init ++ [last] :=
      ⟨_, _, (List.dropLast_concat_getLast hne).symm⟩
    have hblank := hmark last (by simp [hlast])
    have hend : trimEnd (' ' :: (front ++ (m :: ms) ++ after)) =
        (' ' :: front ++ init) ++ last :: trimEnd after := by
      rw [← trimEnd_behind _ after last hblank, hlast]
      simp
    exact ⟨' ' :: front, trimEnd after, by rw [hend, hlast]; simp⟩

end Text

namespace Line

open DeclarationShape

theorem plainMarks_not_blank :
    (plainMarks.all fun mark => mark.toList.all fun c => !Text.isBlank c) = true := by
  decide

theorem not_plainMark_behind (t rest : List Char) (b : Char) (hb : Text.isBlank b = true)
    (h : ∀ mark ∈ plainMarks, ¬ mark.toList <+: t) :
    ∀ mark ∈ plainMarks, ¬ mark.toList <+: t ++ b :: rest := by
  intro mark hmark hprefix
  have hblank := Text.not_blank_of_all _ (List.all_eq_true.mp plainMarks_not_blank mark hmark)
  exact h mark hmark (Text.prefix_of_blank _ t rest b hb hblank hprefix)

theorem exists_lineComment (line : Line) (comment : List Char) (h : Text.trim line ≠ [])
    (hline : '\n' ∉ line) :
    ∃ k : LineComment, k.text = Text.trimEnd (' ' :: comment) ∧ '\n' ∉ k.start ∧
      Text.trim (line ++ (" // ".toList ++ comment)) = Text.trim line ++ k.chars := by
  obtain ⟨b, gap, hb, hgap, hstart⟩ := Text.trimStart_behind line h
  refine ⟨⟨b, gap, Text.trimEnd (' ' :: comment), hb, hgap⟩, rfl, ?_, ?_⟩
  · intro hmem
    have hall : '\n' ∈ Text.trimStart (line ++ ' ' :: ['/', '/']) := by
      rw [hstart]
      exact List.mem_append_right _ hmem
    rcases List.mem_append.mp ((List.dropWhile_suffix _).subset hall) with hmem | hmem
    · exact hline hmem
    · exact absurd hmem (by decide)
  · have hbehind := hstart ('/' :: '/' :: ' ' :: comment)
    have hend := Text.trimEnd_behind (Text.trim line ++ b :: (gap ++ ['/'])) (' ' :: comment) '/'
      (by decide)
    rw [Text.trim]
    show Text.trimEnd (Text.trimStart (line ++ ' ' :: '/' :: '/' :: ' ' :: comment)) = _
    rw [hbehind]
    simpa [LineComment.chars, LineComment.start] using hend

theorem not_suffix_lineComment (k : LineComment) (t : List Char) (h : ¬ "*/".toList <:+: k.text) :
    ¬ "*/".toList <:+ t ++ k.chars := by
  rintro ⟨before, hbefore⟩
  have hmark := LineComment.isMark_singleton '*' (by decide) (by decide)
  rcases k.locate t before ['*'] ['/'] hmark hbefore.symm with ⟨left, -, hleft⟩ | ⟨left, htext, -⟩
  · have hlength := congrArg List.length hleft
    simp only [LineComment.chars, LineComment.start, List.length_append, List.length_cons,
      List.length_nil] at hlength
    omega
  · exact h ⟨left, [], by simp [htext]⟩

theorem kind_blockComment (line : Line) (comment : List Char) (shape : DeclarationShape)
    (h : line.kind = .declaration shape) :
    kind (line ++ (" /* ".toList ++ comment ++ " */".toList)) = .commentClose := by
  obtain ⟨hne, hmarks, -⟩ := (kindOfTrimmed_eq_declaration_iff _ shape).mp h
  obtain ⟨b, gap, hb, -, hstart⟩ := Text.trimStart_behind line hne
  apply kind_of_closesComment
  · have hend (front : List Char) : Text.trimEnd (front ++ ['/']) = front ++ ['/'] :=
      Text.trimEnd_behind front [] '/' (by decide)
    have hend := hend (line ++ (" /* ".toList ++ comment ++ [' ', '*']))
    rw [closesComment, List.isSuffixOf_iff_suffix]
    refine ⟨line ++ (" /* ".toList ++ comment ++ [' ']), ?_⟩
    simpa using hend.symm
  · rw [opensComment, ← Bool.not_eq_true, List.isPrefixOf_iff_prefix]
    intro hopen
    have hprefix := hopen.trans (Text.trimEnd_prefix _)
    have hbehind := hstart ("/* ".toList ++ comment ++ " */".toList)
    rw [show line ++ (" /* ".toList ++ comment ++ " */".toList) =
      line ++ ' ' :: ("/* ".toList ++ comment ++ " */".toList) from rfl, hbehind] at hprefix
    exact not_plainMark_behind _ _ b hb hmarks "/*" (by decide) hprefix

theorem kind_lineComment (line : Line) (comment : List Char) (shape : DeclarationShape)
    (h : line.kind = .declaration shape) (hline : '\n' ∉ line)
    (hclose : ¬ "*/".toList <:+: comment) :
    ∃ k : LineComment, k.text = Text.trimEnd (' ' :: comment) ∧ '\n' ∉ k.start ∧
      (kind (line ++ (" // ".toList ++ comment)) = .declaration shape ↔
        ofText? (Text.trim line ++ k.chars) = some shape) := by
  obtain ⟨hne, hmarks, -⟩ := (kindOfTrimmed_eq_declaration_iff _ shape).mp h
  obtain ⟨k, htext, hstart, htrim⟩ := exists_lineComment line comment hne hline
  refine ⟨k, htext, hstart, ?_⟩
  have hclose' : ¬ "*/".toList <:+: k.text := by
    rw [htext, Text.infix_trimEnd_iff _ comment (by decide) (Text.not_blank_of_all _ (by decide))]
    exact hclose
  have hmarks' :=
    not_plainMark_behind _ (k.blanks ++ ['/', '/'] ++ k.text) _ k.isBlank_blank hmarks
  rw [kind, htrim, kindOfTrimmed_eq_declaration_iff]
  constructor
  · intro hkind
    exact hkind.2.2.2
  · intro hshape
    exact ⟨by simp [hne], hmarks', not_suffix_lineComment k _ hclose', hshape⟩

end Line

/-- A line that declares something is a comment line with a block comment behind it. With a line
comment behind it, it has the same kind and form exactly if the comment is one that keeps the kind
of its text. -/
theorem trailing_comment_kind (line : Line) (comment : List Char) (shape : DeclarationShape)
    (h : line.kind = .declaration shape) (hline : '\n' ∉ line)
    (hclose : ¬ "*/".toList <:+: comment) :
    Line.kind (line ++ (" /* ".toList ++ comment ++ " */".toList)) = .commentClose ∧
      (Line.kind (line ++ (" // ".toList ++ comment)) = .declaration shape ↔
        DeclarationShape.keepsKind shape.kind (Text.trim line) (Text.trimEnd (' ' :: comment)) =
          true) := by
  obtain ⟨k, htext, hstart, hkind⟩ := line.kind_lineComment comment shape h hline hclose
  obtain ⟨-, -, -, hshape⟩ := (Line.kindOfTrimmed_eq_declaration_iff _ shape).mp h
  refine ⟨line.kind_blockComment comment shape h, ?_⟩
  rw [hkind, DeclarationShape.ofText?_commented_iff k _ shape hshape hstart, htext]

/-- Comments that have an equals sign, an arrow or parentheses and leave the lines as they are, and
one behind a header that is lost. -/
theorem members_kept_behind_comments :
    Line.kind ("limit: number;".toList ++ (" // ".toList ++ "max = (a + b)".toList)) =
        .declaration ⟨.property, .bare⟩ ∧
      Line.kind ("area = (w * h);".toList ++ (" // ".toList ++ "w => h".toList)) =
        .declaration ⟨.property, .bare⟩ ∧
      Line.kind ("get size() \x7b".toList ++ (" // ".toList ++ "see draw()".toList)) =
        .declaration ⟨.function, .bare⟩ ∧
      Line.kind ("render() \x7b".toList ++ (" // ".toList ++ "TODO(bob): fix".toList)) =
        .declaration ⟨.function, .bare⟩ ∧
      Line.kind ("render() \x7b".toList ++ (" // ".toList ++ "draws".toList)) ≠
        .declaration ⟨.function, .bare⟩ := by
  have hiff (line comment : String) (shape : DeclarationShape) (kept : Bool)
      (h : Line.kind line.toList = .declaration shape ∧ '\n' ∉ line.toList ∧
        ¬ "*/".toList <:+: comment.toList ∧ DeclarationShape.keepsKind shape.kind
          (Text.trim line.toList) (Text.trimEnd (' ' :: comment.toList)) = kept) :
      Line.kind (line.toList ++ (" // ".toList ++ comment.toList)) = .declaration shape ↔
        kept = true := by
    obtain ⟨hkind, hline, hclose, hkept⟩ := h
    rw [(trailing_comment_kind line.toList comment.toList shape hkind hline hclose).2, hkept]
  refine ⟨?_, ?_, ?_, ?_, ?_⟩
  · exact (hiff "limit: number;" "max = (a + b)" _ true (by decide +kernel)).mpr rfl
  · exact (hiff "area = (w * h);" "w => h" _ true (by decide +kernel)).mpr rfl
  · exact (hiff "get size() \x7b" "see draw()" _ true (by decide +kernel)).mpr rfl
  · exact (hiff "render() \x7b" "TODO(bob): fix" _ true (by decide +kernel)).mpr rfl
  · exact mt (hiff "render() \x7b" "draws" _ false (by decide +kernel)).mp Bool.false_ne_true

/-- A class with a block comment is a comment line, a method that ends in a brace is lost behind a
line comment, and an arrow in the comment makes a function of a constant. -/
theorem shapes_lost_behind_comments :
    Line.kind "class Shape \x7b".toList = .declaration ⟨.classLike, .explicit⟩ ∧
      Line.kind ("class Shape \x7b".toList ++ (" /* ".toList ++ "drawn".toList ++ " */".toList)) =
        .commentClose ∧
      Line.kind "render() \x7b".toList = .declaration ⟨.function, .bare⟩ ∧
      Line.kind ("render() \x7b".toList ++ (" // ".toList ++ "draws".toList)) = .code ∧
      Line.kind "const limit = 10;".toList = .declaration ⟨.property, .binding⟩ ∧
      Line.kind ("const limit = 10;".toList ++ (" // ".toList ++ "(a) => b".toList)) =
        .declaration ⟨.function, .binding⟩ := by
  decide +kernel

end DocLint
