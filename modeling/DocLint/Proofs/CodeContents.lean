import DocLint.Proofs.BraceMatching
import Mathlib.Data.List.Forall2
import Mathlib.Logic.Relation

/-!
# Contents of literals and inline comments

A literal or an inline comment that is closed on its line adds nothing to the
code of the line, whatever it holds. So its content can be replaced without a
change to the nesting of braces and parentheses anywhere in the source.
-/

set_option autoImplicit false

namespace DocLint

namespace Line

/-- The standpoint behind a text that is read from the given one, unless the rest of the line is
a comment by then. -/
def standAfter : Reading → List Char → Option Reading
  | r, [] => some r
  | .comment, '*' :: '/' :: rest => standAfter .code rest
  | .comment, _ :: rest => standAfter .comment rest
  | .escaped q, _ :: rest => standAfter (.literal q) rest
  | .literal q, c :: rest =>
    if c == '\\' then standAfter (.escaped q) rest
    else if c == q then standAfter .code rest
    else standAfter (.literal q) rest
  | .code, '/' :: '/' :: _ => none
  | .code, '/' :: '*' :: rest => standAfter .comment rest
  | .code, c :: rest =>
    if isQuote c then standAfter (.literal c) rest else standAfter .code rest

theorem codeFrom_comment_cons (c : Char) (rest : List Char)
    (h : c = '*' → rest.head? ≠ some '/') :
    codeFrom .comment (c :: rest) = codeFrom .comment rest := by
  rw [codeFrom]
  rintro rest' rfl rfl
  exact h rfl rfl

theorem codeFrom_code_cons (c : Char) (rest : List Char)
    (h : c = '/' → rest.head? ≠ some '/' ∧ rest.head? ≠ some '*') :
    codeFrom .code (c :: rest) =
      if isQuote c then codeFrom (.literal c) rest else c :: codeFrom .code rest := by
  rw [codeFrom]
  · rintro rest' rfl rfl
    exact (h rfl).1 rfl
  · rintro rest' rfl rfl
    exact (h rfl).2 rfl

/-- No comment starts with the last character of the one text and the first of the other. -/
def Apart (p s : List Char) : Prop :=
  p.getLast? = some '/' → s.head? ≠ some '/' ∧ s.head? ≠ some '*'

theorem Apart.tail {c : Char} {rest s : List Char} (h : Apart (c :: rest) s) : Apart rest s := by
  intro hlast
  apply h
  rw [List.getLast?_cons, hlast]
  rfl

theorem codeFrom_append (r : Reading) (p s : List Char) (h : standAfter r p = some .code)
    (hs : Apart p s) : codeFrom r (p ++ s) = codeFrom r p ++ codeFrom .code s := by
  fun_induction standAfter r p with
  | case1 r =>
    obtain rfl : r = .code := Option.some.inj h
    rfl
  | case2 rest ih =>
    exact ih h hs.tail.tail
  | case3 c rest hne ih =>
    obtain ⟨d, rest', rfl⟩ : ∃ d rest', rest = d :: rest' := by
      cases rest with
      | nil => contradiction
      | cons d rest' => exact ⟨d, rest', rfl⟩
    have hpair : c = '*' → d ≠ '/' := fun hc hd => hne rest' hc (by rw [hd])
    rw [List.cons_append, List.cons_append, codeFrom_comment_cons c _ (by simpa using hpair),
      codeFrom_comment_cons c _ (by simpa using hpair)]
    exact ih h hs.tail
  | case4 q c rest ih =>
    rw [List.cons_append, codeFrom, codeFrom]
    exact ih h hs.tail
  | case5 q c rest hc ih =>
    rw [List.cons_append, codeFrom, codeFrom, if_pos hc, if_pos hc]
    exact ih h hs.tail
  | case6 q c rest hc hq ih =>
    rw [List.cons_append, codeFrom, codeFrom, if_neg hc, if_pos hq, if_neg hc, if_pos hq]
    exact ih h hs.tail
  | case7 q c rest hc hq ih =>
    rw [List.cons_append, codeFrom, codeFrom, if_neg hc, if_neg hq, if_neg hc, if_neg hq]
    exact ih h hs.tail
  | case8 rest => contradiction
  | case9 rest ih =>
    exact ih h hs.tail.tail
  | case10 c rest hline hcomment hq ih =>
    have hc : c ≠ '/' := by
      rintro rfl
      exact absurd hq (by decide)
    rw [List.cons_append, codeFrom_code_cons c _ (absurd · hc),
      codeFrom_code_cons c _ (absurd · hc), if_pos hq, if_pos hq]
    exact ih h hs.tail
  | case11 c rest hline hcomment hq ih =>
    have hin : c = '/' → rest.head? ≠ some '/' ∧ rest.head? ≠ some '*' := by
      intro hc
      constructor
      · intro hhead
        obtain ⟨rest', hrest⟩ := List.head?_eq_some_iff.mp hhead
        exact hline rest' hc hrest
      · intro hhead
        obtain ⟨rest', hrest⟩ := List.head?_eq_some_iff.mp hhead
        exact hcomment rest' hc hrest
    have hout : c = '/' → (rest ++ s).head? ≠ some '/' ∧ (rest ++ s).head? ≠ some '*' := by
      intro hc
      cases rest with
      | nil => exact hs (by rw [hc]; rfl)
      | cons d rest' => exact hin hc
    rw [List.cons_append, codeFrom_code_cons c _ hout, codeFrom_code_cons c _ hin, if_neg hq,
      if_neg hq, List.cons_append]
    exact congrArg (c :: ·) (ih h hs.tail)

/-- The text between the quotes of a literal: its quote stands behind a backslash only, and each
backslash has the character that it escapes behind it. -/
inductive LiteralBody (q : Char) : List Char → Prop
  | nil : LiteralBody q []
  | plain {c : Char} {rest : List Char} :
      c ≠ q → c ≠ '\\' → LiteralBody q rest → LiteralBody q (c :: rest)
  | escape {c : Char} {rest : List Char} :
      LiteralBody q rest → LiteralBody q ('\\' :: c :: rest)

def CommentBody (text : List Char) : Prop := ¬ ['*', '/'] <:+: text

theorem CommentBody.tail {c : Char} {text : List Char} (h : CommentBody (c :: text)) :
    CommentBody text :=
  fun hin => h (hin.trans (List.suffix_cons c text).isInfix)

theorem quote_cases (q : Char) (h : isQuote q = true) : q = '"' ∨ q = '\x27' ∨ q = '\x60' := by
  simpa [isQuote, or_assoc] using h

theorem codeFrom_literalBody (q : Char) (body s : List Char) (hq : isQuote q = true)
    (h : LiteralBody q body) : codeFrom (.literal q) (body ++ q :: s) = codeFrom .code s := by
  induction h with
  | nil =>
    have hne : q ≠ '\\' := by
      rintro rfl
      exact absurd hq (by decide)
    simp [codeFrom, hne]
  | @plain c rest hcq hc _ ih =>
    rw [List.cons_append, codeFrom, if_neg (by simpa using hc), if_neg (by simpa using hcq), ih]
  | @escape c rest _ ih =>
    rw [List.cons_append, List.cons_append, codeFrom, if_pos (by rfl), codeFrom, ih]

theorem codeFrom_commentBody (body s : List Char) (h : CommentBody body) :
    codeFrom .comment (body ++ '*' :: '/' :: s) = codeFrom .code s := by
  induction body with
  | nil => rfl
  | cons c body ih =>
    rw [List.cons_append, codeFrom_comment_cons c, ih h.tail]
    rintro rfl hhead
    cases body with
    | nil => simp at hhead
    | cons d body =>
      obtain rfl : d = '/' := Option.some.inj hhead
      exact h (List.prefix_append ['*', '/'] body).isInfix

/-- Whether a line is a comment as a whole is decided once a character is read that is neither
blank nor a slash. -/
theorem isCommentLine_append (p s : List Char) (c : Char) (hb : Text.isBlank c = false)
    (hc : c ≠ '/') : isCommentLine (p ++ c :: s) = isCommentLine (p ++ [c]) := by
  have htrim (t : List Char) : Text.trimStart (p ++ c :: t) = Text.trimStart p ++ c :: t := by
    rw [Text.trimStart, List.dropWhile_append, Text.trimStart]
    cases hp : p.dropWhile Text.isBlank with
    | nil => simp [hb]
    | cons d rest => simp
  have hslash : ('/' == c) = false := by simpa using hc.symm
  rw [isCommentLine, isCommentLine, htrim, htrim]
  show (['*'].isPrefixOf _ || ['/', '/'].isPrefixOf _) =
    (['*'].isPrefixOf _ || ['/', '/'].isPrefixOf _)
  cases Text.trimStart p with
  | nil => simp [List.isPrefixOf, hslash]
  | cons d front =>
    cases front with
    | nil => simp [List.isPrefixOf, hslash]
    | cons e front => simp [List.isPrefixOf]

theorem codeChars_literal (p s body : List Char) (q : Char) (hp : standAfter .code p = some .code)
    (hq : isQuote q = true) (hbody : LiteralBody q body) :
    codeChars (p ++ q :: (body ++ q :: s)) =
      if isCommentLine (p ++ [q]) then [] else codeFrom .code p ++ codeFrom .code s := by
  obtain ⟨hblank, hslash, hstar⟩ : Text.isBlank q = false ∧ q ≠ '/' ∧ q ≠ '*' := by
    rcases quote_cases q hq with rfl | rfl | rfl <;> decide
  have hopen : codeFrom .code (q :: (body ++ q :: s)) = codeFrom .code s := by
    rw [codeFrom_code_cons q _ (absurd · hslash), if_pos hq, codeFrom_literalBody q body s hq hbody]
  rw [codeChars, isCommentLine_append p _ q hblank hslash,
    codeFrom_append .code p _ hp (fun _ => by simpa using ⟨hslash, hstar⟩), hopen]

theorem codeChars_comment (p s body : List Char) (hp : standAfter .code p = some .code)
    (hlast : p.getLast? ≠ some '/') (hbody : CommentBody body) :
    codeChars (p ++ '/' :: '*' :: (body ++ '*' :: '/' :: s)) =
      if isCommentLine (p ++ ['/', '*']) then [] else codeFrom .code p ++ codeFrom .code s := by
  have hopen : codeFrom .code ('/' :: '*' :: (body ++ '*' :: '/' :: s)) = codeFrom .code s :=
    codeFrom_commentBody body s hbody
  have hfront (t : List Char) : p ++ '/' :: '*' :: t = (p ++ ['/']) ++ '*' :: t := by simp
  rw [codeChars, hfront, isCommentLine_append (p ++ ['/']) _ '*' (by decide) (by decide), ← hfront,
    ← hfront, codeFrom_append .code p _ hp (absurd · hlast), hopen]

/-- The second line is the first with another content in one literal or inline comment. -/
inductive Refilled : Line → Line → Prop
  | literal (p s body body' : List Char) (q : Char) (hp : standAfter .code p = some .code)
      (hq : isQuote q = true) (hbody : LiteralBody q body) (hbody' : LiteralBody q body') :
      Refilled (p ++ q :: (body ++ q :: s)) (p ++ q :: (body' ++ q :: s))
  | comment (p s body body' : List Char) (hp : standAfter .code p = some .code)
      (hlast : p.getLast? ≠ some '/') (hbody : CommentBody body) (hbody' : CommentBody body') :
      Refilled (p ++ '/' :: '*' :: (body ++ '*' :: '/' :: s))
        (p ++ '/' :: '*' :: (body' ++ '*' :: '/' :: s))

theorem Refilled.codeChars_eq {line line' : Line} (h : Refilled line line') :
    line.codeChars = line'.codeChars := by
  cases h with
  | literal p s body body' q hp hq hbody hbody' =>
    rw [codeChars_literal p s body q hp hq hbody, codeChars_literal p s body' q hp hq hbody']
  | comment p s body body' hp hlast hbody hbody' =>
    rw [codeChars_comment p s body hp hlast hbody, codeChars_comment p s body' hp hlast hbody']

theorem codeChars_of_refills {line line' : Line} (h : Relation.ReflTransGen Refilled line line') :
    line.codeChars = line'.codeChars := by
  induction h with
  | refl => rfl
  | tail _ hlast ih => exact ih.trans hlast.codeChars_eq

end Line

def SameCode (lines lines' : List Line) : Prop :=
  ∀ k, (lineAt lines k).codeChars = (lineAt lines' k).codeChars

theorem matchClose_eq_lineAt (lines : List Line) (c : Nat) :
    matchClose lines c =
      let s := BraceStack.empty.readLine c (lineAt lines c).braces.reverse
      if s.isEmpty then none else s.findOpener (bracesBefore lines c).reverse := by
  rcases Nat.lt_or_ge c lines.length with hc | hc
  · rw [matchClose, lineAt_of_lt lines c hc]
  · rw [matchClose, List.getElem?_eq_none hc, lineAt_of_ge lines c hc]
    rfl

theorem codeBefore_succ (lines : List Line) (k : Nat) :
    codeBefore lines (k + 1) = codeBefore lines k ++ (lineAt lines k).codeChars := by
  rw [codeBefore, List.take_add_one, List.flatMap_append]
  rcases Nat.lt_or_ge k lines.length with hk | hk
  · rw [lineAt_of_lt lines k hk]
    simp [codeBefore]
  · rw [List.getElem?_eq_none hk, lineAt_of_ge lines k hk]
    rfl

namespace SameCode

variable {lines lines' : List Line} (h : SameCode lines lines')

include h

theorem braces_eq (k : Nat) : (lineAt lines k).braces = (lineAt lines' k).braces := by
  rw [Line.braces, Line.braces, h k]

theorem bracesBefore_eq (k : Nat) : bracesBefore lines k = bracesBefore lines' k := by
  induction k with
  | zero => rfl
  | succ k ih => rw [bracesBefore_succ, bracesBefore_succ, ih, bracesOn, bracesOn, h.braces_eq k]

theorem codeBefore_eq (k : Nat) : codeBefore lines k = codeBefore lines' k := by
  induction k with
  | zero => rfl
  | succ k ih => rw [codeBefore_succ, codeBefore_succ, ih, h k]

theorem matchClose_eq (k : Nat) : matchClose lines k = matchClose lines' k := by
  rw [matchClose_eq_lineAt, matchClose_eq_lineAt, h.braces_eq k, h.bracesBefore_eq k]

theorem enclosingOpen_eq (k : Nat) : enclosingOpen lines k = enclosingOpen lines' k := by
  rw [enclosingOpen, enclosingOpen, h.bracesBefore_eq k]

theorem insideOpenParen_eq (k : Nat) : insideOpenParen lines k = insideOpenParen lines' k := by
  rw [insideOpenParen, insideOpenParen, h.codeBefore_eq k]

end SameCode

theorem sameCode_of_refills (lines lines' : List Line)
    (h : List.Forall₂ (Relation.ReflTransGen Line.Refilled) lines lines') :
    SameCode lines lines' := by
  induction h with
  | nil => exact fun k => rfl
  | cons hline _ ih =>
    intro k
    cases k with
    | zero => exact Line.codeChars_of_refills hline
    | succ k => exact ih k

/-- A line keeps its braces when a literal or an inline comment of it is refilled, and where any
lines of a source are refilled, any number of times, every line keeps its partner, its block and
its parenthesis. -/
theorem refilled_keeps_nesting :
    (∀ (p s body body' : List Char) (q : Char), Line.standAfter .code p = some .code →
      Line.isQuote q = true → Line.LiteralBody q body → Line.LiteralBody q body' →
      Line.braces (p ++ q :: (body ++ q :: s)) = Line.braces (p ++ q :: (body' ++ q :: s))) ∧
    (∀ p s body body' : List Char, Line.standAfter .code p = some .code →
      p.getLast? ≠ some '/' → Line.CommentBody body → Line.CommentBody body' →
      Line.braces (p ++ '/' :: '*' :: (body ++ '*' :: '/' :: s)) =
        Line.braces (p ++ '/' :: '*' :: (body' ++ '*' :: '/' :: s))) ∧
    ∀ lines lines' : List Line, List.Forall₂ (Relation.ReflTransGen Line.Refilled) lines lines' →
      ∀ k, matchClose lines k = matchClose lines' k ∧
        enclosingOpen lines k = enclosingOpen lines' k ∧
        insideOpenParen lines k = insideOpenParen lines' k := by
  refine ⟨?_, ?_, ?_⟩
  · intro p s body body' q hp hq hbody hbody'
    rw [Line.braces, Line.braces,
      (Line.Refilled.literal p s body body' q hp hq hbody hbody').codeChars_eq]
  · intro p s body body' hp hlast hbody hbody'
    rw [Line.braces, Line.braces,
      (Line.Refilled.comment p s body body' hp hlast hbody hbody').codeChars_eq]
  · intro lines lines' hlines k
    have h := sameCode_of_refills lines lines' hlines
    exact ⟨h.matchClose_eq k, h.enclosingOpen_eq k, h.insideOpenParen_eq k⟩

/-- A call with a literal in its argument, in a block that ends in a remark. -/
def loggedBlock (text remark : List Char) : List Line :=
  ["run(() => \x7b".toList, "  log(".toList ++ '"' :: (text ++ '"' :: ");".toList),
    "\x7d ".toList ++ '/' :: '*' :: (remark ++ '*' :: '/' :: ");".toList)]

theorem logged_block_refilled :
    Line.braces ("  log(".toList ++ '"' :: ("\\\"\x7b".toList ++ '"' :: ");".toList)) =
      Line.braces ("  log(".toList ++ '"' :: ("\x7d".toList ++ '"' :: ");".toList)) ∧
    Line.braces ("\x7d ".toList ++ '/' :: '*' :: ("* \x7b".toList ++ '*' :: '/' :: ");".toList)) =
      Line.braces ("\x7d ".toList ++ '/' :: '*' :: ("(".toList ++ '*' :: '/' :: ");".toList)) ∧
    ∀ k, matchClose (loggedBlock "\\\"\x7b".toList "* \x7b".toList) k =
        matchClose (loggedBlock "\x7d".toList "(".toList) k ∧
      enclosingOpen (loggedBlock "\\\"\x7b".toList "* \x7b".toList) k =
        enclosingOpen (loggedBlock "\x7d".toList "(".toList) k ∧
      insideOpenParen (loggedBlock "\\\"\x7b".toList "* \x7b".toList) k =
        insideOpenParen (loggedBlock "\x7d".toList "(".toList) k := by
  have hcall : Line.standAfter .code "  log(".toList = some .code := by decide
  have hend : Line.standAfter .code "\x7d ".toList = some .code := by decide
  have hlast : "\x7d ".toList.getLast? ≠ some '/' := by decide
  have htext : Line.LiteralBody '"' "\\\"\x7b".toList :=
    .escape (.plain (by decide) (by decide) .nil)
  have htext' : Line.LiteralBody '"' "\x7d".toList := .plain (by decide) (by decide) .nil
  have hremark : Line.CommentBody "* \x7b".toList := fun h =>
    absurd (h.subset (by simp : '/' ∈ ['*', '/'])) (by decide)
  have hremark' : Line.CommentBody "(".toList := fun h =>
    absurd (h.subset (by simp : '/' ∈ ['*', '/'])) (by decide)
  refine ⟨refilled_keeps_nesting.1 _ _ _ _ '"' hcall (by decide) htext htext',
    refilled_keeps_nesting.2.1 _ _ _ _ hend hlast hremark hremark', ?_⟩
  refine refilled_keeps_nesting.2.2 _ _ (.cons .refl (.cons ?_ (.cons ?_ .nil)))
  · exact .single (.literal _ _ _ _ '"' hcall (by decide) htext htext')
  · exact .single (.comment _ _ _ _ hend hlast hremark hremark')

end DocLint
