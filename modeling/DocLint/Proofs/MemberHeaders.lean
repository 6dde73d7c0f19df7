import DocLint.Proofs.MemberParameters

/-!
# Headers of members

A member is written with its modifiers, its name, its parameters and its return
type, on one line or with each parameter on a line of its own. Both ways of
writing it have the same signature, the one it was written from.
-/

set_option autoImplicit false

namespace DocLint

namespace Signature

theorem parenDepth_blank (depth : Int) (cs : List Char) (h : ∀ c ∈ cs, Text.isBlank c = true) :
    parenDepth depth cs = depth := by
  induction cs with
  | nil => rfl
  | cons c cs ih =>
    rw [List.forall_mem_cons] at h
    have hopen : c ≠ '(' := by
      rintro rfl
      exact absurd h.1 (by decide)
    have hclose : c ≠ ')' := by
      rintro rfl
      exact absurd h.1 (by decide)
    have hstep : parenDepth depth [c] = depth := by simp [parenDepth, hopen, hclose]
    rw [parenDepth_cons, hstep, ih h.2]

theorem parenDepth_trim (depth : Int) (line : Line) :
    parenDepth depth (Text.trim line) = parenDepth depth line := by
  obtain ⟨front, back, hline, hfront, hback⟩ := Text.exists_trim line
  have hdepth := congrArg (parenDepth depth) hline
  rw [parenDepth_append, parenDepth_append, parenDepth_blank depth front hfront,
    parenDepth_blank _ back hback] at hdepth
  exact hdepth.symm

theorem contains_trim (line : Line) : (Text.trim line).contains '(' = line.contains '(' := by
  obtain ⟨front, back, hline, hfront, hback⟩ := Text.exists_trim line
  have hopen (blanks : List Char) (h : ∀ c ∈ blanks, Text.isBlank c = true) : '(' ∉ blanks :=
    fun hmem => absurd (h '(' hmem) (by decide)
  have hmem : '(' ∈ line ↔ '(' ∈ front ++ (Text.trim line ++ back) :=
    iff_of_eq (congrArg ('(' ∈ ·) hline)
  simp only [List.mem_append, hopen front hfront, hopen back hback, false_or, or_false] at hmem
  rw [Bool.eq_iff_iff, List.contains_iff_mem, List.contains_iff_mem, hmem]

theorem headerText_congr (depth : Int) (seen : Bool) (lines lines' rest : List Line)
    (h : lines.map Text.trim = lines'.map Text.trim) :
    headerText depth seen (lines ++ rest) = headerText depth seen (lines' ++ rest) := by
  induction lines generalizing depth seen lines' with
  | nil =>
    obtain rfl : lines' = [] := by simpa using h.symm
    rfl
  | cons line lines ih =>
    cases lines' with
    | nil => contradiction
    | cons line' lines' =>
      have hline : Text.trim line = Text.trim line' := (List.cons.inj h).1
      have hdepth : parenDepth depth line = parenDepth depth line' := by
        rw [← parenDepth_trim, hline, parenDepth_trim]
      have hcontains : line.contains '(' = line'.contains '(' := by
        rw [← contains_trim, hline, contains_trim]
      rw [List.cons_append, List.cons_append, headerText, headerText, hdepth, hcontains, hline,
        ih _ _ lines' (List.cons.inj h).2]

theorem headerText_open (first : Line) (rest : List Line) (hdepth : parenDepth 0 first = 1)
    (hopen : first.contains '(' = true) :
    headerText 0 false (first :: rest) = Text.trim first ++ ' ' :: headerText 1 true rest := by
  rw [headerText, hdepth, hopen]
  rfl

theorem headerText_rows (rows : List Line) (last : Line) (rest : List Line)
    (hrows : ∀ row ∈ rows, parenDepth 1 row = 1) (hlast : parenDepth 1 last = 0) :
    headerText 1 true (rows ++ last :: rest) =
      rows.flatMap (fun row => Text.trim row ++ [' ']) ++ (Text.trim last ++ [' ']) := by
  induction rows with
  | nil =>
    rw [List.nil_append, headerText, hlast]
    rfl
  | cons row rows ih =>
    rw [List.forall_mem_cons] at hrows
    have hnext : headerText 1 true (row :: (rows ++ last :: rest)) =
        Text.trim row ++ ' ' :: headerText 1 true (rows ++ last :: rest) := by
      rw [headerText, hrows.1]
      rfl
    rw [List.cons_append, hnext, ih hrows.2]
    simp

/-- The list of parameters, each with a comma and a blank behind it. -/
def rowsText (params : List MemberParam) : List Char :=
  params.flatMap fun p => p.text ++ [',', ' ']

theorem splitCommas_rows (params : List MemberParam) (prev : Char) :
    splitCommas 0 prev [] (' ' :: rowsText params) =
      params.map (fun p => ' ' :: p.text) ++ [[' ']] := by
  induction params generalizing prev with
  | nil => exact splitCommas_last [' '] (.of_no_brackets [','] [' '] (by decide)) prev
  | cons p params ih =>
    have htext : ' ' :: rowsText (p :: params) =
        (' ' :: p.text) ++ ',' :: (' ' :: rowsText params) := by
      simp [rowsText]
    rw [htext, splitCommas_piece _ _ (.char [','] p.text ' ' (by decide) (by decide) p.nested_text),
      ih]
    rfl

theorem splitParams_rows (params : List MemberParam) :
    splitParams (' ' :: rowsText params) = params.filterMap MemberParam.declared? := by
  have hblank : [[' ']].filterMap paramName? = [] := rfl
  have hpiece : paramName? ∘ (fun p => ' ' :: MemberParam.text p) = MemberParam.declared? :=
    funext fun p => (paramName?_blank p.text).trans p.paramName?_text
  rw [splitParams, splitCommas_rows, List.filterMap_append, hblank, List.append_nil,
    List.filterMap_map, hpiece]

theorem nested_rows (params : List MemberParam) : Nested [] (' ' :: rowsText params) :=
  .char [] _ ' ' (by decide) (by decide) (.flatMap [] params _ fun p _ =>
    p.nested_text.mono.append (.of_no_brackets [] [',', ' '] (by decide)))

theorem splitParams_members (params : List MemberParam) :
    splitParams (Text.join ", ".toList (params.map MemberParam.text)) =
      params.filterMap MemberParam.declared? := by
  have hpiece : paramName? ∘ MemberParam.text = MemberParam.declared? :=
    funext fun p => p.paramName?_text
  rw [splitParams_join _ (List.forall_mem_map.mpr fun p _ => p.nested_text), List.filterMap_map,
    hpiece]

end Signature

/-- A nested text in which no semicolon, no arrow and no opening brace stands outside of all
brackets, except that a brace may open it. -/
inductive ResultNested : List Char → Prop
  | plain (text : List Char) (h : Nested Signature.returnStops text) : ResultNested text
  | braced (inner rest : List Char) (hinner : Nested [] inner)
      (hrest : Nested Signature.returnStops rest) : ResultNested ('{' :: (inner ++ '}' :: rest))

theorem ResultNested.nested {text : List Char} (h : ResultNested text) : Nested [] text := by
  cases h with
  | plain _ h => exact h.mono
  | braced inner rest hinner hrest =>
    exact .group [] inner rest '{' '}' (by decide) (by decide) hinner (by simp) hrest.mono

namespace Signature

theorem returnText_result (text : List Char) (h : ResultNested text) (tail : List Char) :
    returnText 0 ' ' [' '] (text ++ tail) =
      returnText 0 (text.getLast?.getD ' ') (text.reverse ++ [' ']) tail := by
  cases h with
  | plain _ h =>
    exact returnText_nested returnStops text h 0 (Int.le_refl 0) (fun _ => List.Subset.refl _) ' '
      [' '] tail
  | braced inner rest hinner hrest =>
    have hassoc : '{' :: (inner ++ '}' :: rest) ++ tail =
        '{' :: (inner ++ '}' :: (rest ++ tail)) := by
      simp
    have hbrace (cs : List Char) :
        returnText 0 ' ' [' '] ('{' :: cs) = returnText 1 '{' ['{', ' '] cs := rfl
    have hclose (prev : Char) : (1 : Int) + depthStep prev '}' = 0 := by
      rw [depthStep_close prev '{' '}' (by decide) (by simp)]
      rfl
    rw [hassoc, hbrace, returnText_nested [] inner hinner 1 (by decide) (by simp),
      returnText_other 1 _ '}' _ _ (by simp), hclose,
      returnText_nested returnStops rest hrest 0 (Int.le_refl 0) (fun _ => List.Subset.refl _)]
    simp [List.getLast?_cons]

theorem returnText_body (prev : Char) (collected : List Char)
    (h : Text.allBlank collected = false) :
    returnText 0 prev collected [' ', '{'] = collected.reverse ++ [' '] := by
  have hstep : returnText 0 prev collected [' ', '{'] =
      returnText 0 ' ' (' ' :: collected) ['{'] := by
    rw [returnText_other 0 prev ' ' _ _ (by decide)]
    rfl
  have hblank : Text.allBlank (' ' :: collected) = false := h
  rw [hstep, returnText, hblank]
  simp

theorem returnType?_result (result : List Char) (hne : result ≠ [])
    (htrim : Text.trim result = result) (h : ResultNested result) :
    returnType? (':' :: ' ' :: (result ++ [' ', '{'])) = some result := by
  have hblank : Text.allBlank (result.reverse ++ [' ']) = false := by
    rw [← Bool.not_eq_true]
    intro hall
    apply hne
    rw [← htrim, Text.trim_eq_nil_iff]
    intro c hc
    exact List.all_eq_true.mp hall c (by simp [hc])
  have hstart (cs : List Char) : returnText 0 ' ' [] (' ' :: cs) = returnText 0 ' ' [' '] cs := rfl
  have hcollected : Text.trim (returnText 0 ' ' [] (' ' :: (result ++ [' ', '{']))) = result := by
    rw [hstart, returnText_result result h, returnText_body _ _ hblank, Text.trim_append_blank,
      List.reverse_append, List.reverse_reverse]
    exact htrim
  have hnote : Text.trimStart (':' :: ' ' :: (result ++ [' ', '{'])) =
      ':' :: ' ' :: (result ++ [' ', '{']) := rfl
  rw [returnType?, hnote]
  show (if (Text.trim (returnText 0 ' ' [] (' ' :: (result ++ [' ', '{'])))).isEmpty = true
    then none else some _) = some result
  rw [hcollected]
  simp [hne]

end Signature

def memberModifiers : List String :=
  ["public", "private", "protected", "static", "readonly", "abstract", "override", "declare",
    "async", "accessor"]

structure MemberHeader where
  modifiers : List String
  name : List Char
  params : List MemberParam
  result : List Char
  modifiers_known : ∀ m ∈ modifiers, m ∈ memberModifiers
  named : Text.isName name = true
  result_nonempty : result ≠ []
  result_trimmed : Text.trim result = result
  result_nested : ResultNested result

namespace MemberHeader

variable (h : MemberHeader)

def words : List (List Char) := h.modifiers.map String.toList

def opening : Line := Text.spaced h.words ++ h.name ++ ['(']

def closing : Line := ')' :: ':' :: ' ' :: (h.result ++ [' ', '{'])

def text : Line :=
  h.opening ++ Text.join ", ".toList (h.params.map MemberParam.text) ++ h.closing

def layout : List Line :=
  h.opening :: (h.params.map fun p => p.text ++ [',']) ++ [h.closing]

def signature : Signature :=
  ⟨some h.name, h.params.filterMap MemberParam.declared?, some h.result⟩

theorem isName_words : ∀ word ∈ h.words, Text.isName word = true :=
  List.forall_mem_map.mpr fun m hm =>
    (by decide : ∀ m ∈ memberModifiers, Text.isName m.toList = true) m (h.modifiers_known m hm)

theorem not_binding : ∀ k ∈ Signature.bindingWords, k.toList ∉ h.words := by
  intro k hk hmem
  rw [words, List.mem_map] at hmem
  obtain ⟨m, hm, heq⟩ := hmem
  exact (by decide : ∀ k ∈ Signature.bindingWords, ∀ m ∈ memberModifiers, m.toList ≠ k.toList)
    k hk m (h.modifiers_known m hm) heq

theorem ofHeader_inner (inner : List Char) (hinner : Nested [] inner) :
    Signature.ofHeader (h.opening ++ inner ++ h.closing) =
      ⟨some h.name, Signature.splitParams inner, some h.result⟩ := by
  have htext : h.opening ++ inner ++ h.closing = Text.spaced h.words ++
      (h.name ++ '(' :: (inner ++ ')' :: (':' :: ' ' :: (h.result ++ [' ', '{'])))) := by
    simp [opening, closing]
  rw [htext, Signature.ofHeader_spaced h.words h.name inner _ h.isName_words h.not_binding h.named
    hinner, Signature.returnType?_result h.result h.result_nonempty h.result_trimmed
    h.result_nested]

theorem ofHeader_text : Signature.ofHeader h.text = h.signature := by
  have hinner : Nested [] (Text.join ", ".toList (h.params.map MemberParam.text)) :=
    .join _ (List.forall_mem_map.mpr fun p _ => p.nested_text)
  rw [text, ofHeader_inner h _ hinner, Signature.splitParams_members, signature]

theorem head?_opening (rest : List Char) : (h.opening ++ rest).head?.any Text.isBlank = false := by
  have hname := Text.head?_not_blank _ (Text.head?_isName h.name ('(' :: rest) h.named)
  simpa [opening] using Text.spaced_not_blank h.words _ h.isName_words hname

theorem trim_opening : Text.trim h.opening = h.opening :=
  Text.trim_concat _ '(' (by simpa [opening] using h.head?_opening []) rfl

theorem parenDepth_opening : Signature.parenDepth 0 h.opening = 1 := by
  have hnested : Nested [] (Text.spaced h.words ++ h.name) :=
    (Nested.spaced [] h.words h.isName_words rfl (by simp)).append
      (.of_isName [] h.name h.named rfl)
  rw [opening, Signature.parenDepth_append, Signature.parenDepth_nested [] _ hnested]
  rfl

theorem closing_eq : h.closing = ')' :: ':' :: ' ' :: (h.result ++ [' ']) ++ ['{'] := by
  simp [closing]

theorem trim_closing : Text.trim h.closing = h.closing := by
  rw [closing_eq]
  exact Text.trim_concat _ '{' rfl rfl

theorem parenDepth_closing : Signature.parenDepth 1 h.closing = 0 := by
  have hclosing : h.closing = [')', ':', ' '] ++ (h.result ++ [' ', '{']) := rfl
  rw [hclosing, Signature.parenDepth_append, Signature.parenDepth_append,
    Signature.parenDepth_nested [] _ h.result_nested.nested]
  rfl

theorem trim_row (p : MemberParam) : Text.trim (p.text ++ [',']) = p.text ++ [','] :=
  Text.trim_concat p.text ',' (p.head?_text [',']) rfl

theorem parenDepth_row (p : MemberParam) : Signature.parenDepth 1 (p.text ++ [',']) = 1 :=
  Signature.parenDepth_nested [] _
    (p.nested_text.mono.append (.of_no_brackets [] [','] (by decide))) 1

theorem headerText_layout (rest : List Line) :
    Signature.headerText 0 false (h.layout ++ rest) =
      h.opening ++ ' ' :: Signature.rowsText h.params ++ h.closing ++ [' '] := by
  have hlayout : h.layout ++ rest =
      h.opening :: ((h.params.map fun p => p.text ++ [',']) ++ h.closing :: rest) := by
    simp [layout]
  have hrow : (fun p : MemberParam => Text.trim (p.text ++ [',']) ++ [' ']) =
      fun p => p.text ++ [',', ' '] :=
    funext fun p => by rw [trim_row, List.append_assoc]; rfl
  rw [hlayout, Signature.headerText_open _ _ h.parenDepth_opening (by simp [opening]),
    Signature.headerText_rows _ _ _ (List.forall_mem_map.mpr fun p _ => parenDepth_row p)
      h.parenDepth_closing, h.trim_opening, h.trim_closing, List.flatMap_map, hrow,
    ← Signature.rowsText]
  simp

theorem trim_inner (inner : List Char) :
    Text.trim (h.opening ++ inner ++ h.closing) = h.opening ++ inner ++ h.closing := by
  rw [closing_eq, ← List.append_assoc]
  apply Text.trim_concat _ '{' _ rfl
  rw [List.append_assoc, List.append_assoc]
  exact h.head?_opening _

theorem ofLines_layout (before written after : List Line)
    (hwritten : written.map Text.trim = h.layout.map Text.trim)
    (hlength : h.layout.length ≤ Signature.maxLines) :
    Signature.ofLines (before ++ written ++ after) before.length = h.signature := by
  have hcount : written.length = h.layout.length := by
    simpa using congrArg List.length hwritten
  have hlines : ((before ++ written ++ after).drop before.length).take Signature.maxLines =
      written ++ after.take (Signature.maxLines - written.length) := by
    rw [List.append_assoc, List.drop_left, List.take_append, List.take_of_length_le (by omega)]
  rw [Signature.ofLines, hlines, Signature.headerText_congr 0 false written h.layout _ hwritten,
    h.headerText_layout, Text.trim_append_blank, h.trim_inner,
    h.ofHeader_inner _ (Signature.nested_rows h.params), Signature.splitParams_rows, signature]

end MemberHeader

/-- The header of a member is read back from one line, and from the lines of its layout with any
blanks around them. -/
theorem member_header_read_back (h : MemberHeader) :
    Signature.ofHeader h.text = h.signature ∧
      ∀ before written after : List Line, written.map Text.trim = h.layout.map Text.trim →
        h.layout.length ≤ 20 →
        Signature.ofLines (before ++ written ++ after) before.length = h.signature :=
  ⟨h.ofHeader_text, h.ofLines_layout⟩

def callbackMap : List Char :=
  "Map".toList ++ '<' :: ("string, ".toList ++ '(' :: ([] ++ ')' :: " ".toList ++
    '=' :: '>' :: " void".toList) ++ '>' :: [])

theorem nested_callbackMap : Nested [','] callbackMap := by
  have harrow : Nested [] (" ".toList ++ '=' :: '>' :: " void".toList) :=
    (Nested.of_no_brackets [] _ (by decide)).append
      (.arrow [] _ (by decide) (by decide) (.of_no_brackets [] _ (by decide)))
  have hinner : Nested [] ("string, ".toList ++ '(' :: ([] ++ ')' :: " ".toList ++
      '=' :: '>' :: " void".toList)) :=
    (Nested.of_no_brackets [] _ (by decide)).append
      (.group [] [] _ '(' ')' (by decide) (by decide) (.nil []) (by decide) harrow)
  exact (Nested.of_no_brackets [','] _ (by decide)).append
    (.group [','] _ [] '<' '>' (by decide) (by decide) hinner (by decide) (.nil [',']))

/-- A parameter of each kind, and a return type that starts with a brace. -/
def loadHeader : MemberHeader where
  modifiers := ["public", "async"]
  name := "load".toList
  params :=
    [{ modifiers := ["private", "readonly"], variadic := false,
       target := .named "store".toList (by decide) (by decide) (by decide),
       isOptional := true, type := some callbackMap, value := none, modifiers_known := by decide,
       type_nested := fun _ h => Option.some.inj h ▸ nested_callbackMap, value_nested := by simp },
     { modifiers := [], variadic := false,
       target := .pattern '{' '}' " id ".toList (by decide) (.of_no_brackets [] _ (by decide)),
       isOptional := false, type := some "Row".toList, value := some ['{', '}'],
       modifiers_known := by decide,
       type_nested := fun _ h => Option.some.inj h ▸ .of_no_brackets [','] _ (by decide),
       value_nested := fun _ h => Option.some.inj h ▸
         .group [','] [] [] '{' '}' (by decide) (by decide) (.nil []) (by decide) (.nil [',']) },
     { modifiers := [], variadic := true,
       target := .named "rest".toList (by decide) (by decide) (by decide),
       isOptional := false, type := none, value := none, modifiers_known := by decide,
       type_nested := by simp, value_nested := by simp }]
  result := '{' :: (" ok: boolean; ".toList ++ '}' :: ['[', ']'])
  modifiers_known := by decide
  named := by decide
  result_nonempty := by decide
  result_trimmed := by decide
  result_nested := .braced _ _ (.of_no_brackets [] _ (by decide))
    (.group _ [] [] '[' ']' (by decide) (by decide) (.nil []) (by decide) (.nil _))

def indentedLoad : List Line :=
  ["  public async load(", "    private readonly store?: Map<string, () => void>,",
    "    \x7b id \x7d: Row = \x7b\x7d, ", "\t...rest,",
    "  ): \x7b ok: boolean; \x7d[] \x7b"].map String.toList

theorem indented_load_read_back :
    indentedLoad.map Text.trim = loadHeader.layout.map Text.trim ∧
    loadHeader.layout.length ≤ 20 ∧
    Signature.ofLines (["class Cart \x7b".toList] ++ indentedLoad ++ ["  \x7d".toList]) 1 =
      ⟨some "load".toList, ["store".toList, "rest".toList],
        some "\x7b ok: boolean; \x7d[]".toList⟩ := by
  have hwritten : indentedLoad.map Text.trim = loadHeader.layout.map Text.trim := by
    decide +kernel
  have hsignature : loadHeader.signature = ⟨some "load".toList, ["store".toList, "rest".toList],
      some "\x7b ok: boolean; \x7d[]".toList⟩ := by decide +kernel
  rw [← hsignature]
  exact ⟨hwritten, by decide,
    (member_header_read_back loadHeader).2 ["class Cart \x7b".toList] indentedLoad _ hwritten
      (by decide)⟩

def accentedFind : MemberHeader where
  modifiers := []
  name := "find".toList
  params :=
    [{ modifiers := [], variadic := false,
       target := .named "été".toList (by decide) (by decide +kernel) (by decide),
       isOptional := false, type := some "string".toList, value := none,
       modifiers_known := by decide,
       type_nested := fun _ h => Option.some.inj h ▸ .of_no_brackets [','] _ (by decide),
       value_nested := by simp }]
  result := "string".toList
  modifiers_known := by decide
  named := by decide
  result_nonempty := by decide
  result_trimmed := by decide
  result_nested := .plain _ (.of_no_brackets _ _ (by decide))

/-- Every name of a signature starts with an ASCII letter, an underscore or a dollar sign, so this
parameter is no parameter of the signature. -/
theorem accented_parameter_left_out :
    accentedFind.text = "find(été: string): string \x7b".toList ∧
    accentedFind.params.filterMap (fun p => p.target.word?) = ["été".toList] ∧
    (Signature.ofHeader accentedFind.text).params = [] := by
  decide +kernel

end DocLint
