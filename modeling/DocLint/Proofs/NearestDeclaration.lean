import DocLint.Proofs.CodeContents
import DocLint.Proofs.EnclosingBlocks
import DocLint.Proofs.PairedBraces

/-!
# The nearest declaration above a line

The upward search looks at each line once or passes over it with a block. So
between a line and the declaration found for it there is no other declaration
outside of the blocks passed over, and the lines of a body, down to the first
declaration in it, belong to the declaration that the body follows.
-/

set_option autoImplicit false

namespace DocLint

/-- Line `e` is a line of a block that is closed above line `start`. -/
def PassedOver (lines : List Line) (start e : Nat) : Prop :=
  ∃ c m, c < start ∧ (lineAt lines c).kind = .closeBrace ∧ matchClose lines c = some m ∧
    m.openLine ≤ e ∧ e ≤ c

/-- From line `low` on, each declaration before line `high` is passed over. -/
def ClearFrom (lines : List Line) (start low high : Nat) : Prop :=
  ∀ e, low ≤ e → e < high → (declarationAt lines e).isSome → PassedOver lines start e

/-- The ways in which a search may end, with the line below the place where it ends. -/
inductive SearchEnd (lines : List Line) (start : Nat) : Option Declaration → Nat → Prop
  | found (d : Declaration) (hd : Accepted lines d) : SearchEnd lines start (some d) (d.index + 1)
  | top : SearchEnd lines start none 0
  | stray (c : Nat) (hc : c < start) (hkind : (lineAt lines c).kind = .closeBrace)
      (hm : matchClose lines c = none) : SearchEnd lines start none (c + 1)

theorem declarationAt_eq_none (lines : List Line) (index : Nat)
    (h : ∀ shape, lines[index]?.map Line.kind ≠ some (.declaration shape)) :
    declarationAt lines index = none := by
  rw [Option.eq_none_iff_forall_ne_some]
  intro d hd
  obtain ⟨line, shape, hl, hk, -⟩ := (declarationAt_eq_some_iff lines index d).mp hd
  exact h shape (by rw [hl, Option.map_some, hk])

theorem ClearFrom.succ {lines : List Line} {start low high : Nat}
    (h : ClearFrom lines start low high) (hnone : declarationAt lines high = none) :
    ClearFrom lines start low (high + 1) := by
  intro e hlow he hsome
  rcases Nat.lt_or_eq_of_le (Nat.le_of_lt_succ he) with hlt | rfl
  · exact h e hlow hlt hsome
  · rw [hnone] at hsome
    contradiction

theorem ClearFrom.block {lines : List Line} {start low c : Nat} {m : BraceMatch}
    (h : ClearFrom lines start low m.openLine) (hc : c < start)
    (hkind : (lineAt lines c).kind = .closeBrace) (hm : matchClose lines c = some m) :
    ClearFrom lines start low (c + 1) := by
  intro e hlow he hsome
  rcases Nat.lt_or_ge e m.openLine with hlt | hge
  · exact h e hlow hlt hsome
  · exact ⟨c, m, hc, hkind, hm, hge, by omega⟩

theorem clearFrom_self (lines : List Line) (start low : Nat) :
    ClearFrom lines start low low := by
  intro e hlow he
  omega

theorem climb_ends (lines : List Line) (start count limit : Nat) (hcount : count ≤ start) :
    ∃ low, SearchEnd lines start (climb lines count limit) low ∧
      ClearFrom lines start low (min count limit) := by
  fun_induction climb lines count limit with
  | case1 limit => exact ⟨0, .top, fun e _ he => by omega⟩
  | case2 index limit hle ih =>
    obtain ⟨low, hend, hclear⟩ := ih (by omega)
    rw [show min index limit = min (index + 1) limit by omega] at hclear
    exact ⟨low, hend, hclear⟩
  | case3 index limit hlt hkind m hm ih =>
    obtain ⟨low, hend, hclear⟩ := ih (by omega)
    rw [Nat.min_eq_right (Nat.le_of_lt (openLine_lt lines index m hm))] at hclear
    rw [Nat.min_eq_left (by omega)]
    exact ⟨low, hend, hclear.block hcount (lineAt_kind lines index _ hkind) hm⟩
  | case4 index limit hlt hkind hm =>
    rw [Nat.min_eq_left (by omega)]
    exact ⟨index + 1, .stray index hcount (lineAt_kind lines index _ hkind) hm,
      clearFrom_self lines start _⟩
  | case5 index limit hlt shape hkind d hd =>
    obtain rfl := declarationAt_index lines index d hd
    rw [Nat.min_eq_left (by omega)]
    exact ⟨d.index + 1, .found d hd, clearFrom_self lines start _⟩
  | case6 index limit hlt shape hkind hnone ih =>
    obtain ⟨low, hend, hclear⟩ := ih (by omega)
    rw [Nat.min_eq_left (by omega)] at hclear ⊢
    exact ⟨low, hend, hclear.succ hnone⟩
  | case7 index limit hlt hclose hdecl ih =>
    obtain ⟨low, hend, hclear⟩ := ih (by omega)
    rw [Nat.min_eq_left (by omega)] at hclear ⊢
    exact ⟨low, hend, hclear.succ (declarationAt_eq_none lines index hdecl)⟩

theorem findDeclaration_self (lines : List Line) (d : Declaration) (hd : Accepted lines d) :
    findDeclaration lines d.index = some d := by
  have hlt := declarationAt_lt lines d.index d hd
  rw [Accepted] at hd
  simp only [findDeclaration, if_pos hlt, hd]

theorem findDeclaration_ends (lines : List Line) (start : Nat) (hstart : start < lines.length) :
    ∃ low, SearchEnd lines start (findDeclaration lines start) low ∧
      ClearFrom lines start low (start + 1) := by
  rw [findDeclaration, if_pos hstart]
  cases hd : declarationAt lines start with
  | some d =>
    obtain rfl := declarationAt_index lines start d hd
    exact ⟨d.index + 1, .found d hd, clearFrom_self lines d.index _⟩
  | none =>
    obtain ⟨low, hend, hclear⟩ := climb_ends lines start start start (Nat.le_refl start)
    rw [Nat.min_self] at hclear
    exact ⟨low, hend, hclear.succ hd⟩

/-- The search returns a declaration of the source, and all others from there down to the line
are passed over. It returns none only if all declarations above the line are passed over, or all
down from a closing brace that has no partner. -/
theorem findDeclaration_sound (lines : List Line) (start : Nat) :
    (∀ d, findDeclaration lines start = some d →
      d.index ≤ start ∧ declarationAt lines d.index = some d ∧
      findDeclaration lines d.index = some d ∧
      ∀ e, d.index < e → e ≤ start → (declarationAt lines e).isSome →
        PassedOver lines start e) ∧
    (start < lines.length → findDeclaration lines start = none →
      (∀ e, e ≤ start → (declarationAt lines e).isSome → PassedOver lines start e) ∨
      ∃ c, c < start ∧ (lineAt lines c).kind = .closeBrace ∧ matchClose lines c = none ∧
        ∀ e, c < e → e ≤ start → (declarationAt lines e).isSome → PassedOver lines start e) := by
  constructor
  · intro d h
    have hle := findDeclaration_le lines start d h
    have hd : Accepted lines d := findDeclaration_accepted lines start d h
    have hstart : start < lines.length := by
      by_contra hge
      rw [findDeclaration, if_neg hge] at h
      contradiction
    obtain ⟨low, hend, hclear⟩ := findDeclaration_ends lines start hstart
    rw [h] at hend
    cases hend with
    | found _ _ =>
      refine ⟨hle, hd, findDeclaration_self lines d hd, ?_⟩
      intro e hde he
      exact hclear e hde (Nat.lt_succ_of_le he)
  · intro hstart h
    obtain ⟨low, hend, hclear⟩ := findDeclaration_ends lines start hstart
    rw [h] at hend
    cases hend with
    | top => exact Or.inl fun e he => hclear e (Nat.zero_le e) (Nat.lt_succ_of_le he)
    | stray c hc hkind hm =>
      exact Or.inr ⟨c, hc, hkind, hm, fun e hce he => hclear e hce (Nat.lt_succ_of_le he)⟩

def strayBrace : List Line :=
  ["class Cart \x7b", "  clear() \x7b", "  \x7d", "\x7d", "\x7d", "run();"].map String.toList

theorem cart_search_sound :
    (findDeclaration fieldAndMethod 6 = some ⟨1, .property⟩ ∧
      findDeclaration fieldAndMethod 1 = some ⟨1, .property⟩ ∧
      declarationAt fieldAndMethod 2 = some ⟨2, .function⟩ ∧ PassedOver fieldAndMethod 6 2) ∧
    findDeclaration strayBrace 5 = none ∧
      ((∀ e, e ≤ 5 → (declarationAt strayBrace e).isSome → PassedOver strayBrace 5 e) ∨
      ∃ c, c < 5 ∧ (lineAt strayBrace c).kind = .closeBrace ∧ matchClose strayBrace c = none ∧
        ∀ e, c < e → e ≤ 5 → (declarationAt strayBrace e).isSome → PassedOver strayBrace 5 e) := by
  have hfield : findDeclaration fieldAndMethod 6 = some ⟨1, .property⟩ := by decide +kernel
  have hmethod : declarationAt fieldAndMethod 2 = some ⟨2, .function⟩ := by decide +kernel
  have hstray : findDeclaration strayBrace 5 = none := by decide +kernel
  obtain ⟨-, -, hself, hclear⟩ := (findDeclaration_sound fieldAndMethod 6).1 _ hfield
  refine ⟨⟨hfield, hself, hmethod, hclear 2 (by decide) (by decide) ?_⟩, hstray,
    (findDeclaration_sound strayBrace 5).2 (by decide) hstray⟩
  rw [hmethod]
  rfl

namespace Line

theorem blank_is_no_code (c : Char) (h : Text.isBlank c = true) :
    c ≠ '/' ∧ isQuote c = false ∧ Brace.ofChar? c = none := by
  refine ⟨?_, ?_, ?_⟩
  · rintro rfl
    exact absurd h (by decide)
  · rw [Bool.eq_false_iff]
    intro hq
    rcases quote_cases c hq with rfl | rfl | rfl <;> exact absurd h (by decide)
  · have hopen : c ≠ '{' := by
      rintro rfl
      exact absurd h (by decide)
    have hclose : c ≠ '}' := by
      rintro rfl
      exact absurd h (by decide)
    simp [Brace.ofChar?, hopen, hclose]

theorem bracesFrom_trimStart (line : Line) :
    (codeFrom .code line).filterMap Brace.ofChar? =
      (codeFrom .code (Text.trimStart line)).filterMap Brace.ofChar? := by
  induction line with
  | nil => rfl
  | cons c line ih =>
    rw [Text.trimStart_cons]
    by_cases hc : Text.isBlank c = true
    · obtain ⟨hslash, hquote, hbrace⟩ := blank_is_no_code c hc
      rw [if_pos hc, codeFrom_code_cons c line (absurd · hslash), hquote, if_neg Bool.false_ne_true,
        List.filterMap_cons_none hbrace, ih]
    · rw [if_neg hc]

theorem trimStart_of_closeBrace (line : Line) (h : line.kind = .closeBrace) :
    ∃ rest, Text.trimStart line = '}' :: rest := by
  have hbrace : ['}'] <+: Text.trim line := by
    rw [← List.isPrefixOf_iff_prefix]
    by_contra hne
    rw [kind, kindOfTrimmed, if_neg hne] at h
    generalize DeclarationShape.ofText? (Text.trim line) = shape? at h
    cases shape? <;> split_ifs at h
  obtain ⟨rest, hrest⟩ := hbrace.trans (Text.trimEnd_prefix (Text.trimStart line))
  exact ⟨rest, hrest.symm⟩

theorem braces_of_closeBrace (line : Line) (h : line.kind = .closeBrace) :
    ∃ bs, line.braces = .closing :: bs := by
  obtain ⟨rest, hrest⟩ := trimStart_of_closeBrace line h
  have hcode : line.isCommentLine = false := by
    rw [isCommentLine, hrest]
    rfl
  refine ⟨(codeFrom .code rest).filterMap Brace.ofChar?, ?_⟩
  rw [braces, codeChars, hcode, if_neg Bool.false_ne_true, bracesFrom_trimStart, hrest,
    codeFrom_code_cons _ _ (absurd · (by decide))]
  rfl

end Line

theorem closings_of_closeBrace (lines : List Line) (c : Nat)
    (h : (lineAt lines c).kind = .closeBrace) :
    0 < (leftover (bracesOn lines c)).closings := by
  obtain ⟨bs, hbs⟩ := Line.braces_of_closeBrace _ h
  have hfirst := closings_of_split [] (bs.map (Prod.mk c)) c rfl
  rw [bracesOn, hbs, List.map_cons]
  rw [List.nil_append] at hfirst
  omega

/-- Where nothing above line `i` is closed up to line `c`, the block that line `c` closes is opened
from line `i` on. -/
theorem matchClose_within (lines : List Line) (i c : Nat) (hic : i ≤ c)
    (h : (lineAt lines c).kind = .closeBrace)
    (hinner : (leftover (bracesBetween lines i (c + 1))).closings = 0) :
    ∃ m, matchClose lines c = some m ∧ i ≤ m.openLine := by
  have hpos := closings_of_closeBrace lines c h
  rw [bracesBetween_succ lines i c hic, leftover_closings_append] at hinner
  have hlt : (leftover (bracesOn lines c)).closings - 1 <
      (waiting (bracesBetween lines i c)).length := by
    rw [length_waiting]
    omega
  obtain ⟨above, l, inside, hsplit, -, hc, ho⟩ :=
    (getElem?_waiting_iff _ _ _).mp (List.getElem?_eq_getElem hlt)
  have hbefore : bracesBefore lines c =
      (bracesBefore lines i ++ above) ++ (l, .opening) :: inside := by
    rw [bracesBefore_eq_append lines i c hic, hsplit, List.append_assoc]
  refine ⟨_, matchClose_of_split lines c _ inside l hbefore hc (by omega), ?_⟩
  exact (line_of_mem_bracesBetween lines i c (l, .opening) (by simp [hsplit])).1

theorem accepted_kind_ne_closeBrace (lines : List Line) (d : Declaration) (hd : Accepted lines d) :
    (lineAt lines d.index).kind ≠ .closeBrace := by
  obtain ⟨line, shape, hl, hk, -⟩ := (declarationAt_eq_some_iff lines d.index d).mp hd
  rw [lineAt_kind lines d.index (.declaration shape) (by rw [hl, Option.map_some, hk])]
  simp

/-- A declaration is found from below if there is no other on the way, and each block that is
closed on the way is opened there too. -/
theorem findDeclaration_reaches (lines : List Line) (d : Declaration) (t : Nat)
    (hd : Accepted lines d) (hle : d.index ≤ t) (ht : t < lines.length)
    (hnone : ∀ e, d.index < e → e ≤ t → declarationAt lines e = none)
    (hclose : ∀ c, d.index < c → c < t → (lineAt lines c).kind = .closeBrace →
      ∃ m, matchClose lines c = some m ∧ d.index < m.openLine) :
    findDeclaration lines t = some d := by
  have hkind := accepted_kind_ne_closeBrace lines d hd
  have hline : ∀ c, d.index ≤ c → (lineAt lines c).kind = .closeBrace → d.index < c := by
    intro c hdc hc
    rcases Nat.lt_or_eq_of_le hdc with hlt | rfl
    · exact hlt
    · exact absurd hc hkind
  have hseen : ¬ PassedOver lines t d.index := by
    rintro ⟨c, m, hct, hc, hm, hopen, hdc⟩
    obtain ⟨m', hm', hlt⟩ := hclose c (hline c hdc hc) hct hc
    obtain rfl : m = m' := Option.some.inj (hm.symm.trans hm')
    omega
  obtain ⟨low, hend, hclear⟩ := findDeclaration_ends lines t ht
  -- the search cannot have gone past a declaration that is in no block passed over
  have hlow : d.index < low := by
    by_contra hge
    apply hseen
    apply hclear d.index (by omega) (by omega)
    rw [show declarationAt lines d.index = some d from hd]
    rfl
  generalize hres : findDeclaration lines t = result at hend ⊢
  cases hend with
  | found e he =>
    have het := findDeclaration_le lines t e hres
    have hindex : d.index = e.index := by
      by_contra hne
      have := hnone e.index (by omega) het
      rw [show declarationAt lines e.index = some e from he] at this
      contradiction
    rw [accepted_unique lines d e hd he hindex]
  | top => contradiction
  | stray c hct hc hm =>
    obtain ⟨m, hm', -⟩ := hclose c (hline c (by omega) hc) hct hc
    rw [hm] at hm'
    contradiction

/-- A declaration owns a line below it if there is no other down to that line and each block closed
in between is opened in between. So it owns all lines of its body, whatever blocks the body opens
and closes itself. -/
theorem declaration_owns_body (lines : List Line) (d : Declaration) (t : Nat)
    (hd : declarationAt lines d.index = some d) (hle : d.index ≤ t) (ht : t < lines.length)
    (hnone : ∀ e, d.index < e → e ≤ t → declarationAt lines e = none) :
    ((∀ c, d.index < c → c < t → (lineAt lines c).kind = .closeBrace →
        ∃ m, matchClose lines c = some m ∧ d.index < m.openLine) →
      findDeclaration lines t = some d) ∧
    ((leftover (bracesBetween lines (d.index + 1) t)).closings = 0 →
      ∀ k, d.index ≤ k → k ≤ t → findDeclaration lines k = some d) := by
  constructor
  · exact findDeclaration_reaches lines d t hd hle ht hnone
  · intro hinner k hdk hkt
    apply findDeclaration_reaches lines d k hd hdk (by omega)
    · exact fun e hde hek => hnone e hde (by omega)
    · intro c hdc hck hc
      have hmono := closings_mono lines (d.index + 1) (c + 1) t (by omega) (by omega)
      exact matchClose_within lines (d.index + 1) c hdc hc (by omega)

def branchedBody : List Line :=
  ["function load() \x7b", "  if (ready) \x7b", "    start(\"\x7d\");", "  \x7d else \x7b",
    "    wait();", "  \x7d", "  return done;", "\x7d"].map String.toList

theorem function_owns_branched_body :
    (∀ e, 0 < e → e ≤ 7 → declarationAt branchedBody e = none) ∧
      (∀ c, 0 < c → c < 7 → (lineAt branchedBody c).kind = .closeBrace →
        ∃ m, matchClose branchedBody c = some m ∧ 0 < m.openLine) ∧
      findDeclaration branchedBody 7 = some ⟨0, .function⟩ ∧
      (leftover (bracesBetween branchedBody 1 7)).closings = 0 ∧
      ∀ k, k ≤ 7 → findDeclaration branchedBody k = some ⟨0, .function⟩ := by
  have hd : declarationAt branchedBody 0 = some ⟨0, .function⟩ := by decide +kernel
  have hnone : ∀ e, 0 < e → e ≤ 7 → declarationAt branchedBody e = none := by
    have hall : ∀ e ∈ List.range 8, 0 < e → declarationAt branchedBody e = none := by
      decide +kernel
    intro e hpos he
    exact hall e (List.mem_range.mpr (by omega)) hpos
  have hclose : ∀ c, 0 < c → c < 7 → (lineAt branchedBody c).kind = .closeBrace →
      ∃ m, matchClose branchedBody c = some m ∧ 0 < m.openLine := by
    have hall : ∀ c ∈ List.range 7, (lineAt branchedBody c).kind = .closeBrace →
        (matchClose branchedBody c).any (fun m => decide (0 < m.openLine)) = true := by
      decide +kernel
    intro c _ hc hkind
    obtain ⟨m, hm, hpos⟩ :=
      (Option.any_eq_true _ _).mp (hall c (List.mem_range.mpr hc) hkind)
    exact ⟨m, hm, of_decide_eq_true hpos⟩
  have hinner : (leftover (bracesBetween branchedBody 1 7)).closings = 0 := by decide +kernel
  obtain ⟨hfind, hbody⟩ := declaration_owns_body branchedBody ⟨0, .function⟩ 7 hd (by decide)
    (by decide) hnone
  exact ⟨hnone, hclose, hfind hclose, hinner, fun k hk => hbody hinner k (Nat.zero_le k) hk⟩

end DocLint
