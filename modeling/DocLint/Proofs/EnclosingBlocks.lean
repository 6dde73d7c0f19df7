import DocLint.Proofs.BraceMatching
import DocLint.Proofs.Ownership

/-!
# Blocks around a declaration and around the lines it owns

The search for the owner of a line climbs over the blocks that are closed above
the line. It leaves the block that it is in by an opening brace only, with two
exceptions: a closing brace that does not start its line, and a line that closes
one block and opens the next, when the search comes to it over that next block.
-/

set_option autoImplicit false

namespace DocLint

theorem lt_of_mem_openLines (lines : List Line) (i l : Nat) (h : l ∈ openLines lines i) :
    l < i := by
  rw [openLines_eq] at h
  exact line_of_mem_bracesBefore lines i (l, .opening) (mem_leftover_openings _ l h)

/-- The blocks opened above line `i` that are open at line `k`, innermost first. -/
def openAbove (lines : List Line) (i k : Nat) : List Nat := (openLines lines k).filter (· < i)

/-- Line `k` closes a block that was opened above line `i`. -/
def ClosesAbove (lines : List Line) (i k : Nat) : Prop :=
  openAbove lines i (k + 1) ≠ openAbove lines i k

theorem openAbove_eq_drop (lines : List Line) (i k : Nat) (h : i ≤ k) :
    openAbove lines i k =
      (openLines lines i).drop (leftover (bracesBetween lines i k)).closings := by
  have hlower : (leftover (bracesBetween lines i k)).openings.filter (· < i) = [] := by
    rw [List.filter_eq_nil_iff]
    intro l hl
    have hmem := mem_leftover_openings _ l hl
    have := (line_of_mem_bracesBetween lines i k (l, .opening) hmem).1
    simp only [decide_eq_true_eq]
    omega
  have hupper : ∀ l ∈ (openLines lines i).drop (leftover (bracesBetween lines i k)).closings,
      decide (l < i) = true := by
    intro l hl
    have hlt := lt_of_mem_openLines lines i l (List.mem_of_mem_drop hl)
    simp [hlt]
  rw [openAbove, openLines_append lines i k h, List.filter_append, hlower, List.nil_append,
    List.filter_eq_self.mpr hupper]

theorem openAbove_self (lines : List Line) (i : Nat) :
    openAbove lines i i = openLines lines i := by
  rw [openAbove_eq_drop lines i i (Nat.le_refl i), bracesBetween_self]
  rfl

theorem closings_mono (lines : List Line) (i k n : Nat) (hik : i ≤ k) (hkn : k ≤ n) :
    (leftover (bracesBetween lines i k)).closings ≤
      (leftover (bracesBetween lines i n)).closings := by
  rw [bracesBetween_append lines i k n hik hkn, leftover_closings_append]
  omega

theorem openAbove_of_suffix (lines : List Line) (i k n : Nat) (hik : i ≤ k) (hkn : k ≤ n)
    (h : openLines lines i <:+ openLines lines n) :
    openAbove lines i k = openLines lines i := by
  obtain ⟨front, hfront⟩ := h
  have hdrop := openAbove_eq_drop lines i n (Nat.le_trans hik hkn)
  have hself : (openLines lines i).filter (· < i) = openLines lines i := openAbove_self lines i
  -- the suffix is kept whole, so what is closed up to line `n` takes nothing from it
  rw [openAbove, ← hfront, List.filter_append, hself] at hdrop
  have hlen := congrArg List.length hdrop
  simp only [List.length_append, List.length_drop] at hlen
  have hmono := closings_mono lines i k n hik hkn
  rw [openAbove_eq_drop lines i k hik]
  by_cases hz : (leftover (bracesBetween lines i k)).closings = 0
  · rw [hz, List.drop_zero]
  · have hempty : openLines lines i = [] := List.length_eq_zero_iff.mp (by omega)
    simp [hempty]

/-- The blocks around a line stay open down to line `n` if and only if no line in between closes
one of them. -/
theorem openLines_suffix_iff (lines : List Line) (i n : Nat) (h : i ≤ n) :
    openLines lines i <:+ openLines lines n ↔
      ∀ k, i ≤ k → k < n → ¬ ClosesAbove lines i k := by
  constructor
  · intro hs k hik hkn hclose
    apply hclose
    rw [openAbove_of_suffix lines i k n hik (by omega) hs,
      openAbove_of_suffix lines i (k + 1) n (by omega) (by omega) hs]
  · intro hnone
    have hkept : ∀ k, i ≤ k → k ≤ n → openAbove lines i k = openLines lines i := by
      intro k hik
      induction hik with
      | refl => exact fun _ => openAbove_self lines i
      | step hik ih =>
        intro hkn
        have hstep := Decidable.not_not.mp (hnone _ hik (by omega))
        rw [hstep, ih (by omega)]
    have hdrop := openAbove_eq_drop lines i n h
    rw [hkept n h (Nat.le_refl n)] at hdrop
    rw [openLines_append lines i n h, ← hdrop]
    exact List.suffix_append _ _

theorem append_eq_of_not_mem_right {α : Type} (front back above block : List α) (x : α)
    (h : front ++ back = above ++ x :: block) (hx : x ∉ back) :
    ∃ inside, front = above ++ x :: inside ∧ block = inside ++ back := by
  rcases List.append_eq_append_iff.mp h with ⟨rest, -, hback⟩ | ⟨rest, hfront, hrest⟩
  · exact absurd (by simp [hback]) hx
  · cases rest with
    | nil =>
      rw [List.nil_append] at hrest
      exact absurd (hrest ▸ List.mem_cons_self) hx
    | cons y inside =>
      obtain ⟨rfl, hblock⟩ := List.cons.inj hrest
      exact ⟨inside, hfront, hblock⟩

theorem append_eq_of_not_mem_left {α : Type} (front back above block : List α) (x : α)
    (h : front ++ back = above ++ x :: block) (hx : x ∉ front) :
    ∃ rest, back = rest ++ x :: block := by
  rcases List.append_eq_append_iff.mp h with ⟨rest, -, hback⟩ | ⟨rest, hfront, hrest⟩
  · exact ⟨rest, hback⟩
  · cases rest with
    | nil => exact ⟨[], by simpa using hrest.symm⟩
    | cons y inside =>
      obtain ⟨rfl, -⟩ := List.cons.inj hrest
      exact absurd (by simp [hfront]) hx

/-- Below its opener, no line of a block that is closed on line `c` closes what was opened above
the block. -/
theorem not_closesAbove_of_matchClose (lines : List Line) (c : Nat) (m : BraceMatch)
    (h : matchClose lines c = some m) (i k : Nat) (hi : i ≤ m.openLine) (hk : m.openLine < k)
    (hkc : k ≤ c) : ¬ ClosesAbove lines i k := by
  obtain ⟨above, block, hbefore, hblock⟩ := matchClose_block lines c m h
  have hlt := openLine_lt lines c m h
  rw [bracesBefore_eq_append lines i (c + 1) (by omega)] at hbefore
  obtain ⟨rest, hrest⟩ := append_eq_of_not_mem_left _ _ above block _ hbefore (fun hmem => by
    have := line_of_mem_bracesBefore lines i _ hmem
    simp only at this
    omega)
  have hclosings : ∀ j, m.openLine < j → j ≤ c + 1 →
      (leftover (bracesBetween lines i j)).closings = (leftover rest).closings := by
    intro j hj hjc
    rw [bracesBetween_append lines i j (c + 1) (by omega) hjc] at hrest
    obtain ⟨inside, hfront, hsplit⟩ := append_eq_of_not_mem_right _ _ rest block _ hrest
      (fun hmem => by
        have := (line_of_mem_bracesBetween lines j (c + 1) _ hmem).1
        simp only at this
        omega)
    rw [hsplit, ← List.cons_append, leftover_closings_append] at hblock
    rw [hfront, leftover_closings_append]
    omega
  intro hclose
  apply hclose
  rw [openAbove_eq_drop lines i k (by omega), openAbove_eq_drop lines i (k + 1) (by omega),
    hclosings k hk (by omega), hclosings (k + 1) (by omega) (by omega)]

/-- A search from line `n` may come from below line `k` to above it without passing over what the
line closes: the line does not start with a closing brace, or it opens a block that is closed above
line `n` and passed over. -/
def Crossable (lines : List Line) (n k : Nat) : Prop :=
  (lineAt lines k).kind ≠ .closeBrace ∨
    ∃ c m, c < n ∧ (lineAt lines c).kind = .closeBrace ∧ matchClose lines c = some m ∧
      m.openLine = k

theorem lineAt_kind (lines : List Line) (k : Nat) (kind : LineKind)
    (h : lines[k]?.map Line.kind = some kind) : (lineAt lines k).kind = kind := by
  obtain ⟨line, hl, rfl⟩ := Option.map_eq_some_iff.mp h
  simp [lineAt, List.getD_eq_getElem?_getD, hl]

theorem lineAt_kind_ne_closeBrace (lines : List Line) (k : Nat)
    (h : lines[k]?.map Line.kind ≠ some .closeBrace) : (lineAt lines k).kind ≠ .closeBrace := by
  rcases Nat.lt_or_ge k lines.length with hk | hk
  · rw [lineAt_of_lt lines k hk] at h
    simpa using h
  · rw [lineAt_of_ge lines k hk]
    decide

theorem climb_lt (lines : List Line) (count limit : Nat) (d : Declaration)
    (h : climb lines count limit = some d) : d.index < min count limit := by
  fun_induction climb lines count limit with
  | case1 limit => contradiction
  | case2 index limit hle ih => have := ih h; omega
  | case3 index limit hlt hkind m hm ih => have := ih h; omega
  | case4 index limit hlt hkind hm => contradiction
  | case5 index limit hlt shape hkind e he =>
    obtain rfl : e = d := Option.some.inj h
    have := declarationAt_index lines index e he
    omega
  | case6 index limit hlt shape hkind he ih => have := ih h; omega
  | case7 index limit hlt hclose hdecl ih => have := ih h; omega

/-- Above the line that it starts from, the search comes to no line that closes a block around the
declaration found, unless the line is crossable. -/
theorem climb_crosses (lines : List Line) (n count limit : Nat) (d : Declaration) (hn : count ≤ n)
    (h : climb lines count limit = some d) (k : Nat) (hdk : d.index ≤ k)
    (hk : k < min count limit) (hclose : ClosesAbove lines d.index k) : Crossable lines n k := by
  fun_induction climb lines count limit with
  | case1 limit => contradiction
  | case2 index limit hle ih => exact ih (by omega) h (by omega)
  | case3 index limit hlt hkind m hm ih =>
    have hd := climb_lt lines index m.openLine d h
    have ho := openLine_lt lines index m hm
    rcases Nat.lt_trichotomy k m.openLine with hko | hko | hko
    · exact ih (by omega) h (by omega)
    · exact Or.inr ⟨index, m, by omega, lineAt_kind lines index _ hkind, hm, hko.symm⟩
    · exact absurd hclose (not_closesAbove_of_matchClose lines index m hm d.index k (by omega)
        hko (by omega))
  | case4 index limit hlt hkind hm => contradiction
  | case5 index limit hlt shape hkind e he =>
    obtain rfl : e = d := Option.some.inj h
    obtain rfl : k = index := by
      have := declarationAt_index lines index e he
      omega
    exact Or.inl (by simp [lineAt_kind lines k _ hkind])
  | case6 index limit hlt shape hkind he ih =>
    rcases Nat.lt_or_ge k index with hki | hki
    · exact ih (by omega) h (by omega)
    · obtain rfl : k = index := by omega
      exact Or.inl (by simp [lineAt_kind lines k _ hkind])
  | case7 index limit hlt hnotClose hnotDecl ih =>
    rcases Nat.lt_or_ge k index with hki | hki
    · exact ih (by omega) h (by omega)
    · obtain rfl : k = index := by omega
      exact Or.inl (lineAt_kind_ne_closeBrace lines k hnotClose)

theorem findDeclaration_le (lines : List Line) (start : Nat) (d : Declaration)
    (h : findDeclaration lines start = some d) : d.index ≤ start := by
  rcases findDeclaration_cases lines start d h with hd | hd
  · exact Nat.le_of_eq (declarationAt_index lines start d hd)
  · have := climb_lt lines start start d hd
    omega

theorem findDeclaration_crosses (lines : List Line) (start : Nat) (d : Declaration)
    (h : findDeclaration lines start = some d) (k : Nat) (hdk : d.index ≤ k) (hk : k < start)
    (hclose : ClosesAbove lines d.index k) : Crossable lines start k := by
  rcases findDeclaration_cases lines start d h with hd | hd
  · have := declarationAt_index lines start d hd
    omega
  · exact climb_crosses lines start start start d (Nat.le_refl start) hd k hdk (by omega) hclose

/-- The blocks around the declaration found for a line are blocks around the line too, if and only
if no crossable line from the declaration on closes one of them. -/
theorem blocks_of_declaration_enclose_iff (lines : List Line) (start : Nat) (d : Declaration)
    (h : findDeclaration lines start = some d) :
    (openLines lines d.index).reverse <+: (openLines lines start).reverse ↔
      ∀ k, d.index ≤ k → k < start → Crossable lines start k → ¬ ClosesAbove lines d.index k := by
  rw [List.reverse_prefix,
    openLines_suffix_iff lines d.index start (findDeclaration_le lines start d h)]
  constructor
  · intro hnone k hdk hk _
    exact hnone k hdk hk
  · intro hnone k hdk hk hclose
    exact hnone k hdk hk (findDeclaration_crosses lines start d h k hdk hk hclose) hclose

def fieldAndMethod : List Line :=
  ["class Cart \x7b", "  size: number;", "  clear() \x7b", "    if (this.size) \x7b", "    \x7d",
    "  \x7d", "  // end"].map String.toList

theorem field_owns_line_below_method :
    findDeclaration fieldAndMethod 6 = some ⟨1, .property⟩ ∧
      (openLines fieldAndMethod 1).reverse <+: (openLines fieldAndMethod 6).reverse ∧
      ∀ k, 1 ≤ k → k < 6 → Crossable fieldAndMethod 6 k → ¬ ClosesAbove fieldAndMethod 1 k := by
  have h : findDeclaration fieldAndMethod 6 = some ⟨1, .property⟩ := by decide +kernel
  have hp : (openLines fieldAndMethod 1).reverse <+: (openLines fieldAndMethod 6).reverse := by
    decide +kernel
  exact ⟨h, hp, (blocks_of_declaration_enclose_iff fieldAndMethod 6 ⟨1, .property⟩ h).mp hp⟩

def twoBranches : List Line :=
  ["function load() \x7b", "  if (ready) \x7b", "    function retry() \x7b\x7d", "  \x7d else \x7b",
    "    wait();", "  \x7d", "  return done;", "\x7d"].map String.toList

/-- The line behind both branches is taken to belong to the function in the first one: the search
passes over the second branch and goes on inside the first. -/
theorem else_branch_leads_into_sibling :
    findDeclaration twoBranches 6 = some ⟨2, .function⟩ ∧
      ¬ (openLines twoBranches 2).reverse <+: (openLines twoBranches 6).reverse := by
  decide +kernel

end DocLint
