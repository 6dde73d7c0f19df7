import DocLint.Nesting
import DocLint.Proofs.Blocks
import Mathlib.Data.List.Induction

/-!
# What braces leave unmatched

Once the pairs of a sequence of braces are taken out, closing braces are left
and after them opening braces. What two sequences leave together follows from
what each of them leaves. The downward reading of a source keeps the opening
braces that are left, the upward reading counts the closing ones.
-/

set_option autoImplicit false

namespace DocLint

/-- Braces without a partner: a number of closing ones, then opening ones on the given lines,
innermost first. -/
structure Leftover where
  closings : Nat
  openings : List Nat

namespace Leftover

def step (r : Leftover) : Nat × Brace → Leftover
  | (line, .opening) => ⟨r.closings, line :: r.openings⟩
  | (_, .closing) =>
    match r.openings with
    | [] => ⟨r.closings + 1, []⟩
    | _ :: rest => ⟨r.closings, rest⟩

/-- The closing braces of the second sequence take partners from the first. -/
def join (a b : Leftover) : Leftover :=
  ⟨a.closings + (b.closings - a.openings.length), b.openings ++ a.openings.drop b.closings⟩

theorem join_step (a r : Leftover) (b : Nat × Brace) : (a.join r).step b = a.join (r.step b) := by
  obtain ⟨line, brace⟩ := b
  obtain ⟨closings, openings⟩ := r
  cases brace with
  | opening => rfl
  | closing =>
    cases openings with
    | cons l rest => rfl
    | nil =>
      by_cases hlt : closings < a.openings.length
      · have hd := List.drop_eq_getElem_cons hlt
        simp only [join, step, List.nil_append, hd]
        rw [show closings - a.openings.length = 0 by omega,
          show closings + 1 - a.openings.length = 0 by omega]
      · have hd : a.openings.drop closings = [] := List.drop_eq_nil_of_le (by omega)
        have hd' : a.openings.drop (closings + 1) = [] := List.drop_eq_nil_of_le (by omega)
        simp only [join, step, List.nil_append, hd, hd']
        rw [show a.closings + (closings - a.openings.length) + 1 =
          a.closings + (closings + 1 - a.openings.length) by omega]

end Leftover

def leftover (bs : List (Nat × Brace)) : Leftover := bs.foldl Leftover.step ⟨0, []⟩

theorem leftover_concat (bs : List (Nat × Brace)) (b : Nat × Brace) :
    leftover (bs ++ [b]) = (leftover bs).step b := by
  simp [leftover]

theorem leftover_append (bs cs : List (Nat × Brace)) :
    leftover (bs ++ cs) = (leftover bs).join (leftover cs) := by
  induction cs using List.reverseRecOn with
  | nil => simp [leftover, Leftover.join]
  | append_singleton cs c ih =>
    rw [← List.append_assoc, leftover_concat, ih, leftover_concat, Leftover.join_step]

theorem leftover_closings_append (bs cs : List (Nat × Brace)) :
    (leftover (bs ++ cs)).closings =
      (leftover bs).closings + ((leftover cs).closings - (leftover bs).openings.length) := by
  rw [leftover_append]
  rfl

theorem leftover_openings_append (bs cs : List (Nat × Brace)) :
    (leftover (bs ++ cs)).openings =
      (leftover cs).openings ++ (leftover bs).openings.drop (leftover cs).closings := by
  rw [leftover_append]
  rfl

theorem mem_leftover_openings (bs : List (Nat × Brace)) (l : Nat)
    (h : l ∈ (leftover bs).openings) : (l, Brace.opening) ∈ bs := by
  induction bs using List.reverseRecOn with
  | nil => simp [leftover] at h
  | append_singleton bs b ih =>
    obtain ⟨line, brace⟩ := b
    rw [leftover_concat] at h
    cases brace with
    | opening =>
      rcases List.mem_cons.mp h with rfl | h
      · simp
      · exact List.mem_append_left _ (ih h)
    | closing =>
      simp only [Leftover.step] at h
      split at h
      · simp at h
      · rename_i first rest hopen
        exact List.mem_append_left _ (ih (hopen ▸ List.mem_cons_of_mem first h))

def bracesOn (lines : List Line) (k : Nat) : List (Nat × Brace) :=
  (lineAt lines k).braces.map (Prod.mk k)

def bracesBetween (lines : List Line) (i n : Nat) : List (Nat × Brace) :=
  (List.range' i (n - i)).flatMap (bracesOn lines)

theorem bracesBefore_succ (lines : List Line) (k : Nat) :
    bracesBefore lines (k + 1) = bracesBefore lines k ++ bracesOn lines k := by
  rcases Nat.lt_or_ge k lines.length with hk | hk
  · have hlen : (lines.take k).length = k := by simp; omega
    rw [bracesBefore, List.take_add_one, lineAt_of_lt lines k hk, Option.toList_some,
      List.zipIdx_append, List.flatMap_append, hlen]
    simp [bracesBefore, bracesOn]
  · have hon : bracesOn lines k = [] := by rw [bracesOn, lineAt_of_ge lines k hk]; rfl
    rw [hon, List.append_nil, bracesBefore, bracesBefore, List.take_of_length_le hk,
      List.take_of_length_le (by omega)]

theorem bracesBetween_self (lines : List Line) (i : Nat) : bracesBetween lines i i = [] := by
  simp [bracesBetween]

theorem bracesBetween_succ (lines : List Line) (i k : Nat) (h : i ≤ k) :
    bracesBetween lines i (k + 1) = bracesBetween lines i k ++ bracesOn lines k := by
  rw [bracesBetween, show k + 1 - i = k - i + 1 by omega, List.range'_1_concat,
    List.flatMap_append, show i + (k - i) = k by omega]
  simp [bracesBetween]

theorem bracesBefore_eq_append (lines : List Line) (i k : Nat) (h : i ≤ k) :
    bracesBefore lines k = bracesBefore lines i ++ bracesBetween lines i k := by
  induction h with
  | refl => rw [bracesBetween_self, List.append_nil]
  | step hik ih => rw [bracesBefore_succ, ih, bracesBetween_succ lines i _ hik, List.append_assoc]

theorem bracesBetween_append (lines : List Line) (i k n : Nat) (hik : i ≤ k) (hkn : k ≤ n) :
    bracesBetween lines i n = bracesBetween lines i k ++ bracesBetween lines k n := by
  induction hkn with
  | refl => rw [bracesBetween_self, List.append_nil]
  | step hkn ih =>
    rw [bracesBetween_succ lines i _ (Nat.le_trans hik hkn), ih,
      bracesBetween_succ lines k _ hkn, List.append_assoc]

theorem line_of_mem_bracesBetween (lines : List Line) (i n : Nat) (e : Nat × Brace)
    (h : e ∈ bracesBetween lines i n) : i ≤ e.1 ∧ e.1 < n := by
  obtain ⟨k, hk, he⟩ := List.mem_flatMap.mp h
  obtain ⟨b, -, rfl⟩ := List.mem_map.mp he
  have := List.mem_range'_1.mp hk
  constructor <;> omega

theorem line_of_mem_bracesBefore (lines : List Line) (n : Nat) (e : Nat × Brace)
    (h : e ∈ bracesBefore lines n) : e.1 < n := by
  rw [bracesBefore_eq_append lines 0 n (Nat.zero_le n)] at h
  have hzero : bracesBefore lines 0 = [] := by simp [bracesBefore]
  rw [hzero, List.nil_append] at h
  exact (line_of_mem_bracesBetween lines 0 n e h).2

theorem openStep_openings (r : Leftover) (b : Nat × Brace) :
    openStep r.openings b = (r.step b).openings := by
  obtain ⟨line, brace⟩ := b
  cases brace with
  | opening => rfl
  | closing =>
    obtain ⟨closings, openings⟩ := r
    cases openings <;> rfl

theorem openLines_eq (lines : List Line) (k : Nat) :
    openLines lines k = (leftover (bracesBefore lines k)).openings := by
  rw [openLines]
  induction bracesBefore lines k using List.reverseRecOn with
  | nil => rfl
  | append_singleton bs b ih =>
    rw [List.foldl_append, ih, leftover_concat, ← openStep_openings]
    rfl

theorem openLines_append (lines : List Line) (i k : Nat) (h : i ≤ k) :
    openLines lines k = (leftover (bracesBetween lines i k)).openings ++
      (openLines lines i).drop (leftover (bracesBetween lines i k)).closings := by
  rw [openLines_eq, openLines_eq, bracesBefore_eq_append lines i k h, leftover_openings_append]

namespace BraceStack

theorem depth_close (s : BraceStack) (line : Nat) : (s.close line).depth = s.depth + 1 := rfl

theorem depth_takeOpen (s : BraceStack) : s.takeOpen.2.depth = s.depth - 1 := by
  obtain ⟨pending, opened, closed⟩ := s
  cases pending <;> rfl

theorem depth_readLine (s : BraceStack) (line : Nat) (bs : List Brace) :
    (s.readLine line bs.reverse).depth =
      (leftover (bs.map (Prod.mk line))).closings +
        (s.depth - (leftover (bs.map (Prod.mk line))).openings.length) := by
  induction bs using List.reverseRecOn generalizing s with
  | nil => simp [readLine, leftover]
  | append_singleton bs b ih =>
    rw [List.reverse_append, List.reverse_singleton, List.singleton_append, List.map_append,
      List.map_singleton, leftover_concat]
    cases b with
    | opening =>
      rw [readLine, ih, depth_takeOpen]
      simp only [Leftover.step, List.length_cons]
      omega
    | closing =>
      rw [readLine, ih, depth_close]
      simp only [Leftover.step]
      split
      · rename_i hopen
        simp only [hopen, List.length_nil]
        omega
      · rename_i first rest hopen
        simp only [hopen, List.length_cons]
        omega

/-- The opener that an upward reading finds leaves room for all closing braces but one that wait
below it. -/
theorem findOpener_split (s : BraceStack) (bs : List (Nat × Brace)) (m : BraceMatch)
    (hs : 0 < s.depth) (h : s.findOpener bs.reverse = some m) :
    ∃ above inside, bs = above ++ (m.openLine, .opening) :: inside ∧
      (leftover inside).closings = 0 ∧ (leftover inside).openings.length + 1 = s.depth := by
  induction bs using List.reverseRecOn generalizing s with
  | nil => simp [findOpener] at h
  | append_singleton bs b ih =>
    rw [List.reverse_append, List.reverse_singleton, List.singleton_append] at h
    obtain ⟨line, brace⟩ := b
    cases brace with
    | closing =>
      obtain ⟨above, inside, rfl, hc, ho⟩ := ih (s.close line) (by rw [depth_close]; omega) h
      refine ⟨above, inside ++ [(line, .closing)], by simp, ?_⟩
      rw [depth_close] at ho
      rw [leftover_concat]
      simp only [Leftover.step]
      split
      · rename_i hopen
        rw [hopen, List.length_nil] at ho
        omega
      · rename_i first rest hopen
        rw [hopen, List.length_cons] at ho
        exact ⟨hc, Nat.succ.inj ho⟩
    | opening =>
      obtain ⟨pending, opened, closed⟩ := s
      cases pending with
      | nil => simp [depth] at hs
      | cons first rest =>
        simp only [findOpener, takeOpen] at h
        split at h
        · rename_i hempty
          obtain rfl := Option.some.inj h
          have hrest : rest = [] := by simpa [isEmpty] using hempty
          exact ⟨bs, [], by simp, rfl, by simp [leftover, depth, hrest]⟩
        · rename_i hne
          have hpos : 0 < rest.length := by
            rw [List.length_pos_iff]
            simpa [isEmpty] using hne
          obtain ⟨above, inside, rfl, hc, ho⟩ := ih ⟨rest, opened + 1, closed⟩ hpos h
          refine ⟨above, inside ++ [(line, .opening)], by simp, ?_⟩
          rw [leftover_concat]
          exact ⟨hc, by simpa [Leftover.step, depth] using ho⟩

/-- The closing braces that wait take the innermost opening braces that are left, so the upward
reading stops at the next one. -/
theorem findUnmatched_reverse (s : BraceStack) (bs : List (Nat × Brace)) :
    s.findUnmatched bs.reverse = (leftover bs).openings[s.depth]? := by
  induction bs using List.reverseRecOn generalizing s with
  | nil => rfl
  | append_singleton bs b ih =>
    rw [List.reverse_append, List.reverse_singleton, List.singleton_append, leftover_concat]
    obtain ⟨line, brace⟩ := b
    cases brace with
    | closing =>
      rw [findUnmatched, ih, depth_close]
      simp only [Leftover.step]
      split
      · rename_i hopen
        simp [hopen]
      · rename_i first rest hopen
        simp [hopen]
    | opening =>
      obtain ⟨pending, opened, closed⟩ := s
      cases pending with
      | nil => rfl
      | cons first rest => exact ih ⟨rest, opened + 1, closed⟩

end BraceStack

theorem openLines_length_min (lines : List Line) (index : Nat) :
    openLines lines (min index lines.length) = openLines lines index := by
  rw [openLines, openLines, bracesBefore, bracesBefore, ← List.take_eq_take_min]

theorem enclosingOpen_eq (lines : List Line) (index : Nat) :
    enclosingOpen lines index = (openLines lines index).head? := by
  rw [enclosingOpen, BraceStack.findUnmatched_reverse, openLines_eq, List.head?_eq_getElem?]
  rfl

/-- The innermost block around a line is the top of the stack that the downward reading of the
lines above leaves. -/
theorem enclosingOpen_tops_stack (lines : List Line) (index : Nat) :
    let stack := openLines lines (min index lines.length)
    enclosingOpen lines index = stack.head? ∧ (enclosingOpen lines index = none ↔ stack = []) := by
  intro stack
  have htop : enclosingOpen lines index = stack.head? := by
    rw [enclosingOpen_eq, ← openLines_length_min]
  refine ⟨htop, ?_⟩
  rw [htop, List.head?_eq_none_iff]

/-- The block that a line closes: from its opener on nothing outside of it is closed, and the
closing braces of the line close all that is open in it and the block itself. -/
theorem matchClose_split (lines : List Line) (c : Nat) (m : BraceMatch)
    (h : matchClose lines c = some m) :
    ∃ above inside, bracesBefore lines c = above ++ (m.openLine, .opening) :: inside ∧
      (leftover inside).closings = 0 ∧
      (leftover inside).openings.length + 1 = (leftover (bracesOn lines c)).closings := by
  unfold matchClose at h
  split at h
  · contradiction
  · rename_i line hl
    have hline : lineAt lines c = line := by simp [lineAt, List.getD_eq_getElem?_getD, hl]
    have hdepth := BraceStack.depth_readLine BraceStack.empty c line.braces
    have hzero : BraceStack.empty.depth = 0 := rfl
    rw [hzero, Nat.zero_sub, Nat.add_zero] at hdepth
    dsimp only at h
    split at h
    · contradiction
    · rename_i hne
      have hpos : 0 < (BraceStack.empty.readLine c line.braces.reverse).depth := by
        rw [BraceStack.depth, List.length_pos_iff]
        simpa [BraceStack.isEmpty] using hne
      obtain ⟨above, inside, hb, hc, ho⟩ := BraceStack.findOpener_split _ _ m hpos h
      refine ⟨above, inside, hb, hc, ?_⟩
      rw [ho, bracesOn, hline]
      exact hdepth

/-- From its opener on, a block that a line closes takes no partner from above it, up to the end
of that line. -/
theorem matchClose_block (lines : List Line) (c : Nat) (m : BraceMatch)
    (h : matchClose lines c = some m) :
    ∃ above block, bracesBefore lines (c + 1) = above ++ (m.openLine, .opening) :: block ∧
      (leftover ((m.openLine, .opening) :: block)).closings = 0 := by
  obtain ⟨above, inside, hb, hc, ho⟩ := matchClose_split lines c m h
  refine ⟨above, inside ++ bracesOn lines c, by simp [bracesBefore_succ, hb], ?_⟩
  have hfront : leftover ((m.openLine, .opening) :: inside) =
      ⟨0, (leftover inside).openings ++ [m.openLine]⟩ := by
    rw [← List.singleton_append, leftover_append]
    simp [Leftover.join, leftover, Leftover.step] at hc ⊢
    simp [hc]
  rw [← List.cons_append, leftover_closings_append, hfront, ← ho]
  simp

theorem openLine_lt (lines : List Line) (c : Nat) (m : BraceMatch)
    (h : matchClose lines c = some m) : m.openLine < c := by
  obtain ⟨above, inside, hb, -, -⟩ := matchClose_split lines c m h
  exact line_of_mem_bracesBefore lines c (m.openLine, .opening) (by simp [hb])

end DocLint
