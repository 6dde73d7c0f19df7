import DocLint.Proofs.Ownership

/-!
# Checking changed lines and checking whole files

The check of changed lines finds its declarations by searching from the lines,
the check of a whole file by trying every line. Sorted and without repetitions
the first are those of the second that own a changed line, so the first check
reports a part of what the second one does, in the same order.
-/

set_option autoImplicit false

namespace DocLint

def Ascending (ds : List Declaration) : Prop := ds.Pairwise fun d e => d.index < e.index

theorem ascending_ext (ds es : List Declaration) (hd : Ascending ds) (he : Ascending es)
    (h : ∀ d, d ∈ ds ↔ d ∈ es) : ds = es := by
  have nodup : ∀ xs, Ascending xs → xs.Nodup := fun xs hx => by
    refine List.Pairwise.imp ?_ hx
    intro d e hde hne
    subst hne
    exact Nat.lt_irrefl _ hde
  have hp : ds.Perm es := (List.perm_ext_iff_of_nodup (nodup ds hd) (nodup es he)).mpr h
  refine hp.eq_of_pairwise ?_ hd he
  intro d e _ _ hde hed
  exact absurd (Nat.lt_trans hde hed) (Nat.lt_irrefl _)

namespace LintPolicy

theorem dropRepeats_ascending (ds : List Declaration)
    (hs : ds.Pairwise fun d e => d.index ≤ e.index)
    (hu : ∀ d ∈ ds, ∀ e ∈ ds, d.index = e.index → d = e) : Ascending (dropRepeats ds) := by
  fun_induction dropRepeats ds with
  | case1 e rest ih =>
    exact ih hs.of_cons (fun d hd f hf => hu d (by simp [hd]) f (by simp [hf]))
  | case2 d e rest hne ih =>
    refine List.Pairwise.cons ?_
      (ih hs.of_cons (fun f hf g hg => hu f (by simp [hf]) g (by simp [hg])))
    intro x hx
    have hx : x ∈ e :: rest := (mem_dropRepeats _ x).mp hx
    have hde : d.index ≠ e.index := fun h => hne (hu d (by simp) e (by simp) h)
    have hle : d.index ≤ e.index := List.rel_of_pairwise_cons hs (by simp)
    have hex : e.index ≤ x.index := by
      rcases List.mem_cons.mp hx with rfl | hx
      · exact Nat.le_refl _
      · exact List.rel_of_pairwise_cons hs.of_cons hx
    omega
  | case3 ds hds =>
    rcases ds with _ | ⟨d, _ | ⟨e, rest⟩⟩
    · exact List.Pairwise.nil
    · exact List.pairwise_singleton _ d
    · exact (hds d e rest rfl).elim

theorem inOrder_ascending (lines : List Line) (ds : List Declaration)
    (h : ∀ d ∈ ds, Accepted lines d) : Ascending (inOrder ds) := by
  apply dropRepeats_ascending
  · have hs := @List.pairwise_mergeSort Declaration (fun d e => decide (d.index ≤ e.index))
      (fun a b c hab hbc => by simp only [decide_eq_true_eq] at *; omega)
      (fun a b => by simp only [Bool.or_eq_true, decide_eq_true_eq]; omega) ds
    simpa using hs
  · intro d hd e he hde
    exact accepted_unique lines d e (h d (List.mem_mergeSort.mp hd))
      (h e (List.mem_mergeSort.mp he)) hde

theorem declarations_ascending (lines : List Line) : Ascending (declarations lines) := by
  rw [Ascending, declarations, List.pairwise_filterMap]
  refine List.Pairwise.imp ?_ List.pairwise_lt_range
  intro i j hij d hd e he
  rw [declarationAt_index lines i d hd, declarationAt_index lines j e he]
  exact hij

/-- A changed line of the source belongs to the declaration on the given line. -/
def touches (lines : List Line) (changed : List Nat) (line : Nat) : Bool :=
  changed.any fun n =>
    1 ≤ n && n ≤ lines.length && (resolve lines (n - 1)).any fun d => d.lineNumber == line

theorem touches_iff_mem_owners (lines : List Line) (changed : List Nat) (d : Declaration)
    (hd : Accepted lines d) :
    touches lines changed d.lineNumber = true ↔ d ∈ owners lines changed := by
  rw [mem_owners_iff]
  simp only [touches, List.any_eq_true, Bool.and_eq_true, decide_eq_true_eq,
    Option.any_eq_true, beq_iff_eq]
  constructor
  · rintro ⟨n, hn, ⟨h1, h2⟩, e, he, hl⟩
    obtain rfl : e = d :=
      accepted_unique lines e d (resolve_accepted lines _ e he) hd (Nat.succ.inj hl)
    exact ⟨n, hn, h1, h2, he⟩
  · rintro ⟨n, hn, h1, h2, he⟩
    exact ⟨n, hn, ⟨h1, h2⟩, d, he, rfl⟩

theorem inOrder_owners (lines : List Line) (changed : List Nat) :
    inOrder (owners lines changed) =
      (declarations lines).filter fun d => touches lines changed d.lineNumber := by
  apply ascending_ext
  · exact inOrder_ascending lines _ (owners_accepted lines changed)
  · exact (declarations_ascending lines).filter _
  · intro d
    rw [mem_inOrder, List.mem_filter, mem_declarations_iff]
    constructor
    · intro h
      have hd := owners_accepted lines changed d h
      exact ⟨hd, (touches_iff_mem_owners lines changed d hd).mpr h⟩
    · rintro ⟨hd, ht⟩
      exact (touches_iff_mem_owners lines changed d hd).mp ht

theorem inOrder_declarations (lines : List Line) :
    inOrder (declarations lines) = declarations lines := by
  apply ascending_ext
  · exact inOrder_ascending lines _ (fun d hd => (mem_declarations_iff lines d).mp hd)
  · exact declarations_ascending lines
  · exact mem_inOrder (declarations lines)

theorem lintEach_violations (p : LintPolicy) (file : String) (lines : List Line)
    (done : Validated) (ds : List Declaration) (h : Ascending ds) :
    (p.lintEach file lines done ds).1.violations =
      (ds.filter fun d => !done.contains (file, d.index)).flatMap (p.violations file lines) := by
  induction ds generalizing done with
  | nil => rfl
  | cons d ds ih =>
    by_cases hk : done.contains (file, d.index) = true
    · rw [lintEach, if_pos hk, ih done h.of_cons, List.filter_cons_of_neg (by simpa using hk)]
    · have same : (ds.filter fun e => !List.contains ((file, d.index) :: done) (file, e.index)) =
          ds.filter fun e => !done.contains (file, e.index) := by
        apply List.filter_congr
        intro e he
        have hlt : d.index < e.index := List.rel_of_pairwise_cons h he
        have hne : ¬ e.index = d.index := by omega
        simp [hne]
      rw [lintEach, if_neg hk]
      change p.violations file lines d ++ (p.lintEach file lines _ ds).1.violations = _
      rw [ih _ h.of_cons, same, List.filter_cons_of_pos (by simpa using hk), List.flatMap_cons]

theorem filter_violations (p : LintPolicy) (file : String) (lines : List Line)
    (ds : List Declaration) (q : Nat → Bool) :
    (ds.flatMap (p.violations file lines)).filter (fun v => q v.line) =
      (ds.filter fun d => q d.lineNumber).flatMap (p.violations file lines) := by
  induction ds with
  | nil => rfl
  | cons d ds ih =>
    have hline : ∀ v ∈ p.violations file lines d, q v.line = q d.lineNumber := by
      intro v hv
      obtain ⟨f, -, rfl⟩ := List.mem_map.mp hv
      rfl
    rw [List.flatMap_cons, List.filter_append, ih, List.filter_congr hline]
    by_cases hq : q d.lineNumber = true <;> simp [hq]

theorem lintSource_violations (p : LintPolicy) (file content : String) (changed : List Nat)
    (done : Validated) :
    (p.lintSource file content changed done).1.violations =
      (p.lintWhole file content done).1.violations.filter fun v =>
        touches (Text.lines content.toList) changed v.line := by
  change (p.lintEach file _ done (inOrder (owners _ changed))).1.violations =
    (p.lintEach file _ done (inOrder (declarations _))).1.violations.filter _
  have hasc := declarations_ascending (Text.lines content.toList)
  rw [inOrder_owners, inOrder_declarations, lintEach_violations p file _ done _ (hasc.filter _),
    lintEach_violations p file _ done _ hasc, filter_violations, List.filter_filter,
    List.filter_filter]
  simp only [Bool.and_comm]

theorem lintSource_all (p : LintPolicy) (file content : String) (changed : List Nat)
    (done : Validated)
    (h : ∀ n, 1 ≤ n → n ≤ (Text.lines content.toList).length → n ∈ changed) :
    p.lintSource file content changed done = p.lintWhole file content done := by
  have all : ((declarations (Text.lines content.toList)).filter fun d =>
      touches (Text.lines content.toList) changed d.lineNumber) =
      declarations (Text.lines content.toList) := by
    rw [List.filter_eq_self]
    intro d hd
    have ha := (mem_declarations_iff _ d).mp hd
    have hlt := declarationAt_lt _ d.index d ha
    rw [touches_iff_mem_owners _ changed d ha, mem_owners_iff]
    exact ⟨d.index + 1, h _ (by omega) (by omega), by omega, by omega, resolve_of_accepted _ d ha⟩
  simp only [lintSource, lintWhole, lintDeclarations, inOrder_owners, inOrder_declarations, all]

theorem lintSource_in_range (p : LintPolicy) (file content : String) (changed : List Nat)
    (done : Validated) :
    p.lintSource file content (changed.filter fun n =>
        1 ≤ n && n ≤ (Text.lines content.toList).length) done =
      p.lintSource file content changed done := by
  simp only [lintSource, owners, List.filter_filter, Bool.and_self]

theorem lintPaths_single (p : LintPolicy) (read : String → Except FileError String)
    (path content : String) (done : Validated) (hc : p.covers (p.relative path) = true)
    (hr : read (p.relative path) = .ok content) :
    p.lintPaths read [path] done = p.lintWhole (p.relative path) content done := by
  simp [lintPaths, lintFiles, hc, hr, lintRead, LintResult.merge, LintResult.empty]

/-- The check of the changed lines of a file reports what the check of the whole file reports at
the declarations that own a changed line. Numbers of lines that the file does not have count for
nothing, and with every line changed the two checks are the same. -/
theorem changed_check_restricts (p : LintPolicy) (read : String → Except FileError String)
    (path content : String) (changed : List Nat) (done : Validated)
    (hc : p.covers (p.relative path) = true) (hr : read (p.relative path) = .ok content) :
    (p.lintSource (p.relative path) content changed done).1.violations =
      ((p.lintPaths read [path] done).1.violations.filter fun v =>
        touches (Text.lines content.toList) changed v.line) ∧
    p.lintSource (p.relative path) content (changed.filter fun n =>
        1 ≤ n && n ≤ (Text.lines content.toList).length) done =
      p.lintSource (p.relative path) content changed done ∧
    ((∀ n, 1 ≤ n → n ≤ (Text.lines content.toList).length → n ∈ changed) →
      p.lintSource (p.relative path) content changed done = p.lintPaths read [path] done) ∧
    (p.lintPaths read [path] done).1.scanned = 1 := by
  rw [p.lintPaths_single read path content done hc hr]
  exact ⟨p.lintSource_violations _ content changed done,
    p.lintSource_in_range _ content changed done, p.lintSource_all _ content changed done, rfl⟩

def twoClasses : String := "class A \x7b\n\x7d\nclass B \x7b\n\x7d\n"

theorem changed_check_of_two_classes :
    let p : LintPolicy := ⟨"/repo", {}, []⟩
    let read : String → Except FileError String := fun _ => .ok twoClasses
    p.covers (p.relative "a.ts") = true ∧ read (p.relative "a.ts") = .ok twoClasses ∧
      (p.lintSource (p.relative "a.ts") twoClasses [3, 9] []).1.violations.length = 1 ∧
      (p.lintSource (p.relative "a.ts") twoClasses [3, 9] []).1.violations =
        ((p.lintPaths read ["a.ts"] []).1.violations.filter fun v =>
          touches (Text.lines twoClasses.toList) [3, 9] v.line) := by
  intro p read
  have hc : p.covers (p.relative "a.ts") = true := by decide +kernel
  have hr : read (p.relative "a.ts") = .ok twoClasses := rfl
  have hone : (p.lintSource (p.relative "a.ts") twoClasses [3, 9] []).1.violations.length = 1 := by
    decide +kernel
  exact ⟨hc, hr, hone, (p.changed_check_restricts read "a.ts" twoClasses [3, 9] [] hc hr).1⟩

end LintPolicy

end DocLint
