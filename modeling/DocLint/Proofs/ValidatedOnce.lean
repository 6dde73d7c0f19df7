import DocLint.Proofs.Validations
import Mathlib.Algebra.GroupWithZero.Nat

/-!
# Every declaration is validated once

A linter is called any number of times, in any of its three ways, and the files
may change between the calls. Whatever is found at a line of a file stands in
the result of one call and is what one validation found there.
-/

set_option autoImplicit false

namespace DocLint

/-- A call on a linter: the changed lines of one text, the changed lines of files that are read,
or whole files. -/
inductive LintStep where
  | source (file content : String) (changed : List Nat)
  | changes (read : String → Except FileError String) (changed : List (String × List Nat))
  | files (read : String → Except FileError String) (paths : List String)

namespace LintStep

def lint (p : LintPolicy) : LintStep → Validated → LintResult × Validated
  | .source file content changed => p.lintSource file content changed
  | .changes read changed => p.run read changed
  | .files read paths => p.lintPaths read paths

def content? : LintStep → String → Option String
  | .source file content _, f => if f = file then some content else none
  | .changes read _, f => (read f).toOption
  | .files read _, f => (read f).toOption

def asked (p : LintPolicy) : LintStep → List Validation
  | .source file content changed => LintPolicy.askedSource file content changed
  | .changes read changed => p.askedRun read changed
  | .files read paths => p.askedFiles read (paths.map p.relative)

theorem lint_accounts (p : LintPolicy) (s : LintStep) (done : Validated) :
    ∃ made, Accounts p (s.asked p) done made (s.lint p done) := by
  cases s with
  | source file content changed => exact p.lintSource_accounts file content changed done
  | changes read changed => exact p.run_accounts read changed done
  | files read paths => exact p.lintFiles_accounts read (paths.map p.relative) done

theorem askedSource_origin (file content : String) (changed : List Nat) (v : Validation)
    (h : v ∈ LintPolicy.askedSource file content changed) :
    v.file = file ∧ v.lines = Text.lines content.toList ∧ Accepted v.lines v.declaration := by
  obtain ⟨d, hd, rfl⟩ := List.mem_map.mp h
  exact ⟨rfl, rfl, LintPolicy.owners_accepted _ changed d hd⟩

theorem askedWhole_origin (file content : String) (v : Validation)
    (h : v ∈ LintPolicy.askedWhole file content) :
    v.file = file ∧ v.lines = Text.lines content.toList ∧ Accepted v.lines v.declaration := by
  obtain ⟨d, hd, rfl⟩ := List.mem_map.mp h
  exact ⟨rfl, rfl, (LintPolicy.mem_declarations_iff _ d).mp hd⟩

theorem askedRead_origin (file : String) (content : Except FileError String)
    (asked : String → List Validation) (v : Validation)
    (ha : ∀ text, v ∈ asked text →
      v.file = file ∧ v.lines = Text.lines text.toList ∧ Accepted v.lines v.declaration)
    (h : v ∈ LintPolicy.askedRead content asked) :
    v.file = file ∧ ∃ text, content.toOption = some text ∧ v.lines = Text.lines text.toList ∧
      Accepted v.lines v.declaration := by
  cases content with
  | ok text =>
    obtain ⟨hf, hl, hd⟩ := ha text h
    exact ⟨hf, text, rfl, hl, hd⟩
  | error e => simp [LintPolicy.askedRead] at h

/-- A validation that a call asks for is of an accepted declaration, in the text that the file has
during the call. -/
theorem asked_origin (p : LintPolicy) (s : LintStep) (v : Validation) (h : v ∈ s.asked p) :
    ∃ text, s.content? v.file = some text ∧ v.lines = Text.lines text.toList ∧
      Accepted v.lines v.declaration := by
  cases s with
  | source file content changed =>
    obtain ⟨hf, hl, hd⟩ := askedSource_origin file content changed v h
    exact ⟨content, by simp [content?, hf], hl, hd⟩
  | changes read changed =>
    obtain ⟨entry, -, hv⟩ := List.mem_flatMap.mp h
    obtain ⟨hf, text, ht, hl, hd⟩ := askedRead_origin entry.1 _ _ v
      (fun text => askedSource_origin entry.1 text entry.2 v) hv
    exact ⟨text, by rw [content?, hf, ht], hl, hd⟩
  | files read paths =>
    obtain ⟨file, -, hv⟩ := List.mem_flatMap.mp h
    obtain ⟨hf, text, ht, hl, hd⟩ := askedRead_origin file _ _ v
      (fun text => askedWhole_origin file text v) hv
    exact ⟨text, by rw [content?, hf, ht], hl, hd⟩

end LintStep

/-- The results of calls made one after the other, and what is remembered in the end. -/
def LintPolicy.lintAll (p : LintPolicy) : List LintStep → Validated → List LintResult × Validated
  | [], done => ([], done)
  | s :: rest, done =>
    let (r, between) := s.lint p done
    let (rs, after) := p.lintAll rest between
    (r :: rs, after)

def LintResult.violationsAt (r : LintResult) (file : String) (line : Nat) : List Violation :=
  r.violations.filter fun v => v.file == file && v.line == line

namespace Validation

theorem mem_violations (p : LintPolicy) (v : Validation) (w : Violation)
    (h : w ∈ v.violations p) : w.file = v.file ∧ w.line = v.declaration.index + 1 := by
  obtain ⟨f, -, rfl⟩ := List.mem_map.mp h
  exact ⟨rfl, rfl⟩

theorem key_of_at (v : Validation) (w : Violation) (p : LintPolicy) (h : w ∈ v.violations p)
    (file : String) (i : Nat) (hw : (w.file == file && w.line == i + 1) = true) :
    v.key = (file, i) := by
  obtain ⟨hf, hl⟩ := mem_violations p v w h
  simp only [Bool.and_eq_true, beq_iff_eq, hf, hl] at hw
  exact Prod.ext hw.1 (Nat.succ.inj hw.2)

end Validation

namespace Accounts

variable {p : LintPolicy} {asked made : List Validation} {done : Validated}
  {out : LintResult × Validated}

theorem mem_remembered_iff (h : Accounts p asked done made out) (k : String × Nat) :
    k ∈ out.2 ↔ k ∈ done ∨ ∃ v ∈ made, v.key = k := by
  rw [h.remembered, List.mem_append, List.mem_reverse, List.mem_map, or_comm]

theorem violation_remembered (h : Accounts p asked done made out) (w : Violation)
    (hw : w ∈ out.1.violations) : ∃ i, w.line = i + 1 ∧ (w.file, i) ∈ out.2 := by
  rw [h.violations] at hw
  obtain ⟨v, hv, hwv⟩ := List.mem_flatMap.mp hw
  obtain ⟨hf, hl⟩ := Validation.mem_violations p v w hwv
  exact ⟨v.declaration.index, hl, hf ▸ h.mem_remembered v hv⟩

theorem violationsAt_eq_nil (h : Accounts p asked done made out) (file : String) (i : Nat)
    (hk : ∀ v ∈ made, v.key ≠ (file, i)) : out.1.violationsAt file (i + 1) = [] := by
  rw [LintResult.violationsAt, h.violations, List.filter_eq_nil_iff]
  intro w hw hat
  obtain ⟨v, hv, hwv⟩ := List.mem_flatMap.mp hw
  exact hk v hv (v.key_of_at w p hwv file i hat)

theorem violationsAt_remembered (h : Accounts p asked done made out) (file : String) (i : Nat)
    (hk : (file, i) ∈ done) : out.1.violationsAt file (i + 1) = [] :=
  h.violationsAt_eq_nil file i (fun v hv hvk => h.fresh v hv (hvk ▸ hk))

theorem violationsAt_made (h : Accounts p asked done made out) (v : Validation) (hv : v ∈ made) :
    out.1.violationsAt v.file (v.declaration.index + 1) = v.violations p := by
  obtain ⟨before, after, rfl⟩ := List.append_of_mem hv
  have hkey : v.key ∉ (before ++ after).map Validation.key := by
    have hn := (List.perm_middle.map Validation.key).nodup_iff.mp h.distinct
    exact (List.nodup_cons.mp hn).1
  have other : ∀ us : List Validation, (∀ u ∈ us, u ∈ before ++ after) →
      (us.flatMap (Validation.violations p)).filter
        (fun w => w.file == v.file && w.line == v.declaration.index + 1) = [] := by
    intro us hus
    rw [List.filter_eq_nil_iff]
    intro w hw hat
    obtain ⟨u, hu, hwu⟩ := List.mem_flatMap.mp hw
    have huk : u.key = v.key := u.key_of_at w p hwu v.file v.declaration.index hat
    exact hkey (huk ▸ List.mem_map_of_mem (hus u hu))
  have self : (v.violations p).filter
      (fun w => w.file == v.file && w.line == v.declaration.index + 1) = v.violations p := by
    rw [List.filter_eq_self]
    intro w hw
    simp [Validation.mem_violations p v w hw]
  rw [LintResult.violationsAt, h.violations, List.flatMap_append, List.flatMap_cons,
    List.filter_append, List.filter_append, self,
    other before (fun u hu => List.mem_append_left _ hu),
    other after (fun u hu => List.mem_append_right _ hu)]
  simp

end Accounts

/-- What is reported at a line of a file stands in the result of one call, and is what was found
by validating the declaration on that line of the text that the file had during the call. -/
def ReportedOnce (p : LintPolicy) (steps : List LintStep) (results : List LintResult)
    (file : String) (i : Nat) : Prop :=
  ∃ (k : Nat) (s : LintStep) (r : LintResult) (text : String) (d : Declaration),
    steps[k]? = some s ∧ results[k]? = some r ∧ s.content? file = some text ∧
    declarationAt (Text.lines text.toList) i = some d ∧
    r.violationsAt file (i + 1) = p.violations file (Text.lines text.toList) d ∧
    ∀ (j : Nat) (r' : LintResult), j ≠ k → results[j]? = some r' →
      r'.violationsAt file (i + 1) = []

namespace LintPolicy

theorem lintAll_keeps (p : LintPolicy) (steps : List LintStep) (done : Validated)
    (k : String × Nat) (hk : k ∈ done) : k ∈ (p.lintAll steps done).2 := by
  induction steps generalizing done with
  | nil => exact hk
  | cons s rest ih =>
    obtain ⟨made, h⟩ := s.lint_accounts p done
    exact ih _ (h.keeps k hk)

theorem lintAll_remembers (p : LintPolicy) (steps : List LintStep) (done : Validated)
    (file : String) (i : Nat) (hk : (file, i) ∈ done) :
    ∀ r ∈ (p.lintAll steps done).1, r.violationsAt file (i + 1) = [] := by
  induction steps generalizing done with
  | nil => simp [lintAll]
  | cons s rest ih =>
    obtain ⟨made, h⟩ := s.lint_accounts p done
    intro r hr
    rcases List.mem_cons.mp hr with rfl | hr
    · exact h.violationsAt_remembered file i hk
    · exact ih _ (h.keeps _ hk) r hr

theorem lintAll_violation_remembered (p : LintPolicy) (steps : List LintStep) (done : Validated) :
    ∀ r ∈ (p.lintAll steps done).1, ∀ w ∈ r.violations,
      ∃ i, w.line = i + 1 ∧ (w.file, i) ∈ (p.lintAll steps done).2 := by
  induction steps generalizing done with
  | nil => simp [lintAll]
  | cons s rest ih =>
    obtain ⟨made, h⟩ := s.lint_accounts p done
    intro r hr w hw
    rcases List.mem_cons.mp hr with rfl | hr
    · obtain ⟨i, hl, hk⟩ := h.violation_remembered w hw
      exact ⟨i, hl, p.lintAll_keeps rest _ _ hk⟩
    · exact ih _ r hr w hw

theorem lintAll_nodup (p : LintPolicy) (steps : List LintStep) (done : Validated)
    (hn : done.Nodup) : (p.lintAll steps done).2.Nodup := by
  induction steps generalizing done with
  | nil => exact hn
  | cons s rest ih =>
    obtain ⟨made, h⟩ := s.lint_accounts p done
    exact ih _ (h.nodup_remembered hn)

theorem lintAll_declarations (p : LintPolicy) (steps : List LintStep) (done : Validated) :
    ((p.lintAll steps done).1.map LintResult.declarations).sum + done.length =
      (p.lintAll steps done).2.length := by
  induction steps generalizing done with
  | nil => simp [lintAll]
  | cons s rest ih =>
    obtain ⟨made, h⟩ := s.lint_accounts p done
    have hs := h.length_remembered
    have hr := ih (s.lint p done).2
    simp only [lintAll, List.map_cons, List.sum_cons]
    omega

theorem lintAll_reportedOnce (p : LintPolicy) (steps : List LintStep) (done : Validated)
    (file : String) (i : Nat) (hk : (file, i) ∈ (p.lintAll steps done).2)
    (hd : (file, i) ∉ done) : ReportedOnce p steps (p.lintAll steps done).1 file i := by
  induction steps generalizing done with
  | nil => exact absurd hk hd
  | cons s rest ih =>
    obtain ⟨made, h⟩ := s.lint_accounts p done
    by_cases hb : (file, i) ∈ (s.lint p done).2
    · obtain ⟨v, hv, hvk⟩ := ((h.mem_remembered_iff (file, i)).mp hb).resolve_left hd
      obtain ⟨rfl, rfl⟩ := Prod.mk.inj hvk
      obtain ⟨text, hc, hl, ha⟩ := s.asked_origin p v (h.wanted v hv)
      have later := p.lintAll_remembers rest (s.lint p done).2 v.file v.declaration.index hb
      refine ⟨0, s, (s.lint p done).1, text, v.declaration, rfl, rfl, hc, hl ▸ ha, ?_, ?_⟩
      · rw [h.violationsAt_made v hv, Validation.violations, hl]
      · intro j r' hj hr'
        cases j with
        | zero => contradiction
        | succ j => exact later r' (List.mem_of_getElem? hr')
    · obtain ⟨k, t, r, text, d, ht, hr, hc, ha, hv, ho⟩ := ih (s.lint p done).2 hk hb
      refine ⟨k + 1, t, r, text, d, ht, hr, hc, ha, hv, ?_⟩
      intro j r' hj hr'
      cases j with
      | zero =>
        obtain rfl : (s.lint p done).1 = r' := Option.some.inj hr'
        exact h.violationsAt_eq_nil file i (fun v hv hvk => hb (hvk ▸ h.mem_remembered v hv))
      | succ j => exact ho j r' (by omega) hr'

theorem lint_again (p : LintPolicy) (s : LintStep) (done : Validated) :
    (s.lint p (s.lint p done).2).1.declarations = 0 ∧
      (s.lint p (s.lint p done).2).1.violations = [] := by
  obtain ⟨made, h⟩ := s.lint_accounts p done
  obtain ⟨again, h'⟩ := s.lint_accounts p (s.lint p done).2
  have hnone : again = [] := h'.nothing_made h.settled
  subst hnone
  exact ⟨h'.declarations, h'.violations⟩

/-- Over all calls on a fresh linter every declaration is validated at most once. Violations
stand only at remembered declarations, and those at one of them come from one validation; the
numbers of declarations add up to the number of remembered ones; a repeated call finds nothing. -/
theorem validated_once (p : LintPolicy) (steps : List LintStep) :
    (∀ r ∈ (p.lintAll steps []).1, ∀ w ∈ r.violations,
      ∃ i, w.line = i + 1 ∧ (w.file, i) ∈ (p.lintAll steps []).2) ∧
    (∀ file i, (file, i) ∈ (p.lintAll steps []).2 →
      ReportedOnce p steps (p.lintAll steps []).1 file i) ∧
    (p.lintAll steps []).2.Nodup ∧
    ((p.lintAll steps []).1.map LintResult.declarations).sum = (p.lintAll steps []).2.length ∧
    ∀ (s : LintStep) (done : Validated),
      (s.lint p (s.lint p done).2).1.declarations = 0 ∧
        (s.lint p (s.lint p done).2).1.violations = [] :=
  ⟨p.lintAll_violation_remembered steps [],
    fun file i hk => p.lintAll_reportedOnce steps [] file i hk List.not_mem_nil,
    p.lintAll_nodup steps [] List.nodup_nil, by simpa using p.lintAll_declarations steps [],
    p.lint_again⟩

end LintPolicy

end DocLint
