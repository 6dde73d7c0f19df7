import DocLint.Proofs.Ownership
import Mathlib.Data.List.Nodup

/-!
# Validations carried out by a linter

A call on a linter asks for the validation of some declarations, whatever the
linter remembers. It carries out those that it does not remember, each once,
and the result of the call is the account of the validations carried out.
-/

set_option autoImplicit false

namespace DocLint

/-- The validation of one declaration of a file with the given lines. -/
structure Validation where
  file : String
  lines : List Line
  declaration : Declaration

namespace Validation

def key (v : Validation) : String × Nat := (v.file, v.declaration.index)

def violations (p : LintPolicy) (v : Validation) : List Violation :=
  p.violations v.file v.lines v.declaration

end Validation

/-- Of the validations asked for, a linter that remembers `done` carries out `made`, and `out` is
the account of it. -/
structure Accounts (p : LintPolicy) (asked : List Validation) (done : Validated)
    (made : List Validation) (out : LintResult × Validated) : Prop where
  violations : out.1.violations = made.flatMap (Validation.violations p)
  declarations : out.1.declarations = made.length
  remembered : out.2 = (made.map Validation.key).reverse ++ done
  distinct : (made.map Validation.key).Nodup
  fresh : ∀ v ∈ made, v.key ∉ done
  wanted : ∀ v ∈ made, v ∈ asked
  settled : ∀ v ∈ asked, v.key ∈ out.2

namespace Accounts

variable {p : LintPolicy} {done : Validated}

theorem keeps {asked made : List Validation} {out : LintResult × Validated}
    (h : Accounts p asked done made out) (k : String × Nat) (hk : k ∈ done) : k ∈ out.2 := by
  rw [h.remembered]
  exact List.mem_append_right _ hk

theorem mem_remembered {asked made : List Validation} {out : LintResult × Validated}
    (h : Accounts p asked done made out) (v : Validation) (hv : v ∈ made) : v.key ∈ out.2 := by
  rw [h.remembered, List.mem_append, List.mem_reverse]
  exact Or.inl (List.mem_map_of_mem hv)

theorem skip (skipped : List SkippedFile) :
    Accounts p [] done [] ({ skipped := skipped }, done) :=
  ⟨rfl, rfl, rfl, List.nodup_nil, by simp, by simp, by simp⟩

theorem single (v : Validation) (h : v.key ∉ done) :
    Accounts p [v] done [v]
      ({ violations := v.violations p, declarations := 1 }, v.key :: done) :=
  ⟨by simp, rfl, rfl, by simp, by simpa using h, by simp, by simp⟩

theorem merge {asked made asked' made' : List Validation} {r r' : LintResult}
    {between after : Validated} (h : Accounts p asked done made (r, between))
    (h' : Accounts p asked' between made' (r', after)) :
    Accounts p (asked ++ asked') done (made ++ made') (r.merge r', after) := by
  have hr : between = (made.map Validation.key).reverse ++ done := h.remembered
  have hr' : after = (made'.map Validation.key).reverse ++ between := h'.remembered
  refine ⟨?_, ?_, ?_, ?_, ?_, ?_, ?_⟩
  · have hv : r.violations = made.flatMap (Validation.violations p) := h.violations
    have hv' : r'.violations = made'.flatMap (Validation.violations p) := h'.violations
    simp [LintResult.merge, hv, hv']
  · have hd : r.declarations = made.length := h.declarations
    have hd' : r'.declarations = made'.length := h'.declarations
    simp [LintResult.merge, hd, hd']
  · simp [hr', hr]
  · rw [List.map_append, List.nodup_append]
    refine ⟨h.distinct, h'.distinct, ?_⟩
    intro k hk k' hk' hkk
    obtain ⟨v, hv, rfl⟩ := List.mem_map.mp hk
    obtain ⟨v', hv', rfl⟩ := List.mem_map.mp hk'
    exact h'.fresh v' hv' (hkk ▸ h.mem_remembered v hv)
  · intro v hv hd
    rcases List.mem_append.mp hv with hm | hm
    · exact h.fresh v hm hd
    · exact h'.fresh v hm (h.keeps v.key hd)
  · intro v hv
    rcases List.mem_append.mp hv with hm | hm
    · exact List.mem_append_left _ (h.wanted v hm)
    · exact List.mem_append_right _ (h'.wanted v hm)
  · intro v hv
    rcases List.mem_append.mp hv with hm | hm
    · exact h'.keeps v.key (h.settled v hm)
    · exact h'.settled v hm

theorem exists_merge {asked asked' : List Validation} {out : LintResult × Validated}
    {rest : Validated → LintResult × Validated} (h : ∃ made, Accounts p asked done made out)
    (h' : ∀ between, ∃ made, Accounts p asked' between made (rest between)) :
    ∃ made, Accounts p (asked ++ asked') done made
      (out.1.merge (rest out.2).1, (rest out.2).2) := by
  obtain ⟨made, hmade⟩ := h
  obtain ⟨made', hmade'⟩ := h' out.2
  exact ⟨made ++ made', hmade.merge hmade'⟩

theorem congr {asked asked' made : List Validation} {r : LintResult} {after : Validated}
    (h : Accounts p asked done made (r, after)) (ha : ∀ v, v ∈ asked ↔ v ∈ asked')
    (scanned : Nat) : Accounts p asked' done made ({ r with scanned := scanned }, after) :=
  ⟨h.violations, h.declarations, h.remembered, h.distinct, h.fresh,
    fun v hv => (ha v).mp (h.wanted v hv), fun v hv => h.settled v ((ha v).mpr hv)⟩

theorem nothing_made {asked made : List Validation} {out : LintResult × Validated}
    (h : Accounts p asked done made out) (hd : ∀ v ∈ asked, v.key ∈ done) : made = [] := by
  apply List.eq_nil_iff_forall_not_mem.mpr
  intro v hv
  exact h.fresh v hv (hd v (h.wanted v hv))

theorem length_remembered {asked made : List Validation} {out : LintResult × Validated}
    (h : Accounts p asked done made out) : out.2.length = out.1.declarations + done.length := by
  rw [h.remembered, h.declarations]
  simp

theorem nodup_remembered {asked made : List Validation} {out : LintResult × Validated}
    (h : Accounts p asked done made out) (hn : done.Nodup) : out.2.Nodup := by
  rw [h.remembered, List.nodup_append]
  refine ⟨List.nodup_reverse.mpr h.distinct, hn, ?_⟩
  intro k hk k' hk' hkk
  obtain ⟨v, hv, rfl⟩ := List.mem_map.mp (List.mem_reverse.mp hk)
  exact h.fresh v hv (hkk ▸ hk')

end Accounts

namespace LintPolicy

theorem lintEach_accounts (p : LintPolicy) (file : String) (lines : List Line)
    (done : Validated) (ds : List Declaration) :
    ∃ made, Accounts p (ds.map (Validation.mk file lines)) done made
      (p.lintEach file lines done ds) := by
  induction ds generalizing done with
  | nil => exact ⟨[], Accounts.skip []⟩
  | cons d ds ih =>
    by_cases hk : (file, d.index) ∈ done
    · obtain ⟨made, h⟩ := ih done
      refine ⟨made, ?_⟩
      rw [lintEach, if_pos (List.contains_iff_mem.mpr hk)]
      refine ⟨h.violations, h.declarations, h.remembered, h.distinct, h.fresh,
        fun v hv => List.mem_cons_of_mem _ (h.wanted v hv), ?_⟩
      intro v hv
      rcases List.mem_cons.mp hv with rfl | hv
      · exact h.keeps _ hk
      · exact h.settled v hv
    · obtain ⟨made, h⟩ := ih ((file, d.index) :: done)
      refine ⟨⟨file, lines, d⟩ :: made, ?_⟩
      rw [lintEach, if_neg (fun hc => hk (List.contains_iff_mem.mp hc))]
      exact (Accounts.single ⟨file, lines, d⟩ hk).merge h

theorem lintDeclarations_accounts (p : LintPolicy) (file : String) (lines : List Line)
    (done : Validated) (ds : List Declaration) :
    ∃ made, Accounts p (ds.map (Validation.mk file lines)) done made
      (p.lintDeclarations file lines done ds) := by
  obtain ⟨made, h⟩ := p.lintEach_accounts file lines done (inOrder ds)
  exact ⟨made, h.congr (fun v => by simp only [List.mem_map, mem_inOrder]) 1⟩

def askedSource (file content : String) (changed : List Nat) : List Validation :=
  let lines := Text.lines content.toList
  (owners lines changed).map (Validation.mk file lines)

def askedWhole (file content : String) : List Validation :=
  let lines := Text.lines content.toList
  (declarations lines).map (Validation.mk file lines)

def askedRead (content : Except FileError String) (asked : String → List Validation) :
    List Validation :=
  match content with
  | .ok text => asked text
  | .error _ => []

def askedRun (p : LintPolicy) (read : String → Except FileError String)
    (changed : List (String × List Nat)) : List Validation :=
  (changed.filter fun entry => p.covers entry.1).flatMap fun entry =>
    askedRead (read entry.1) fun text => askedSource entry.1 text entry.2

def askedFiles (p : LintPolicy) (read : String → Except FileError String)
    (files : List String) : List Validation :=
  (files.filter p.covers).flatMap fun file => askedRead (read file) (askedWhole file)

theorem lintSource_accounts (p : LintPolicy) (file content : String) (changed : List Nat)
    (done : Validated) :
    ∃ made, Accounts p (askedSource file content changed) done made
      (p.lintSource file content changed done) :=
  p.lintDeclarations_accounts file _ done _

theorem lintWhole_accounts (p : LintPolicy) (file content : String) (done : Validated) :
    ∃ made, Accounts p (askedWhole file content) done made (p.lintWhole file content done) :=
  p.lintDeclarations_accounts file _ done _

theorem lintRead_accounts (p : LintPolicy) (file : String) (content : Except FileError String)
    (asked : String → List Validation) (lint : String → Validated → LintResult × Validated)
    (done : Validated) (h : ∀ text, ∃ made, Accounts p (asked text) done made (lint text done)) :
    ∃ made, Accounts p (askedRead content asked) done made (lintRead file content lint done) := by
  cases content with
  | ok text => exact h text
  | error e => exact ⟨[], Accounts.skip _⟩

theorem run_accounts (p : LintPolicy) (read : String → Except FileError String)
    (changed : List (String × List Nat)) (done : Validated) :
    ∃ made, Accounts p (p.askedRun read changed) done made (p.run read changed done) := by
  induction changed generalizing done with
  | nil => exact ⟨[], Accounts.skip []⟩
  | cons entry rest ih =>
    obtain ⟨file, ls⟩ := entry
    by_cases hc : p.covers file = true
    · have h := p.lintRead_accounts file (read file) (askedSource file · ls)
        (fun text => p.lintSource file text ls) done
        (fun text => p.lintSource_accounts file text ls done)
      rw [askedRun, List.filter_cons, if_pos hc, List.flatMap_cons, run, if_pos hc]
      exact Accounts.exists_merge h ih
    · rw [askedRun, List.filter_cons, if_neg hc, run, if_neg hc]
      exact ih done

theorem lintFiles_accounts (p : LintPolicy) (read : String → Except FileError String)
    (files : List String) (done : Validated) :
    ∃ made, Accounts p (p.askedFiles read files) done made (p.lintFiles read files done) := by
  induction files generalizing done with
  | nil => exact ⟨[], Accounts.skip []⟩
  | cons file rest ih =>
    by_cases hc : p.covers file = true
    · have h := p.lintRead_accounts file (read file) (askedWhole file)
        (p.lintWhole file) done (fun text => p.lintWhole_accounts file text done)
      rw [askedFiles, List.filter_cons_of_pos hc, List.flatMap_cons, lintFiles, if_pos hc]
      exact Accounts.exists_merge h ih
    · rw [askedFiles, List.filter_cons_of_neg hc, lintFiles, if_neg hc]
      exact ih done

end LintPolicy

end DocLint
