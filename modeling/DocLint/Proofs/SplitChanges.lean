import DocLint.Proofs.ChangedCheck
import DocLint.Proofs.MarkedLines
import DocLint.Proofs.ValidatedOnce

/-!
# Changes checked at once and in parts

What changed lines ask for depends only on the set of marked lines. Of the
declarations asked for, a linter validates each one once, whatever the order in
which it comes to them, so a change may be checked in parts.
-/

set_option autoImplicit false

namespace DocLint

namespace LintPolicy

theorem mem_askedSource_iff (file content : String) (changed : List Nat) (v : Validation) :
    v ∈ askedSource file content changed ↔
      v.file = file ∧ v.lines = Text.lines content.toList ∧
        ∃ n ∈ changed, 1 ≤ n ∧ n ≤ v.lines.length ∧
          resolve v.lines (n - 1) = some v.declaration := by
  rw [askedSource, List.mem_map]
  constructor
  · rintro ⟨d, hd, rfl⟩
    exact ⟨rfl, rfl, (mem_owners_iff _ changed d).mp hd⟩
  · rintro ⟨rfl, hl, hn⟩
    rw [hl] at hn
    exact ⟨v.declaration, (mem_owners_iff _ changed _).mpr hn, by rw [← hl]⟩

theorem mem_askedRun_iff (p : LintPolicy) (read : String → Except FileError String)
    (c : ChangedLines) (v : Validation) :
    v ∈ p.askedRun read c.files ↔
      p.covers v.file = true ∧ ∃ text, read v.file = .ok text ∧
        v.lines = Text.lines text.toList ∧ ∃ n, c.Has v.file n ∧ 1 ≤ n ∧ n ≤ v.lines.length ∧
          resolve v.lines (n - 1) = some v.declaration := by
  simp only [askedRun, List.mem_flatMap, List.mem_filter]
  constructor
  · rintro ⟨⟨file, ls⟩, ⟨hmem, hc⟩, hv⟩
    cases hr : read file with
    | error e => simp [hr, askedRead] at hv
    | ok text =>
      rw [hr, askedRead, mem_askedSource_iff] at hv
      obtain ⟨rfl, hl, n, hn, hrest⟩ := hv
      exact ⟨hc, text, hr, hl, n, ⟨ls, hmem, hn⟩, hrest⟩
  · rintro ⟨hc, text, hr, hl, n, ⟨ls, hmem, hn⟩, hrest⟩
    refine ⟨(v.file, ls), ⟨hmem, hc⟩, ?_⟩
    rw [hr, askedRead, mem_askedSource_iff]
    exact ⟨rfl, hl, n, hn, hrest⟩

/-- The key of a validation asked for tells it apart from the others, since a file has one text
during the check. -/
theorem askedRun_unique (p : LintPolicy) (read : String → Except FileError String)
    (c : ChangedLines) (v : Validation) (hv : v ∈ p.askedRun read c.files) (w : Validation)
    (hw : w ∈ p.askedRun read c.files) (hk : v.key = w.key) : v = w := by
  obtain ⟨-, text, hr, hl, n, -, -, -, hd⟩ := (p.mem_askedRun_iff read c v).mp hv
  obtain ⟨-, text', hr', hl', n', -, -, -, hd'⟩ := (p.mem_askedRun_iff read c w).mp hw
  obtain ⟨file, lines, d⟩ := v
  obtain ⟨file', lines', d'⟩ := w
  obtain ⟨rfl, hindex⟩ : file = file' ∧ d.index = d'.index := Prod.mk.inj hk
  obtain rfl : text = text' := Except.ok.inj (hr.symm.trans hr')
  obtain rfl : lines = lines' := hl.trans hl'.symm
  obtain rfl : d = d' := accepted_unique lines d d' (resolve_accepted lines _ d hd)
    (resolve_accepted lines _ d' hd') hindex
  rfl

theorem mem_askedRun_union_iff (p : LintPolicy) (read : String → Except FileError String)
    (a b : ChangedLines) (ha : a.WellFormed) (hb : b.WellFormed) (v : Validation) :
    v ∈ p.askedRun read (a.union b).files ↔
      v ∈ p.askedRun read a.files ++ p.askedRun read b.files := by
  simp only [List.mem_append, mem_askedRun_iff, ChangedLines.has_union a b ha hb]
  constructor
  · rintro ⟨hc, text, hr, hl, n, hn | hn, hrest⟩
    · exact Or.inl ⟨hc, text, hr, hl, n, hn, hrest⟩
    · exact Or.inr ⟨hc, text, hr, hl, n, hn, hrest⟩
  · rintro (⟨hc, text, hr, hl, n, hn, hrest⟩ | ⟨hc, text, hr, hl, n, hn, hrest⟩)
    · exact ⟨hc, text, hr, hl, n, Or.inl hn, hrest⟩
    · exact ⟨hc, text, hr, hl, n, Or.inr hn, hrest⟩

end LintPolicy

namespace Accounts

variable {p : LintPolicy} {asked asked' made made' : List Validation} {done : Validated}
  {out out' : LintResult × Validated}

theorem nodup_made (h : Accounts p asked done made out) : made.Nodup :=
  List.Nodup.of_map Validation.key h.distinct

theorem made_subset (h : Accounts p asked done made out) (h' : Accounts p asked' done made' out')
    (same : ∀ v, v ∈ asked ↔ v ∈ asked')
    (unique : ∀ v ∈ asked, ∀ w ∈ asked, v.key = w.key → v = w) : made ⊆ made' := by
  intro v hv
  have hasked := h.wanted v hv
  have hsettled := h'.settled v ((same v).mp hasked)
  rcases (h'.mem_remembered_iff v.key).mp hsettled with hdone | ⟨w, hw, hk⟩
  · exact absurd hdone (h.fresh v hv)
  · obtain rfl := unique w ((same w).mpr (h'.wanted w hw)) v hasked hk
    exact hw

/-- Two linters that remember the same and are asked for the same carry out the same
validations, in whatever order. -/
theorem made_perm (h : Accounts p asked done made out) (h' : Accounts p asked' done made' out')
    (same : ∀ v, v ∈ asked ↔ v ∈ asked')
    (unique : ∀ v ∈ asked, ∀ w ∈ asked, v.key = w.key → v = w) : made.Perm made' := by
  rw [List.perm_ext_iff_of_nodup h.nodup_made h'.nodup_made]
  intro v
  constructor
  · intro hv
    exact h.made_subset h' same unique hv
  · intro hv
    refine h'.made_subset h (fun w => (same w).symm) ?_ hv
    intro w hw u hu
    exact unique w ((same w).mpr hw) u ((same u).mpr hu)

theorem agree (h : Accounts p asked done made out) (h' : Accounts p asked' done made' out')
    (hperm : made.Perm made') :
    out.2.Perm out'.2 ∧ out.1.declarations = out'.1.declarations ∧
      out.1.violations.Perm out'.1.violations := by
  refine ⟨?_, ?_, ?_⟩
  · rw [h.remembered, h'.remembered, List.perm_append_right_iff]
    exact (List.reverse_perm _).trans ((hperm.map _).trans (List.reverse_perm _).symm)
  · rw [h.declarations, h'.declarations, hperm.length_eq]
  · rw [h.violations, h'.violations]
    exact hperm.flatMap_right _

end Accounts

namespace LintPolicy

/-- A fresh linter on all changes, and a fresh linter on one part of them and then on the other,
come to the same validated declarations, the same number of them and the same violations. The parts
may overlap. -/
theorem split_change_agrees (p : LintPolicy) (read : String → Except FileError String)
    (a b : ChangedLines) (ha : a.WellFormed) (hb : b.WellFormed) :
    let whole := p.run read (a.union b).files []
    let first := p.run read a.files []
    let second := p.run read b.files first.2
    whole.2.Perm second.2 ∧
      whole.1.declarations = first.1.declarations + second.1.declarations ∧
      whole.1.violations.Perm (first.1.violations ++ second.1.violations) := by
  intro whole first second
  obtain ⟨made, hwhole⟩ := p.run_accounts read (a.union b).files []
  obtain ⟨made₁, hfirst⟩ := p.run_accounts read a.files []
  obtain ⟨made₂, hsecond⟩ := p.run_accounts read b.files first.2
  have hparts := hfirst.merge hsecond
  have hperm := hwhole.made_perm hparts (p.mem_askedRun_union_iff read a b ha hb)
    (p.askedRun_unique read (a.union b))
  exact hwhole.agree hparts hperm

theorem split_change_of_two_classes :
    let p : LintPolicy := ⟨"/repo", {}, []⟩
    let read : String → Except FileError String := fun _ => .ok twoClasses
    let a : ChangedLines := ⟨[("a.ts", [1])]⟩
    let b : ChangedLines := ⟨[("a.ts", [2]), ("b.ts", [3])]⟩
    a.WellFormed ∧ b.WellFormed ∧ (p.run read (a.union b).files []).1.declarations = 2 ∧
      (p.run read (a.union b).files []).1.violations.Perm
        ((p.run read a.files []).1.violations ++
          (p.run read b.files (p.run read a.files []).2).1.violations) := by
  intro p read a b
  have ha : ChangedLines.WellFormed ⟨[("a.ts", [1])]⟩ := ⟨by decide, by decide⟩
  have hb : ChangedLines.WellFormed ⟨[("a.ts", [2]), ("b.ts", [3])]⟩ := ⟨by decide, by decide⟩
  have hfirst : (p.run read a.files []).1.declarations = 1 := by decide +kernel
  have hsecond : (p.run read b.files (p.run read a.files []).2).1.declarations = 1 := by
    decide +kernel
  obtain ⟨-, hsum, hperm⟩ := p.split_change_agrees read a b ha hb
  rw [hfirst, hsecond] at hsum
  exact ⟨ha, hb, hsum, hperm⟩

end LintPolicy

end DocLint
