import DocLint.Proofs.ValidatedOnce
import DocLint.Report.Sarif
import DocLint.Report.Summary

/-!
# What the structured reports say

The summary and the SARIF report are made from a result apart from each other.
Place by place they carry the same violations, and the SARIF report lists the
rules of these violations. A violation that a linter reports stands on a line of
the text that was read.
-/

set_option autoImplicit false

namespace DocLint

theorem Rule.mem_all (r : Rule) : r ∈ all := by
  cases r <;> decide

theorem Rule.nodup_ids : (all.map id).Nodup := by
  decide +kernel

namespace Sarif

theorem entryOfRule_id (r : Rule) : (entryOfRule r).id = r.id := by
  cases r <;> rfl

theorem ids_rulesOf (vs : List Violation) :
    ((rulesOf vs).map entryOfRule).map RuleEntry.id = (rulesOf vs).map Rule.id := by
  rw [List.map_map]
  exact List.map_congr_left fun r _ => entryOfRule_id r

theorem mem_rulesOf_iff (vs : List Violation) (r : Rule) :
    r ∈ rulesOf vs ↔ ∃ v ∈ vs, v.rule = r := by
  simp [rulesOf, Rule.mem_all]

theorem ids_sublist (vs : List Violation) :
    List.Sublist ((rulesOf vs).map Rule.id) (Rule.all.map Rule.id) :=
  List.filter_sublist.map Rule.id

theorem mem_ids_iff (vs : List Violation) (id : String) :
    id ∈ (rulesOf vs).map Rule.id ↔ id ∈ (vs.map entryOfViolation).map Entry.ruleId := by
  simp only [List.mem_map, mem_rulesOf_iff]
  constructor
  · rintro ⟨r, ⟨v, hv, rfl⟩, rfl⟩
    exact ⟨entryOfViolation v, ⟨v, hv, rfl⟩, rfl⟩
  · rintro ⟨e, ⟨v, hv, rfl⟩, rfl⟩
    exact ⟨v.rule, ⟨v, hv, rfl⟩, rfl⟩

end Sarif

def slashed (file : String) : String := file.map fun c => if c = '\\' then '/' else c

namespace Violation

/-- A reported violation and a SARIF entry that both stand for the violation. -/
structure Carried (v : Violation) (w : ReportedViolation) (e : Sarif.Entry) : Prop where
  rule : w.rule = v.rule.id ∧ e.ruleId = v.rule.id
  severity : w.severity = "error" ∧ e.level = "error"
  message : w.message = v.message ∧ e.message = v.message
  declaration : w.declaration = v.declaration
  place : w.file = v.file ∧ w.line = v.line ∧ e.locations = [⟨slashed v.file, max v.line 1⟩]

theorem severity_name (v : Violation) : v.severity.name = "error" := by
  cases v.severity
  rfl

theorem uri_eq (file : String) :
    String.ofList (file.toList.map fun c => if c == '\\' then '/' else c) = slashed file := by
  rw [← String.toList_inj, String.toList_ofList, slashed, String.toList_map]
  simp

theorem carried_reported (v : Violation) : v.Carried v.reported (Sarif.entryOfViolation v) := by
  refine ⟨⟨rfl, rfl⟩, ⟨v.severity_name, v.severity_name⟩, ⟨rfl, rfl⟩, rfl, rfl, rfl, ?_⟩
  rw [Sarif.entryOfViolation, uri_eq]

end Violation

theorem LintStep.line_of_violation (p : LintPolicy) (s : LintStep) (done : Validated)
    (w : Violation) (hw : w ∈ (s.lint p done).1.violations) :
    ∃ text, s.content? w.file = some text ∧ 1 ≤ w.line ∧
      w.line ≤ (Text.lines text.toList).length := by
  obtain ⟨made, h⟩ := s.lint_accounts p done
  rw [h.violations] at hw
  obtain ⟨v, hv, hwv⟩ := List.mem_flatMap.mp hw
  obtain ⟨hfile, hline⟩ := Validation.mem_violations p v w hwv
  obtain ⟨text, htext, hlines, haccepted⟩ := s.asked_origin p v (h.wanted v hv)
  have hlt := declarationAt_lt v.lines v.declaration.index v.declaration haccepted
  rw [hlines] at hlt
  exact ⟨text, by rw [hfile, htext], by omega, by omega⟩

/-- The SARIF report lists the rules of its results, each once and in the order of all rules. Its
results and the violations of the summary stand place by place for the violations of the result.
If a linter made the result, a SARIF entry has the line of its violation, and the file has that
line. -/
theorem reports_carry_violations (c : ReportContext) (r : LintResult) :
    ∃ run, (Sarif.ofResult r).runs = [run] ∧
      List.Sublist (run.rules.map Sarif.RuleEntry.id) (Rule.all.map Rule.id) ∧
      (run.rules.map Sarif.RuleEntry.id).Nodup ∧
      (∀ id, id ∈ run.rules.map Sarif.RuleEntry.id ↔ id ∈ run.results.map Sarif.Entry.ruleId) ∧
      run.results.length = r.violations.length ∧
      (Summary.ofResult c r).violations.length = r.violations.length ∧
      (∀ (i : Nat) (v : Violation), r.violations[i]? = some v →
        ∃ w e, (Summary.ofResult c r).violations[i]? = some w ∧ run.results[i]? = some e ∧
          v.Carried w e) ∧
      ∀ (p : LintPolicy) (s : LintStep) (done : Validated), r = (s.lint p done).1 →
        ∀ (i : Nat) (v : Violation), r.violations[i]? = some v →
          ∃ text e, s.content? v.file = some text ∧ 1 ≤ v.line ∧
            v.line ≤ (Text.lines text.toList).length ∧ run.results[i]? = some e ∧
            e.locations = [⟨slashed v.file, v.line⟩] := by
  refine ⟨_, rfl, ?_, ?_, ?_, ?_, ?_, ?_, ?_⟩
  · rw [Sarif.ids_rulesOf]
    exact Sarif.ids_sublist r.violations
  · rw [Sarif.ids_rulesOf]
    exact (Sarif.ids_sublist r.violations).nodup Rule.nodup_ids
  · intro id
    rw [Sarif.ids_rulesOf]
    exact Sarif.mem_ids_iff r.violations id
  · simp
  · simp [Summary.ofResult]
  · intro i v hv
    exact ⟨v.reported, Sarif.entryOfViolation v, by simp [Summary.ofResult, hv], by simp [hv],
      v.carried_reported⟩
  · intro p s done hr i v hv
    obtain ⟨text, htext, hpos, hle⟩ := s.line_of_violation p done v
      (hr ▸ List.mem_of_getElem? hv)
    have hplace := v.carried_reported.place.2.2
    rw [Nat.max_eq_left hpos] at hplace
    exact ⟨text, Sarif.entryOfViolation v, htext, hpos, hle, by simp [hv], hplace⟩

end DocLint
