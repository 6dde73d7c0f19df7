import DocLint.Proofs.Records
import DocLint.Proofs.WrittenJson
import DocLint.Report.Sarif
import DocLint.Report.Summary

/-!
# Reports are read back

Both structured reports on a result are read back as they were before they were
written, whatever its texts are, as long as its numbers have at most 64 bits.
-/

set_option autoImplicit false

namespace DocLint

theorem ReportedViolation.ofJson?_toJson (v : ReportedViolation) (h : v.line < UInt64.size) :
    ofJson? v.toJson = some v := by
  have hw := Json.written (rfl : v.toJson = .object _) (List.Sublist.refl ["rule", "severity",
    "file", "line", "declaration", "message"]) (by decide +kernel)
  exact bind_eq_some hw.fields? (bind_eq_some (hw.need? Json.string? 0 rfl rfl)
    (bind_eq_some (hw.need? Json.string? 1 rfl rfl) (bind_eq_some (hw.need? Json.string? 2 rfl rfl)
      (bind_eq_some (hw.need? Json.nat? 3 rfl (Json.nat?_nat v.line h))
        (bind_eq_some (hw.need? Json.string? 4 rfl rfl)
          (bind_eq_some (hw.need? Json.string? 5 rfl rfl) rfl))))))

theorem ReportedViolation.plain_toJson (depth : Nat) (v : ReportedViolation) :
    Json.Plain (depth + 1) v.toJson := by
  simp [toJson]

theorem SkippedFile.ofJson?_toJson (s : SkippedFile) : ofJson? s.toJson = some s := by
  have hw := Json.written (rfl : s.toJson = .object _) (List.Sublist.refl ["file", "reason"])
    (by decide +kernel)
  exact bind_eq_some hw.fields? (bind_eq_some (hw.need? Json.string? 0 rfl rfl)
    (bind_eq_some (hw.need? Json.string? 1 rfl rfl) rfl))

theorem SkippedFile.plain_toJson (depth : Nat) (s : SkippedFile) :
    Json.Plain (depth + 1) s.toJson := by
  simp [toJson]

namespace Summary

/-- The numbers of a summary have at most 64 bits. -/
structure Fits (s : Summary) : Prop where
  scanned : s.filesScanned < UInt64.size
  checked : s.declarationsChecked < UInt64.size
  lines : ∀ v ∈ s.violations, v.line < UInt64.size

def members (s : Summary) : List (String × Json) :=
  [("version", .string s.version), ("target", .string s.target), ("config", .string s.settings),
    ("passed", .bool s.passed), ("files_scanned", .nat s.filesScanned),
    ("declarations_checked", .nat s.declarationsChecked),
    ("violations", .array (s.violations.map ReportedViolation.toJson))]

theorem ofJson?_of_members (s : Summary) (h : s.Fits) (ms : List (String × Json))
    (hw : Json.Written ["version", "target", "config", "passed", "files_scanned",
      "declarations_checked", "violations", "skipped"] s.toJson (s.members ++ ms))
    (hskipped : skippedFiles? (s.members ++ ms) = some s.skipped) : ofJson? s.toJson = some s := by
  have hviolations := Json.listOf?_array ReportedViolation.ofJson? ReportedViolation.toJson
    s.violations fun v hv => v.ofJson?_toJson (h.lines v hv)
  exact bind_eq_some hw.fields? (bind_eq_some (hw.need? Json.string? 0 rfl rfl)
    (bind_eq_some (hw.need? Json.string? 1 rfl rfl) (bind_eq_some (hw.need? Json.string? 2 rfl rfl)
      (bind_eq_some (hw.need? Json.bool? 3 rfl rfl)
        (bind_eq_some (hw.need? Json.nat? 4 rfl (Json.nat?_nat s.filesScanned h.scanned))
          (bind_eq_some (hw.need? Json.nat? 5 rfl (Json.nat?_nat s.declarationsChecked h.checked))
            (bind_eq_some (hw.need? (Json.listOf? ReportedViolation.ofJson?) 6 rfl hviolations)
              (bind_eq_some hskipped rfl))))))))

theorem ofJson?_toJson (s : Summary) (h : s.Fits) : ofJson? s.toJson = some s := by
  have hj : s.toJson = .object (s.members ++ if s.skipped.isEmpty then []
    else [("skipped", .array (s.skipped.map SkippedFile.toJson))]) := rfl
  have hnew : ("skipped" : String) ∉ ["version", "target", "config", "passed", "files_scanned",
    "declarations_checked", "violations"] := by decide +kernel
  by_cases hempty : s.skipped = []
  · rw [hempty] at hj
    have hw := Json.written hj (List.sublist_append_left ["version", "target", "config", "passed",
      "files_scanned", "declarations_checked", "violations"] ["skipped"]) (by decide +kernel)
    have hnone : (s.members ++ []).lookup "skipped" = none :=
      lookup_eq_none _ _ fun m hm heq => hnew (List.mem_map.mpr ⟨m, hm, heq⟩)
    refine s.ofJson?_of_members h [] hw ?_
    rw [skippedFiles?, hnone, hempty]
  · rw [if_neg (by simpa using hempty)] at hj
    have hw := Json.written hj (List.Sublist.refl ["version", "target", "config", "passed",
      "files_scanned", "declarations_checked", "violations", "skipped"]) (by decide +kernel)
    have hsome := lookup_of_mem _ "skipped" _ hw.once (List.mem_append_right _ List.mem_cons_self)
    refine s.ofJson?_of_members h _ hw ?_
    rw [skippedFiles?, hsome]
    exact Json.listOf?_array _ _ s.skipped fun f _ => f.ofJson?_toJson

theorem plain_toJson (depth : Nat) (s : Summary) : Json.Plain (depth + 3) s.toJson := by
  have hviolations := Json.plain_array (depth + 1) ReportedViolation.toJson s.violations
    fun v => v.plain_toJson depth
  have hskipped := Json.plain_array (depth + 1) SkippedFile.toJson s.skipped
    fun f => f.plain_toJson depth
  rw [toJson]
  split <;> simp [hviolations, hskipped]

theorem parse?_pretty (s : Summary) (h : s.Fits) : parse? (s.toJson.pretty ++ "\n") = some s := by
  rw [parse?, Json.parse?_pretty s.toJson (s.plain_toJson 124)]
  exact s.ofJson?_toJson h

end Summary

namespace Sarif

theorem single?_object {α : Type} (name : String) (read : Json → Option α) (v : Json) (x : α)
    (h : read v = some x) : single? name read (.object [(name, v)]) = some x := by
  have hw := Json.written (rfl : Json.object [(name, v)] = .object _) (List.Sublist.refl [name]) rfl
  exact bind_eq_some hw.fields? (hw.need? read 0 rfl h)

theorem message?_messageJson (text : String) : message? (messageJson text) = some text :=
  single?_object "text" Json.string? (.string text) text rfl

theorem RuleEntry.ofJson?_toJson (e : RuleEntry) : ofJson? e.toJson = some e := by
  have hw := Json.written (rfl : e.toJson = .object _) (List.Sublist.refl ["id", "name",
    "shortDescription", "fullDescription", "defaultConfiguration"]) (by decide +kernel)
  have hlevel := single?_object "level" Json.string? (.string e.level) e.level rfl
  exact bind_eq_some hw.fields? (bind_eq_some (hw.need? Json.string? 0 rfl rfl)
    (bind_eq_some (hw.need? Json.string? 1 rfl rfl)
      (bind_eq_some (hw.need? message? 2 rfl (message?_messageJson e.short))
        (bind_eq_some (hw.need? message? 3 rfl (message?_messageJson e.full))
          (bind_eq_some (hw.need? (single? "level" Json.string?) 4 rfl hlevel) rfl)))))

theorem RuleEntry.plain_toJson (depth : Nat) (e : RuleEntry) :
    Json.Plain (depth + 2) e.toJson := by
  simp [toJson, messageJson]

theorem physicalLocation?_object (l : Location) (h : l.startLine < UInt64.size) (v : Json)
    (hv : v = .object [("artifactLocation", .object [("uri", .string l.uri)]),
      ("region", .object [("startLine", .nat l.startLine)])]) : physicalLocation? v = some l := by
  have huri := single?_object "uri" Json.string? (.string l.uri) l.uri rfl
  have hline := single?_object "startLine" Json.nat? _ _ (Json.nat?_nat l.startLine h)
  have hw := Json.written hv (List.Sublist.refl ["artifactLocation", "region"]) (by decide +kernel)
  exact bind_eq_some hw.fields? (bind_eq_some (hw.need? (single? "uri" Json.string?) 0 rfl huri)
    (bind_eq_some (hw.need? (single? "startLine" Json.nat?) 1 rfl hline) rfl))

theorem Location.ofJson?_toJson (l : Location) (h : l.startLine < UInt64.size) :
    ofJson? l.toJson = some l :=
  single?_object "physicalLocation" physicalLocation? _ l (physicalLocation?_object l h _ rfl)

theorem Location.plain_toJson (depth : Nat) (l : Location) : Json.Plain (depth + 3) l.toJson := by
  simp [toJson]

def Entry.Fits (e : Entry) : Prop := ∀ l ∈ e.locations, l.startLine < UInt64.size

theorem Entry.ofJson?_toJson (e : Entry) (h : e.Fits) : ofJson? e.toJson = some e := by
  have hlocations := Json.listOf?_array Location.ofJson? Location.toJson e.locations
    fun l hl => l.ofJson?_toJson (h l hl)
  have hw := Json.written (rfl : e.toJson = .object _) (List.Sublist.refl ["ruleId", "level",
    "message", "locations"]) (by decide +kernel)
  exact bind_eq_some hw.fields? (bind_eq_some (hw.need? Json.string? 0 rfl rfl)
    (bind_eq_some (hw.need? Json.string? 1 rfl rfl)
      (bind_eq_some (hw.need? message? 2 rfl (message?_messageJson e.message))
        (bind_eq_some (hw.need? (Json.listOf? Location.ofJson?) 3 rfl hlocations) rfl))))

theorem Entry.plain_toJson (depth : Nat) (e : Entry) : Json.Plain (depth + 5) e.toJson := by
  have hlocations := Json.plain_array (depth + 3) Location.toJson e.locations
    fun l => l.plain_toJson depth
  simp [toJson, messageJson, hlocations]

theorem tool?_object (r : Run) (v : Json)
    (hv : v = .object [("name", .string r.name), ("version", .string r.version),
      ("rules", .array (r.rules.map RuleEntry.toJson))]) :
    tool? v = some (r.name, r.version, r.rules) := by
  have hrules := Json.listOf?_array RuleEntry.ofJson? RuleEntry.toJson r.rules
    fun e _ => e.ofJson?_toJson
  have hw := Json.written hv (List.Sublist.refl ["name", "version", "rules"]) (by decide +kernel)
  exact bind_eq_some hw.fields? (bind_eq_some (hw.need? Json.string? 0 rfl rfl)
    (bind_eq_some (hw.need? Json.string? 1 rfl rfl)
      (bind_eq_some (hw.need? (Json.listOf? RuleEntry.ofJson?) 2 rfl hrules) rfl)))

theorem Run.ofJson?_toJson (r : Run) (h : ∀ e ∈ r.results, e.Fits) :
    ofJson? r.toJson = some r := by
  have hresults := Json.listOf?_array Entry.ofJson? Entry.toJson r.results
    fun e he => e.ofJson?_toJson (h e he)
  have hw := Json.written (rfl : r.toJson = .object _) (List.Sublist.refl ["tool", "results"])
    (by decide +kernel)
  have htool := single?_object "driver" tool? _ _ (tool?_object r _ rfl)
  exact bind_eq_some hw.fields? (bind_eq_some (hw.need? (single? "driver" tool?) 0 rfl htool)
    (bind_eq_some (hw.need? (Json.listOf? Entry.ofJson?) 1 rfl hresults) rfl))

theorem Run.plain_toJson (depth : Nat) (r : Run) : Json.Plain (depth + 7) r.toJson := by
  have hrules := Json.plain_array (depth + 3) RuleEntry.toJson r.rules
    fun e => e.plain_toJson (depth + 1)
  have hresults := Json.plain_array (depth + 5) Entry.toJson r.results
    fun e => e.plain_toJson depth
  simp [toJson, hrules, hresults]

theorem ofJson?_toJson (s : Sarif) (h : ∀ r ∈ s.runs, ∀ e ∈ r.results, e.Fits) :
    ofJson? s.toJson = some s := by
  have hruns := Json.listOf?_array Run.ofJson? Run.toJson s.runs
    fun r hr => r.ofJson?_toJson (h r hr)
  have hw := Json.written (rfl : s.toJson = .object _) (List.Sublist.refl ["version", "$schema",
    "runs"]) (by decide +kernel)
  exact bind_eq_some hw.fields? (bind_eq_some (hw.need? Json.string? 0 rfl rfl)
    (bind_eq_some (hw.need? Json.string? 1 rfl rfl)
      (bind_eq_some (hw.need? (Json.listOf? Run.ofJson?) 2 rfl hruns) rfl)))

theorem plain_toJson (depth : Nat) (s : Sarif) : Json.Plain (depth + 9) s.toJson := by
  have hruns := Json.plain_array (depth + 7) Run.toJson s.runs fun r => r.plain_toJson depth
  simp [toJson, hruns]

theorem parse?_pretty (s : Sarif) (h : ∀ r ∈ s.runs, ∀ e ∈ r.results, e.Fits) :
    parse? (s.toJson.pretty ++ "\n") = some s := by
  rw [parse?, Json.parse?_pretty s.toJson (s.plain_toJson 118)]
  exact s.ofJson?_toJson h

end Sarif

namespace LintResult

/-- The numbers of a result have at most 64 bits. -/
structure Fits (r : LintResult) : Prop where
  scanned : r.scanned < UInt64.size
  declarations : r.declarations < UInt64.size
  lines : ∀ v ∈ r.violations, v.line < UInt64.size

theorem Fits.summary {r : LintResult} (h : r.Fits) (c : ReportContext) :
    (Summary.ofResult c r).Fits := by
  refine ⟨h.scanned, h.declarations, ?_⟩
  intro w hw
  obtain ⟨v, hv, rfl⟩ := List.mem_map.mp hw
  exact h.lines v hv

theorem Fits.entries {r : LintResult} (h : r.Fits) :
    ∀ run ∈ (Sarif.ofResult r).runs, ∀ e ∈ run.results, e.Fits := by
  intro run hrun e he l hl
  obtain rfl := List.mem_singleton.mp hrun
  obtain ⟨v, hv, rfl⟩ := List.mem_map.mp he
  obtain rfl := List.mem_singleton.mp hl
  exact Nat.max_lt.mpr ⟨h.lines v hv, by decide⟩

/-- The summary and the SARIF report on a result, written and read again, are the reports that
were written. -/
theorem reports_read_back (c : ReportContext) (r : LintResult) (h : r.Fits) :
    Summary.parse? (summaryText c r) = some (Summary.ofResult c r) ∧
      Sarif.parse? (sarifText r) = some (Sarif.ofResult r) :=
  ⟨(Summary.ofResult c r).parse?_pretty (h.summary c), (Sarif.ofResult r).parse?_pretty h.entries⟩

theorem awkward_texts_read_back :
    let v : Violation :=
      { rule := .missingTag, message := "tag \"@x\\y\"\n\x01\x1f é 😀", file := "src\\a b.ts",
        line := 18446744073709551615, declaration := "\tclass A" }
    let r : LintResult := { violations := [v], scanned := 18446744073709551615 }
    let c : ReportContext := ⟨"HEAD~1..HEAD", none⟩
    r.Fits ∧ Summary.parse? (summaryText c r) = some (Summary.ofResult c r) ∧
      Sarif.parse? (sarifText r) = some (Sarif.ofResult r) := by
  intro v r c
  have hr : r.Fits := by
    refine ⟨by decide, by decide, ?_⟩
    intro w hw
    obtain rfl := List.mem_singleton.mp hw
    decide
  exact ⟨hr, reports_read_back c r hr⟩

end LintResult

end DocLint
