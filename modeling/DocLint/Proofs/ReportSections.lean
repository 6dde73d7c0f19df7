import DocLint.Report.Terminal
import Mathlib.Data.List.Nodup

/-!
# Sections of a report

The terminal report compares each violation with the one before it. Where the
violations come in sections, one for each failing file with its failing
declarations in order, it prints every section below one header.
-/

set_option autoImplicit false

namespace DocLint

structure LineSection where
  line : Nat
  declaration : String
  findings : List Finding
  failing : findings ≠ []

/-- The failing declarations of one file, from top to bottom. -/
structure FileSection where
  file : String
  lines : List LineSection
  failing : lines ≠ []
  ascending : lines.Pairwise fun k l => k.line < l.line

namespace LineSection

def violations (file : String) (l : LineSection) : List Violation :=
  l.findings.map fun f => ⟨f.rule, f.message, file, l.line, l.declaration, .error⟩

def header (color : Bool) (l : LineSection) : String :=
  "    " ++ styled color .red ("error at line " ++ toString l.line ++ ":") ++ " " ++
    l.declaration ++ "\n"

def entry (color : Bool) (f : Finding) : String :=
  "      " ++ styled color .red "ERROR" ++ " " ++
    styled color .dimmed (TerminalReport.padded 20 f.rule.id) ++ f.message ++ "\n"

def text (color : Bool) (l : LineSection) : String :=
  l.header color ++ String.join (l.findings.map (entry color))

theorem mem_violations (file : String) (l : LineSection) (v : Violation)
    (h : v ∈ l.violations file) : v.file = file ∧ v.line = l.line := by
  obtain ⟨f, -, rfl⟩ := List.mem_map.mp h
  exact ⟨rfl, rfl⟩

theorem exists_violation (file : String) (l : LineSection) : ∃ v, v ∈ l.violations file := by
  obtain ⟨f, hf⟩ := List.exists_mem_of_ne_nil l.findings l.failing
  exact ⟨_, List.mem_map_of_mem hf⟩

end LineSection

namespace FileSection

def violations (s : FileSection) : List Violation := s.lines.flatMap (LineSection.violations s.file)

def keys (s : FileSection) : List (String × Nat) := s.lines.map fun l => (s.file, l.line)

def header (color : Bool) (s : FileSection) : String := "  " ++ styled color .file s.file ++ "\n"

def text (color : Bool) (s : FileSection) : String :=
  s.header color ++ String.join (s.lines.map (LineSection.text color))

theorem mem_violations (s : FileSection) (v : Violation) (h : v ∈ s.violations) :
    v.file = s.file ∧ (v.file, v.line) ∈ s.keys := by
  obtain ⟨l, hl, hv⟩ := List.mem_flatMap.mp h
  obtain ⟨hfile, hline⟩ := l.mem_violations s.file v hv
  rw [hfile, hline]
  exact ⟨rfl, List.mem_map_of_mem hl⟩

theorem exists_violation (s : FileSection) (k : String × Nat) (h : k ∈ s.keys) :
    ∃ v ∈ s.violations, v.file = k.1 ∧ v.line = k.2 := by
  obtain ⟨l, hl, rfl⟩ := List.mem_map.mp h
  obtain ⟨v, hv⟩ := l.exists_violation s.file
  exact ⟨v, List.mem_flatMap.mpr ⟨l, hl, hv⟩, l.mem_violations s.file v hv⟩

theorem keys_ne_nil (s : FileSection) : s.keys ≠ [] := by simp [keys, s.failing]

theorem nodup_keys (s : FileSection) : s.keys.Nodup := by
  rw [keys, List.Nodup, List.pairwise_map]
  refine s.ascending.imp ?_
  intro k l hlt heq
  have := congrArg Prod.snd heq
  omega

end FileSection

namespace TerminalReport

def sectionsText (color : Bool) (ss : List FileSection) : String :=
  if ss.isEmpty then "" else "\n".intercalate (ss.map (FileSection.text color)) ++ "\n"

theorem violations_cons (color : Bool) (before : Option (String × Nat)) (v : Violation)
    (vs : List Violation) :
    violations color before (v :: vs) =
      violation color before v ++ violations color (some (v.file, v.line)) vs := rfl

theorem violations_entries (color : Bool) (file : String) (line : Nat) (declaration : String)
    (fs : List Finding) (rest : List Violation) :
    violations color (some (file, line))
        ((fs.map fun f => ⟨f.rule, f.message, file, line, declaration, .error⟩) ++ rest) =
      String.join (fs.map (LineSection.entry color)) ++
        violations color (some (file, line)) rest := by
  induction fs with
  | nil => simp
  | cons f fs ih =>
    rw [List.map_cons, List.cons_append, violations_cons, ih]
    simp [violation, LineSection.entry, String.append_assoc]

theorem violations_line (color : Bool) (file : String) (n : Nat) (l : LineSection)
    (hn : n ≠ l.line) (rest : List Violation) :
    violations color (some (file, n)) (l.violations file ++ rest) =
      l.text color ++ violations color (some (file, l.line)) rest := by
  obtain ⟨line, declaration, findings, failing⟩ := l
  cases findings with
  | nil => contradiction
  | cons f fs =>
    rw [LineSection.violations, List.map_cons, List.cons_append, violations_cons,
      violations_entries]
    simp [violation, LineSection.text, LineSection.header, LineSection.entry, String.append_assoc,
      hn, -String.reduceAppend]

/-- The file of the violation before is another one, or there is none. -/
def Leaves (before : Option (String × Nat)) (file : String) : Prop :=
  ∀ b ∈ before, b.1 ≠ file

theorem violations_first_line (color : Bool) (before : Option (String × Nat)) (file : String)
    (hb : Leaves before file) (l : LineSection) (rest : List Violation) :
    violations color before (l.violations file ++ rest) =
      (if before.isSome then "\n" else "") ++ "  " ++ styled color .file file ++ "\n" ++
        l.text color ++ violations color (some (file, l.line)) rest := by
  obtain ⟨line, declaration, findings, failing⟩ := l
  cases findings with
  | nil => contradiction
  | cons f fs =>
    rw [LineSection.violations, List.map_cons, List.cons_append, violations_cons,
      violations_entries]
    cases before with
    | none =>
      simp [violation, LineSection.text, LineSection.header, LineSection.entry,
        String.append_assoc, -String.reduceAppend]
    | some b =>
      have hne : b.1 ≠ file := hb b rfl
      simp [violation, LineSection.text, LineSection.header, LineSection.entry,
        String.append_assoc, hne, -String.reduceAppend]

theorem violations_lines (color : Bool) (file : String) (n : Nat) (ls : List LineSection)
    (h : ls.Pairwise fun k l => k.line < l.line) (hn : ∀ l ∈ ls, n < l.line)
    (rest : List Violation) :
    ∃ last, violations color (some (file, n)) (ls.flatMap (LineSection.violations file) ++ rest) =
      String.join (ls.map (LineSection.text color)) ++
        violations color (some (file, last)) rest := by
  induction ls generalizing n with
  | nil => exact ⟨n, by simp⟩
  | cons l ls ih =>
    have hlt := hn l List.mem_cons_self
    obtain ⟨last, hlast⟩ := ih l.line h.of_cons fun k hk => List.rel_of_pairwise_cons h hk
    refine ⟨last, ?_⟩
    rw [List.flatMap_cons, List.append_assoc, violations_line color file n l (by omega), hlast]
    simp [String.append_assoc]

theorem violations_section (color : Bool) (before : Option (String × Nat)) (s : FileSection)
    (hb : Leaves before s.file) (rest : List Violation) :
    ∃ last, violations color before (s.violations ++ rest) =
      (if before.isSome then "\n" else "") ++ s.text color ++
        violations color (some (s.file, last)) rest := by
  obtain ⟨file, lines, failing, ascending⟩ := s
  cases lines with
  | nil => contradiction
  | cons l ls =>
    obtain ⟨last, hlast⟩ := violations_lines color file l.line ls ascending.of_cons
      (fun k hk => List.rel_of_pairwise_cons ascending hk) rest
    refine ⟨last, ?_⟩
    rw [FileSection.violations, List.flatMap_cons, List.append_assoc,
      violations_first_line color before file hb, hlast]
    simp [FileSection.text, FileSection.header, String.append_assoc]

theorem violations_sections_behind (color : Bool) (file : String) (n : Nat)
    (ss : List FileSection) (hnew : file ∉ ss.map FileSection.file)
    (hd : (ss.map FileSection.file).Nodup) :
    violations color (some (file, n)) (ss.flatMap FileSection.violations) =
      String.join (ss.map fun s => "\n" ++ s.text color) ++ "\n" := by
  induction ss generalizing file n with
  | nil => simp [violations]
  | cons s ss ih =>
    have hb : Leaves (some (file, n)) s.file := by
      intro b hmem heq
      obtain rfl := Option.mem_some_iff.mp hmem
      exact hnew (List.mem_map.mpr ⟨s, List.mem_cons_self, heq.symm⟩)
    obtain ⟨last, hlast⟩ := violations_section color (some (file, n)) s hb
      (ss.flatMap FileSection.violations)
    obtain ⟨hs, hss⟩ := List.nodup_cons.mp hd
    rw [List.flatMap_cons, hlast, ih s.file last hs hss]
    simp [String.append_assoc]

theorem intercalate_text (color : Bool) (s : FileSection) (ss : List FileSection) :
    "\n".intercalate ((s :: ss).map (FileSection.text color)) =
      s.text color ++ String.join (ss.map fun s => "\n" ++ s.text color) := by
  induction ss generalizing s with
  | nil => simp
  | cons t ss ih =>
    rw [List.map_cons, List.map_cons, String.intercalate_cons_cons, ← List.map_cons, ih]
    simp [String.append_assoc]

theorem violations_sections (color : Bool) (ss : List FileSection) (hne : ss ≠ [])
    (hd : (ss.map FileSection.file).Nodup) :
    violations color none (ss.flatMap FileSection.violations) = sectionsText color ss := by
  cases ss with
  | nil => contradiction
  | cons s ss =>
    obtain ⟨last, hlast⟩ := violations_section color none s (by simp [Leaves])
      (ss.flatMap FileSection.violations)
    obtain ⟨hs, hss⟩ := List.nodup_cons.mp hd
    rw [List.flatMap_cons, hlast, violations_sections_behind color s.file last ss hs hss,
      sectionsText, intercalate_text]
    simp [String.append_assoc]

end TerminalReport

end DocLint
