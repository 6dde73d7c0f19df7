import DocLint.Extraction
import DocLint.Proofs.DiffReading
import DocLint.Proofs.LineKinds

/-!
# Changes collected from git

Git is any function that answers commands. The target of a comparison is the
first that applies, and the changes are those of the diffs that apply to it and
succeed. A diff that fails takes nothing away from the others.
-/

set_option autoImplicit false

namespace DocLint

namespace DiffSettings

section Targets

variable (s : DiffSettings) (git : List String → Except GitError String)

/-- The current branch has a counterpart on the remote. -/
structure Tracks (branch : String) : Prop where
  current : ∃ output, git ["rev-parse", "--abbrev-ref", "HEAD"] = .ok output ∧
    branch = Text.trimmed output
  nonempty : branch ≠ ""
  attached : branch ≠ "HEAD"
  answered : ∃ heads, git ["ls-remote", "--heads", s.remote, branch] = .ok heads ∧
    ∃ c ∈ heads.toList, Text.isBlank c = false

def Verified (name : String) : Prop :=
  ∃ output, git ["rev-parse", "--verify", s.remote ++ "/" ++ name] = .ok output

/-- The target of a comparison. Each case holds only where those before it do not. -/
inductive Resolves (r : DiffRequest) : DiffTarget → Prop
  | base (base : String) (hb : r.base = some base) : Resolves r (.range (base ++ "..HEAD"))
  | staged (hb : r.base = none) (hs : r.stagedOnly = true) : Resolves r .stagedOnly
  | tracked (hb : r.base = none) (hs : r.stagedOnly = false) (branch : String)
      (ht : Tracks s git branch) : Resolves r (.range (s.remote ++ "/" ++ branch ++ "..HEAD"))
  | candidate (hb : r.base = none) (hs : r.stagedOnly = false)
      (ht : ∀ branch, ¬ Tracks s git branch) (before after : List String) (name : String)
      (hnames : s.baseBranches = before ++ name :: after)
      (hbefore : ∀ b ∈ before, ¬ Verified s git b) (hname : Verified s git name) :
      Resolves r (.range (s.remote ++ "/" ++ name ++ "..HEAD"))
  | nothing (hb : r.base = none) (hs : r.stagedOnly = false)
      (ht : ∀ branch, ¬ Tracks s git branch)
      (hnames : ∀ name ∈ s.baseBranches, ¬ Verified s git name) : Resolves r .stagedOnly

/-- The further arguments of a diff that applies to a target. -/
inductive Applies (r : DiffRequest) (target : DiffTarget) : List String → Prop
  | range (revisions : String) (h : target = .range revisions) : Applies r target [revisions]
  | staged (h : r.stagedOnly = true ∨ s.includeStaged = true) : Applies r target ["--staged"]
  | workingTree (hr : r.stagedOnly = false) (hs : s.includeUnstaged = true) : Applies r target []

def Contributes (extra : List String) (file : String) (n : Nat) : Prop :=
  ∃ text c, git (s.diffCommand extra) = .ok text ∧
    ChangedLines.ofDiff text s.contextLines = .ok c ∧ c.Has file n

/-- No hunk of the diff reaches the bound of line numbers. -/
def SumsFit (extra : List String) : Prop :=
  ∀ text, git (s.diffCommand extra) = .ok text →
    ∀ h ∈ Patch.counted none (Text.lines text.toList), h.Fits s.contextLines

theorem trackedBranch?_eq :
    s.trackedBranch? (m := Id) git =
      match (git ["rev-parse", "--abbrev-ref", "HEAD"]).toOption with
      | none => none
      | some output =>
        if (Text.trimmed output).isEmpty || Text.trimmed output == "HEAD" then none
        else match (git ["ls-remote", "--heads", s.remote, Text.trimmed output]).toOption with
          | none => none
          | some heads =>
            if (Text.trimmed heads).isEmpty then none
            else some (s.remote ++ "/" ++ Text.trimmed output) := rfl

theorem firstBase?_cons (name : String) (names : List String) :
    s.firstBase? (m := Id) git (name :: names) =
      match (git ["rev-parse", "--verify", s.remote ++ "/" ++ name]).toOption with
      | some _ => some (s.remote ++ "/" ++ name)
      | none => s.firstBase? (m := Id) git names := rfl

theorem resolveTarget_eq (r : DiffRequest) :
    s.resolveTarget (m := Id) git r =
      match r.base with
      | some base => rangeFrom base
      | none =>
        if r.stagedOnly then .stagedOnly
        else match s.trackedBranch? (m := Id) git with
          | some branch => rangeFrom branch
          | none =>
            match s.firstBase? (m := Id) git s.baseBranches with
            | some base => rangeFrom base
            | none => .stagedOnly := rfl

theorem collect_cons (c : ChangedLines) (extra : List String) (rest : List (List String)) :
    s.collect (m := Id) git c (extra :: rest) =
      match s.addDiff (git (s.diffCommand extra)).toOption c with
      | .ok c' => s.collect (m := Id) git c' rest
      | .error e => .error e := rfl

theorem extract_eq (r : DiffRequest) :
    s.extract (m := Id) git r =
      (s.collect (m := Id) git .empty (s.sources r (s.resolveTarget (m := Id) git r))).map
        fun changed => ⟨s.resolveTarget (m := Id) git r, changed⟩ := rfl

theorem trackedBranch?_of_tracks (branch : String) (h : Tracks s git branch) :
    s.trackedBranch? (m := Id) git = some (s.remote ++ "/" ++ branch) := by
  obtain ⟨⟨output, hcurrent, rfl⟩, hne, hhead, heads, hheads, c, hc, hblank⟩ := h
  have hsome : Text.trimmed heads ≠ "" := by
    rw [Ne, Text.trimmed_eq_empty_iff]
    intro hall
    simp [hall c hc] at hblank
  simp [trackedBranch?_eq, hcurrent, hheads, Except.toOption, hne, hhead, hsome]

theorem tracks_of_trackedBranch? (reference : String)
    (h : s.trackedBranch? (m := Id) git = some reference) : ∃ branch, Tracks s git branch := by
  rw [trackedBranch?_eq] at h
  cases hcurrent : git ["rev-parse", "--abbrev-ref", "HEAD"] with
  | error e => simp [hcurrent, Except.toOption] at h
  | ok output =>
    simp only [hcurrent, Except.toOption] at h
    split at h
    · cases h
    rename_i hname
    cases hheads : git ["ls-remote", "--heads", s.remote, Text.trimmed output] with
    | error e => simp [hheads] at h
    | ok heads =>
      simp only [hheads] at h
      split at h
      · cases h
      rename_i hsome
      simp only [Bool.or_eq_true, String.isEmpty_iff, beq_iff_eq, not_or] at hname
      refine ⟨Text.trimmed output, ⟨output, hcurrent, rfl⟩, hname.1, hname.2, heads, hheads, ?_⟩
      rw [String.isEmpty_iff, Text.trimmed_eq_empty_iff] at hsome
      simpa using hsome

theorem trackedBranch?_eq_none (h : ∀ branch, ¬ Tracks s git branch) :
    s.trackedBranch? (m := Id) git = none := by
  cases ht : s.trackedBranch? (m := Id) git with
  | none => rfl
  | some reference =>
    obtain ⟨branch, hbranch⟩ := tracks_of_trackedBranch? s git reference ht
    exact absurd hbranch (h branch)

theorem firstBase?_of_not_verified (before rest : List String)
    (h : ∀ name ∈ before, ¬ Verified s git name) :
    s.firstBase? (m := Id) git (before ++ rest) = s.firstBase? (m := Id) git rest := by
  induction before with
  | nil => rfl
  | cons name before ih =>
    have hname := h name List.mem_cons_self
    rw [List.cons_append, firstBase?_cons, ih fun b hb => h b (List.mem_cons_of_mem name hb)]
    cases ha : git ["rev-parse", "--verify", s.remote ++ "/" ++ name] with
    | error e => rfl
    | ok output => exact absurd ⟨output, ha⟩ hname

theorem candidates_cases (names : List String) :
    (∃ before name after, names = before ++ name :: after ∧
      (∀ b ∈ before, ¬ Verified s git b) ∧ Verified s git name) ∨
    ∀ name ∈ names, ¬ Verified s git name := by
  induction names with
  | nil => simp
  | cons name names ih =>
    by_cases hv : Verified s git name
    · exact Or.inl ⟨[], name, names, rfl, by simp, hv⟩
    · rcases ih with ⟨before, found, after, rfl, hbefore, hfound⟩ | hnone
      · exact Or.inl ⟨name :: before, found, after, rfl, by simpa [hv] using hbefore, hfound⟩
      · exact Or.inr (by simpa [hv] using hnone)

theorem resolveTarget_of_resolves (r : DiffRequest) (target : DiffTarget)
    (h : Resolves s git r target) : s.resolveTarget (m := Id) git r = target := by
  rw [resolveTarget_eq]
  cases h with
  | base base hb => simp [hb, rangeFrom]
  | staged hb hs => simp [hb, hs]
  | tracked hb hs branch ht => simp [hb, hs, trackedBranch?_of_tracks s git branch ht, rangeFrom]
  | candidate hb hs ht before after name hnames hbefore hname =>
    obtain ⟨output, hout⟩ := hname
    have hfirst : s.firstBase? (m := Id) git s.baseBranches = some (s.remote ++ "/" ++ name) := by
      rw [hnames, firstBase?_of_not_verified s git before _ hbefore, firstBase?_cons, hout]
      rfl
    simp [hb, hs, trackedBranch?_eq_none s git ht, hfirst, rangeFrom]
  | nothing hb hs ht hnames =>
    have hfirst : s.firstBase? (m := Id) git s.baseBranches = none := by
      have := firstBase?_of_not_verified s git s.baseBranches [] hnames
      rwa [List.append_nil] at this
    simp [hb, hs, trackedBranch?_eq_none s git ht, hfirst]

theorem exists_resolves (r : DiffRequest) : ∃ target, Resolves s git r target := by
  cases hb : r.base with
  | some base => exact ⟨_, .base base hb⟩
  | none =>
    cases hs : r.stagedOnly with
    | true => exact ⟨_, .staged hb hs⟩
    | false =>
      by_cases ht : ∃ branch, Tracks s git branch
      · obtain ⟨branch, hbranch⟩ := ht
        exact ⟨_, .tracked hb hs branch hbranch⟩
      · have hnone : ∀ branch, ¬ Tracks s git branch := fun branch h => ht ⟨branch, h⟩
        rcases candidates_cases s git s.baseBranches with
          ⟨before, name, after, hnames, hbefore, hname⟩ | hnames
        · exact ⟨_, .candidate hb hs hnone before after name hnames hbefore hname⟩
        · exact ⟨_, .nothing hb hs hnone hnames⟩

theorem resolves_iff (r : DiffRequest) (target : DiffTarget) :
    Resolves s git r target ↔ target = s.resolveTarget (m := Id) git r := by
  constructor
  · intro h
    exact (resolveTarget_of_resolves s git r target h).symm
  · rintro rfl
    obtain ⟨target, h⟩ := exists_resolves s git r
    rw [resolveTarget_of_resolves s git r target h]
    exact h

theorem mem_sources_iff (r : DiffRequest) (target : DiffTarget) (extra : List String) :
    extra ∈ s.sources r target ↔ Applies s r target extra := by
  constructor
  · intro h
    simp only [sources, List.mem_append] at h
    rcases h with (h | h) | h
    · cases target with
      | range revisions =>
        obtain rfl := List.mem_singleton.mp h
        exact .range revisions rfl
      | stagedOnly => simp at h
    · split at h
      · rename_i hstaged
        obtain rfl := List.mem_singleton.mp h
        exact .staged (by simpa using hstaged)
      · simp at h
    · split at h
      · rename_i htree
        obtain rfl := List.mem_singleton.mp h
        simp only [Bool.and_eq_true, Bool.not_eq_true'] at htree
        exact .workingTree htree.1 htree.2
      · simp at h
  · intro h
    cases h with
    | range revisions h => simp [sources, h]
    | staged h => simp [sources, h]
    | workingTree hr hs => simp [sources, hr, hs]

theorem addDiff_eq_ok (c : ChangedLines) (hc : c.WellFormed) (extra : List String)
    (hfit : SumsFit s git extra) :
    ∃ c', s.addDiff (git (s.diffCommand extra)).toOption c = .ok c' ∧ c'.WellFormed ∧
      ∀ file n, c'.Has file n ↔ c.Has file n ∨ Contributes s git extra file n := by
  cases ha : git (s.diffCommand extra) with
  | error e =>
    refine ⟨c, rfl, hc, fun file n => ?_⟩
    simp [Contributes, ha]
  | ok text =>
    obtain ⟨d, hread, hwf, -⟩ := Patch.ofDiff_of_fits text s.contextLines (hfit text ha)
    refine ⟨c.union d, by rw [Except.toOption, addDiff, hread]; rfl, c.wellFormed_union d hc hwf,
      fun file n => ?_⟩
    rw [c.has_union d hc hwf]
    simp [Contributes, ha, hread]

theorem collect_eq_ok (c : ChangedLines) (hc : c.WellFormed) (extras : List (List String))
    (hfit : ∀ extra ∈ extras, SumsFit s git extra) :
    ∃ c', s.collect (m := Id) git c extras = .ok c' ∧ c'.WellFormed ∧
      ∀ file n, c'.Has file n ↔
        c.Has file n ∨ ∃ extra ∈ extras, Contributes s git extra file n := by
  induction extras generalizing c with
  | nil => exact ⟨c, rfl, hc, by simp⟩
  | cons extra extras ih =>
    obtain ⟨c₁, hadd, hwf₁, hhas₁⟩ := addDiff_eq_ok s git c hc extra (hfit extra List.mem_cons_self)
    obtain ⟨c₂, hrest, hwf₂, hhas₂⟩ := ih c₁ hwf₁ fun e he => hfit e (List.mem_cons_of_mem extra he)
    refine ⟨c₂, by rw [collect_cons, hadd]; exact hrest, hwf₂, fun file n => ?_⟩
    rw [hhas₂, hhas₁]
    simp [or_assoc]

theorem resolveTarget_congr (git' : List String → Except GitError String) (r : DiffRequest)
    (h : ∀ args, args.head? ≠ some "diff" → git' args = git args) :
    s.resolveTarget (m := Id) git' r = s.resolveTarget (m := Id) git r := by
  have hfirst : ∀ names, s.firstBase? (m := Id) git' names = s.firstBase? (m := Id) git names := by
    intro names
    induction names with
    | nil => rfl
    | cons name names ih => rw [firstBase?_cons, firstBase?_cons, ih, h _ (by simp)]
  have htracked : s.trackedBranch? (m := Id) git' = s.trackedBranch? (m := Id) git := by
    have hcurrent := h ["rev-parse", "--abbrev-ref", "HEAD"] (by simp)
    have hheads := fun branch => h ["ls-remote", "--heads", s.remote, branch] (by simp)
    simp only [trackedBranch?_eq, hcurrent, hheads]
  rw [resolveTarget_eq, resolveTarget_eq, htracked, hfirst]

theorem extract_eq_ok (r : DiffRequest)
    (hfit : ∀ target extra, Resolves s git r target → Applies s r target extra →
      SumsFit s git extra) :
    ∃ c, s.extract (m := Id) git r = .ok ⟨s.resolveTarget (m := Id) git r, c⟩ ∧ c.WellFormed ∧
      ∀ file n, c.Has file n ↔ ∃ extra,
        Applies s r (s.resolveTarget (m := Id) git r) extra ∧ Contributes s git extra file n := by
  have hempty : ∀ file n, ¬ ChangedLines.empty.Has file n := ChangedLines.has_nil
  obtain ⟨c, hcollect, hwf, hhas⟩ := collect_eq_ok s git .empty ChangedLines.wellFormed_empty
    (s.sources r (s.resolveTarget (m := Id) git r)) (by
      intro extra hextra
      exact hfit _ extra ((resolves_iff s git r _).mpr rfl)
        ((mem_sources_iff s r _ extra).mp hextra))
  refine ⟨c, by rw [extract_eq, hcollect]; rfl, hwf, fun file n => ?_⟩
  simp only [hhas, hempty, false_or, mem_sources_iff]

theorem extract_staged_congr (git' : List String → Except GitError String) (r : DiffRequest)
    (hb : r.base = none) (hs : r.stagedOnly = true)
    (h : git' (s.diffCommand ["--staged"]) = git (s.diffCommand ["--staged"])) :
    s.extract (m := Id) git' r = s.extract (m := Id) git r := by
  have htarget : ∀ answer : List String → Except GitError String,
      s.resolveTarget (m := Id) answer r = .stagedOnly := by
    intro answer
    simp [resolveTarget_eq, hb, hs]
  have hsources : s.sources r .stagedOnly = [["--staged"]] := by simp [sources, hs]
  rw [extract_eq, extract_eq, htarget, htarget, hsources, collect_cons, collect_cons, h]
  rfl

end Targets

/-- The target is the first that applies, and the changes are those marked by the diffs that apply
to it and succeed. With some diffs failing the target is the same and the other diffs mark what
they marked. For staged changes without a base only the staged diff matters. -/
theorem extract_unites_sources (s : DiffSettings) (git : List String → Except GitError String)
    (r : DiffRequest)
    (hfit : ∀ target extra, Resolves s git r target → Applies s r target extra →
      SumsFit s git extra) :
    ∃ e, s.extract (m := Id) git r = .ok e ∧
      (∀ target, Resolves s git r target ↔ target = e.target) ∧
      (∀ c, c = e.changed ↔ c.WellFormed ∧ ∀ file n, c.Has file n ↔
        ∃ extra, Applies s r e.target extra ∧ Contributes s git extra file n) ∧
      (∀ git' : List String → Except GitError String,
        (∀ args, git' args = git args ∨
          args.head? = some "diff" ∧ ∃ failure, git' args = .error failure) →
        ∃ e', s.extract (m := Id) git' r = .ok e' ∧ e'.target = e.target ∧
          ∀ file n, e'.changed.Has file n ↔ ∃ extra, Applies s r e.target extra ∧
            git' (s.diffCommand extra) = git (s.diffCommand extra) ∧
            Contributes s git extra file n) ∧
      (r.base = none → r.stagedOnly = true → ∀ git' : List String → Except GitError String,
        git' (s.diffCommand ["--staged"]) = git (s.diffCommand ["--staged"]) →
        s.extract (m := Id) git' r = .ok e) := by
  obtain ⟨c, hextract, hwf, hhas⟩ := extract_eq_ok s git r hfit
  refine ⟨_, hextract, resolves_iff s git r, ?_, ?_, ?_⟩
  · intro d
    constructor
    · rintro rfl
      exact ⟨hwf, hhas⟩
    · rintro ⟨hd, hmarks⟩
      exact ChangedLines.eq_of_has_iff d c hd hwf fun file n =>
        (hmarks file n).trans (hhas file n).symm
  · intro git' hgit
    have htarget : s.resolveTarget (m := Id) git' r = s.resolveTarget (m := Id) git r := by
      apply resolveTarget_congr
      intro args hargs
      exact (hgit args).resolve_right fun hfail => hargs hfail.1
    have hfit' : ∀ target extra, Resolves s git' r target → Applies s r target extra →
        SumsFit s git' extra := by
      intro target extra htarget' happlies text htext
      rw [resolves_iff, htarget, ← resolves_iff] at htarget'
      rcases hgit (s.diffCommand extra) with hsame | ⟨-, failure, hfail⟩
      · exact hfit target extra htarget' happlies text (hsame ▸ htext)
      · simp [hfail] at htext
    obtain ⟨c', hextract', -, hhas'⟩ := extract_eq_ok s git' r hfit'
    refine ⟨_, hextract', htarget, fun file n => ?_⟩
    rw [hhas', htarget]
    apply exists_congr
    intro extra
    apply and_congr_right
    intro _
    rcases hgit (s.diffCommand extra) with hsame | ⟨-, failure, hfail⟩
    · simp [Contributes, hsame]
    · constructor
      · rintro ⟨text, d, htext, -⟩
        simp [hfail] at htext
      · rintro ⟨hsame, text, d, htext, -⟩
        simp [← hsame, hfail] at htext
  · intro hb hs git' h
    rw [extract_staged_congr s git git' r hb hs h, hextract]

def localBranchAnswers : List (List String × String) := [
  (["rev-parse", "--abbrev-ref", "HEAD"], "local\n"),
  (["ls-remote", "--heads", "origin", "local"], "\n"),
  (["rev-parse", "--verify", "origin/master"], "4b825dc\n"),
  (["diff", "-U0", "--no-color", "origin/master..HEAD"],
    "diff --git a/a.ts b/a.ts\n@@ -1,0 +2,2 @@\n"),
  (["diff", "-U0", "--no-color"], "diff --git a/a.ts b/a.ts\n@@ -9 +3,3 @@\n")]

def localBranchGit (args : List String) : Except GitError String :=
  match localBranchAnswers.lookup args with
  | some text => .ok text
  | none => .error (.failed (" ".intercalate args) 128 "fatal")

theorem local_branch_unites_two_diffs :
    (∀ target extra, Resolves {} localBranchGit {} target → Applies {} {} target extra →
      SumsFit {} localBranchGit extra) ∧
    ∃ e, extract (m := Id) {} localBranchGit {} = .ok e ∧
      Resolves {} localBranchGit {} (.range "origin/master..HEAD") ∧
      e = ⟨.range "origin/master..HEAD", ⟨[("a.ts", [2, 3, 4, 5])]⟩⟩ := by
  have hfit : ∀ target extra, Resolves {} localBranchGit {} target → Applies {} {} target extra →
      SumsFit {} localBranchGit extra := by
    intro target extra _ _ text htext
    have hanswer : text ∈ localBranchAnswers.map Prod.snd := by
      rw [localBranchGit] at htext
      split at htext
      · rename_i answer hlookup
        obtain ⟨before, after, hsplit, -⟩ := List.lookup_eq_some_iff.mp hlookup
        simp [hsplit, Except.ok.inj htext]
      · cases htext
    have hall : ∀ text ∈ localBranchAnswers.map Prod.snd,
        ∀ h ∈ Patch.counted none (Text.lines text.toList), h.Fits 0 := by decide +kernel
    exact hall text hanswer
  have hvalue : (extract (m := Id) {} localBranchGit {}).run =
      .ok ⟨.range "origin/master..HEAD", ⟨[("a.ts", [2, 3, 4, 5])]⟩⟩ := by decide +kernel
  obtain ⟨e, he, htarget, -⟩ := extract_unites_sources {} localBranchGit {} hfit
  have heq : e = ⟨.range "origin/master..HEAD", ⟨[("a.ts", [2, 3, 4, 5])]⟩⟩ :=
    Except.ok.inj (he.symm.trans hvalue)
  exact ⟨hfit, e, he, (htarget _).mpr (by rw [heq]), heq⟩

end DiffSettings

end DocLint
