/-
  Commands as tools, whatever programs there are.

  The compiler and the canonicalizer of a filter are commands, and what a command does is up to the programs of the system.
  So everything here is said of any system (`Programs`), in terms of what its programs leave (`Tool.Outcome`):

  1. A command line runs exactly if its first word starts as a program (`Tool.run_eq_ok_iff`), and what is known of the
     program afterwards is read off its outcome.
  2. A compiler is believed by how it ended and by nothing that it printed (`Command.compiler_fst`); a canonicalizer has an
     answer exactly if it ended with the status zero, and the answer is its output (`Command.canonicalizer_eq_ok_iff`).  Each
     of their complaints names the program (`Command.canonicalizer_error_names`, `Command.probe_error_names`).
  3. If no program of the system changes a file (`Programs.LeaveFiles`), then neither does a command, so that the filter of
     any settings has tools that leave files alone (`FilterConfig.filter_leavesFiles`); and the command that sifts a folder
     changes files only by the pass itself (`CommandLine.Sifting.run_cases`): before that it fails or goes on with the files
     that it was given.
-/
import SeedCorpus.CommandLine.Sifting
import SeedCorpus.Proofs.Filter.Keeping

namespace SeedCorpus

/-! ## What the end of a program says -/

/-- What the end of a compiler says about a file. -/
def Tool.Ending.verdict : Tool.Ending → Verdict
  | .timedOut => .timedOut
  | .exited 0 => .accepted
  | _ => .rejected

/-- Only a compiler that ends by itself, and with the status zero, has accepted a file. -/
theorem Tool.Ending.verdict_eq_accepted_iff {ending : Tool.Ending} : ending.verdict = .accepted ↔ ending = .exited 0 := by
  cases ending with
  | timedOut => exact iff_of_false nofun nofun
  | killed => exact iff_of_false nofun nofun
  | exited status =>
    cases status with
    | zero => exact iff_of_true rfl rfl
    | succ status => exact iff_of_false nofun nofun

variable [Programs]

/-! ## Command lines -/

namespace Tool

variable {t t' : FileTree} {words : List String} {input : String} {seconds : Nat} {result : RunResult}

/-- A command line runs exactly if its first word starts as a program; the rest is read off what that left. -/
theorem run_eq_ok_iff : run t words input seconds = (.ok result, t') ↔ ∃ program args outcome, words = program :: args ∧
    Programs.start t program args (Utf8.encode input) seconds = .ok outcome ∧ result = outcome.result ∧
      t' = outcome.files := by
  cases words with
  | nil => simp [run]
  | cons program args =>
    cases hs : Programs.start t program args (Utf8.encode input) seconds with
    | error cause => simp [run, hs]
    | ok outcome =>
      simp only [run, hs, Prod.mk.injEq, Except.ok.injEq, List.cons.injEq]
      constructor
      · rintro ⟨rfl, rfl⟩
        exact ⟨program, args, outcome, ⟨rfl, rfl⟩, hs, rfl, rfl⟩
      · rintro ⟨_, _, outcome', ⟨rfl, rfl⟩, hs', rfl, rfl⟩
        rw [hs] at hs'
        cases hs'
        exact ⟨rfl, rfl⟩

end Tool

/-! ## What a command says -/

namespace Command

variable {c : Command} {t : FileTree} {path text normal : String} {cause : ToolError}

/-- **A compiler is believed by how it ended.**  It is asked about a path with that path as its last argument and with nothing
to read; if it cannot be started there is no verdict. -/
theorem compiler_fst (c : Command) (t : FileTree) (path : String) :
    (c.compiler t path).1 =
      ((Programs.start t c.program (c.args ++ [path]) (Utf8.encode "") c.timeoutSecs).mapError .notStarted).map
        fun outcome => outcome.ending.verdict := by
  have hwords : c.words ++ [path] = c.program :: (c.args ++ [path]) := rfl
  rw [compiler, hwords, Tool.run]
  cases Programs.start t c.program (c.args ++ [path]) (Utf8.encode "") c.timeoutSecs with
  | error cause => rfl
  | ok outcome =>
    obtain ⟨output, errors, ending, files⟩ := outcome
    cases ending with
    | timedOut => rfl
    | killed => rfl
    | exited status => cases status <;> rfl

/-- A compiler accepts a file exactly if it ends with the status zero. -/
theorem compiler_eq_accepted_iff : (c.compiler t path).1 = .ok .accepted ↔
    ∃ outcome, Programs.start t c.program (c.args ++ [path]) (Utf8.encode "") c.timeoutSecs = .ok outcome ∧
      outcome.ending = .exited 0 := by
  rw [compiler_fst]
  cases Programs.start t c.program (c.args ++ [path]) (Utf8.encode "") c.timeoutSecs with
  | error cause => exact iff_of_false nofun fun ⟨_, hstarted, _⟩ => nomatch hstarted
  | ok outcome =>
    show Except.ok outcome.ending.verdict = .ok .accepted ↔ _
    rw [Except.ok.injEq, Tool.Ending.verdict_eq_accepted_iff]
    constructor
    · intro hending
      exact ⟨outcome, rfl, hending⟩
    · rintro ⟨_, hsame, hending⟩
      cases hsame
      exact hending

/-- **A canonicalizer has an answer exactly if it ends with the status zero**, and then the answer is what it printed. -/
theorem canonicalizer_eq_ok_iff : (c.canonicalizer t text).1 = .ok normal ↔
    ∃ outcome, Programs.start t c.program c.args (Utf8.encode text) c.timeoutSecs = .ok outcome ∧
      outcome.ending = .exited 0 ∧ normal = Utf8.decode outcome.output := by
  rw [canonicalizer, words, Tool.run]
  cases Programs.start t c.program c.args (Utf8.encode text) c.timeoutSecs with
  | error cause => simp
  | ok outcome =>
    obtain ⟨output, errors, ending, files⟩ := outcome
    cases ending with
    | timedOut => simp [Tool.Outcome.result]
    | killed => simp [Tool.Outcome.result]
    | exited status => cases status <;> simp [Tool.Outcome.result, eq_comm]

/-- Every complaint about a canonicalizer names its program. -/
theorem canonicalizer_error_names (h : (c.canonicalizer t text).1 = .error cause) :
    ∃ front back, cause.message = front ++ c.program ++ back := by
  unfold canonicalizer at h
  generalize Tool.run t c.words text c.timeoutSecs = run at h
  match run, h with
  | (.error _, _), h =>
    cases h
    exact ⟨"canonicalizer `", "` is not runnable", rfl⟩
  | (.ok { termination := false, .. }, _), h =>
    cases h
    refine ⟨"canonicalizer `", "` timed out after " ++ (toString c.timeoutSecs ++ "s"), ?_⟩
    show "canonicalizer `" ++ c.program ++ "` timed out after " ++ toString c.timeoutSecs ++ "s" = _
    rw [String.append_assoc, String.append_assoc]
  | (.ok { termination := true, success := false, errors, .. }, _), h =>
    cases h
    refine ⟨"canonicalizer `", "` failed: " ++ Blank.trim errors, ?_⟩
    show "canonicalizer `" ++ c.program ++ "` failed: " ++ Blank.trim errors = _
    rw [String.append_assoc]
  | (.ok { termination := true, success := true, .. }, _), h => cases h

/-- Every complaint about a compiler that is asked for its version names its program. -/
theorem probe_error_names (h : (c.probe t).1 = .error cause) : ∃ front back, cause.message = front ++ c.program ++ back := by
  unfold probe at h
  split at h
  · obtain rfl := Except.error.inj h
    exact ⟨"C compiler `", "` is not runnable", rfl⟩
  · dsimp only at h
    split at h
    · cases h
    · obtain rfl := Except.error.inj h
      exact ⟨"C compiler `", "` failed to report its version", rfl⟩

end Command

/-! ## Systems that leave files alone -/

/-- No program of the system changes a file. -/
def Programs.LeaveFiles : Prop :=
  ∀ t program args input seconds outcome, Programs.start t program args input seconds = .ok outcome → outcome.files = t

variable (h : Programs.LeaveFiles)

include h

/-- A command line changes no file there, whether it runs or not. -/
theorem Programs.LeaveFiles.run (t : FileTree) (words : List String) (input : String) (seconds : Nat) :
    (Tool.run t words input seconds).2 = t := by
  cases words with
  | nil => rfl
  | cons program args =>
    rw [Tool.run]
    cases hs : Programs.start t program args (Utf8.encode input) seconds with
    | error cause => rfl
    | ok outcome => exact h _ _ _ _ _ _ hs

/-- Asking a compiler for its version changes no file there. -/
theorem Programs.LeaveFiles.probe (c : Command) (t : FileTree) : (c.probe t).2 = t := by
  have hrun := h.run t [c.program, "--version"] "" c.timeoutSecs
  unfold Command.probe
  split <;> rename_i heq <;> rw [heq] at hrun <;> exact hrun

/-- **The tools of any settings leave files alone where the programs do.** -/
theorem FilterConfig.filter_leavesFiles (c : FilterConfig) : c.filter.LeavesFiles where
  compiler t path := by
    have hrun := h.run t (c.compiler.words ++ [path]) "" c.compiler.timeoutSecs
    show (c.compiler.compiler t path).2 = t
    unfold Command.compiler
    split <;> rename_i heq <;> rw [heq] at hrun <;> exact hrun
  canonicalizer t text := by
    have hrun := h.run t c.canonicalizer.words text c.canonicalizer.timeoutSecs
    show (c.canonicalizer.canonicalizer t text).2 = t
    unfold Command.canonicalizer
    split <;> rename_i heq <;> rw [heq] at hrun
    · exact hrun
    · -- a program that ran, with three ways to answer, each of which hands on its files
      split
      · exact hrun
      · split <;> exact hrun

namespace CommandLine.Sifting

/-- **The command changes files by its pass alone.**  It fails with all files as they were, or the settings were read and the
compiler told its version, and what it leaves and reports is what the pass does. -/
theorem run_cases (s : Sifting) (t : FileTree) :
    (∃ message, s.run t = (.failed message, t)) ∨
      ∃ c, s.settings t = .ok c ∧ (c.compiler.probe t).1 = .ok () ∧
        (s.run t).2 = (c.filter.processFolder t s.seeds).files ∧
          (∀ report, (c.filter.processFolder t s.seeds).result = .ok report →
            (s.run t).1 = .done report.progress (some report.summary.text)) ∧
          (∀ cause, (c.filter.processFolder t s.seeds).result = .error cause →
            (s.run t).1 = .failed cause.message) := by
  cases hsettings : s.settings t with
  | error cause => exact .inl ⟨cause.message, by simp only [run, hsettings]⟩
  | ok c =>
    cases hfolder : (t.findFolder s.seeds).isOk with
    | false =>
      exact .inl ⟨"Seed directory " ++ s.seeds ++ " doesn't exist!", by simp [run, hsettings, hfolder]⟩
    | true =>
      have hprobe := h.probe c.compiler t
      cases hanswer : c.compiler.probe t with
      | mk answer t' =>
        obtain rfl : t' = t := by rw [hanswer] at hprobe; exact hprobe
        cases answer with
        | error cause => exact .inl ⟨cause.message, by simp [run, hsettings, hfolder, hanswer]⟩
        | ok u =>
          refine .inr ⟨c, rfl, congrArg Prod.fst hanswer, ?_⟩
          cases hresult : (c.filter.processFolder t' s.seeds).result with
          | error cause => simp [run, hsettings, hfolder, hanswer, hresult]
          | ok report => simp [run, hsettings, hfolder, hanswer, hresult]

end CommandLine.Sifting

end SeedCorpus
