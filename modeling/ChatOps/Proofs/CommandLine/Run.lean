/-
What comes of a command line. The failures of a run are those of a relation with one rule for each
reason to fail, in the order in which the reasons are met: the words, the settings, the task. The
status a run ends with tells words that do not fit from every other failure, and a failure from
none; no run ends for want of the built-in commands.
-/
import ChatOps.CommandLine.Run
import ChatOps.Proofs.Builtin.Registry
import ChatOps.Proofs.Chat.Session

namespace ChatOps

open Text

/-- Only an output that is full ends a session before its input. -/
theorem Session.ending_run_ne_unwritable (s : Session) (input : List UInt8) :
    (s.run none input).ending ≠ .unwritable := by
  rcases texts_or_unreadable ((lines input).map chomp) with
    ⟨texts, h⟩ | ⟨texts, line, rest, h, hline⟩
  · rw [run_of_texts (lined_iff.2 h.symm)]
    nofun
  · obtain ⟨fault, hrun⟩ := run_of_unreadable (s := s) (lined_iff.2 h.symm) hline
    rw [hrun]
    nofun

namespace CommandLine

/-! ## Failures -/

/-- With these settings and this input a task fails for this reason. -/
inductive Task.Fails (config : Config) (input : List UInt8) : Task → Failure → Prop
  | parse {words : List String} {json : Bool} {e : ParseError} :
      Builtin.registry.parse (" ".intercalate words) = .error e →
      Fails config input (.parse words json) (.parse e)
  | unreadable {sender channel : String} {fault : Utf8Fault} :
      ((session Builtin.registry config sender channel).run none input).ending =
        .unreadable fault →
      Fails config input (.chat sender channel) (.unreadable fault)
  | noSetting {key : String} : config.lookup key = .missing →
      Fails config input (.config (some key)) (.noSetting key)

/-- An invocation fails for this reason. Settings that cannot be loaded come before what the task
would fail for. -/
inductive Invocation.Fails (i : Invocation) (s : Surroundings) (input : List UInt8) :
    Failure → Prop
  | config {e : ConfigError} : s.loadConfig i.configPath = .error e → Fails i s input (.config e)
  | task {config : Config} {failure : Failure} : s.loadConfig i.configPath = .ok config →
      i.task.Fails config input failure → Fails i s input failure

/-- A command line fails for this reason. -/
inductive Fails (args : List String) (s : Surroundings) (input : List UInt8) : Failure → Prop
  | usage : Invocation.read args = .error .usage → Fails args s input .usage
  | invocation {i : Invocation} {failure : Failure} : Invocation.read args = .ok i →
      i.Fails s input failure → Fails args s input failure

variable {config : Config} {args : List String} {s : Surroundings} {input : List UInt8}
  {failure : Failure}

theorem Task.failure_run_eq_some_iff {t : Task} :
    (t.run Builtin.registry config input).failure = some failure ↔
      t.Fails config input failure := by
  cases t with
  | parse words json =>
    rw [Task.run]
    cases h : Builtin.registry.parse (" ".intercalate words) with
    | error e =>
      constructor
      · rintro ⟨⟩
        exact .parse h
      · rintro (h' | _ | _)
        rw [h] at h'
        cases h'
        rfl
    | ok r =>
      refine iff_of_false nofun ?_
      rintro (h' | _ | _)
      rw [h] at h'
      cases h'
  | chat sender channel =>
    rw [Task.run, ofTranscript]
    cases h : ((session Builtin.registry config sender channel).run none input).ending with
    | finished n =>
      refine iff_of_false nofun ?_
      rintro (_ | h' | _)
      rw [h] at h'
      cases h'
    | unreadable fault =>
      constructor
      · rintro ⟨⟩
        exact .unreadable h
      · rintro (_ | h' | _)
        rw [h] at h'
        cases h'
        rfl
    | unwritable => exact absurd h (Session.ending_run_ne_unwritable _ _)
  | commands => exact iff_of_false nofun nofun
  | config key =>
    cases key with
    | none => exact iff_of_false nofun nofun
    | some key =>
      rw [Task.run]
      cases h : config.lookup key with
      | exact setting =>
        refine iff_of_false nofun ?_
        rintro (_ | _ | h')
        rw [h] at h'
        cases h'
      | candidates found =>
        refine iff_of_false nofun ?_
        rintro (_ | _ | h')
        rw [h] at h'
        cases h'
      | missing =>
        constructor
        · rintro ⟨⟩
          exact .noSetting h
        · rintro (_ | _ | _)
          rfl

/-- All built-in commands are accepted, so only the settings can keep a task from being done. -/
theorem Invocation.prepare_eq (i : Invocation) (s : Surroundings) :
    i.prepare s =
      match s.loadConfig i.configPath with
      | .error e => .error (.config e)
      | .ok config => .ok (config, Builtin.registry) := by
  obtain ⟨log, h⟩ := Builtin.load_eq_registry
  unfold Invocation.prepare
  cases s.loadConfig i.configPath with
  | error e => rfl
  | ok config => simp only [h]

theorem Invocation.failure_run_eq_some_iff {i : Invocation} :
    (i.run s input).failure = some failure ↔ i.Fails s input failure := by
  rw [Invocation.run, i.prepare_eq]
  cases hload : s.loadConfig i.configPath with
  | error e =>
    constructor
    · rintro ⟨⟩
      exact .config hload
    · rintro (h | ⟨h, -⟩)
      · rw [hload] at h
        cases h
        rfl
      · rw [hload] at h
        cases h
  | ok config =>
    show (i.task.run Builtin.registry config input).failure = _ ↔ _
    rw [Task.failure_run_eq_some_iff]
    constructor
    · exact .task hload
    · rintro (h | ⟨h, hfails⟩)
      · rw [hload] at h
        cases h
      · rw [hload] at h
        cases h
        exact hfails

/-- A run fails exactly for the reasons there are. -/
theorem failure_run_eq_some_iff :
    (run args s input).failure = some failure ↔ Fails args s input failure := by
  rw [run]
  cases hread : Invocation.read args with
  | error stop =>
    constructor
    · cases stop <;> rintro ⟨⟩
      exact .usage hread
    · rintro (h | ⟨h, -⟩)
      · rw [hread] at h
        cases h
        rfl
      · rw [hread] at h
        cases h
  | ok i =>
    show (i.run s input).failure = _ ↔ _
    rw [Invocation.failure_run_eq_some_iff]
    constructor
    · exact .invocation hread
    · rintro (h | ⟨h, hfails⟩)
      · rw [hread] at h
        cases h
      · rw [hread] at h
        cases h
        exact hfails

/-! ## The status -/

theorem Failure.errorText_ne_empty (f : Failure) : f.errorText ≠ "" := by
  cases f with
  | usage => decide
  | _ =>
    intro h
    exact absurd (String.append_eq_empty_iff.1 (String.append_eq_empty_iff.1 h).1).1 (by decide)

theorem Task.Fails.exitCode_eq {t : Task} (h : t.Fails config input failure) :
    failure ≠ .usage ∧ failure.exitCode = 1 := by
  cases h <;> exact ⟨nofun, rfl⟩

theorem Invocation.Fails.exitCode_eq {i : Invocation} (h : i.Fails s input failure) :
    failure ≠ .usage ∧ failure.exitCode = 1 := by
  cases h with
  | config => exact ⟨nofun, rfl⟩
  | task _ h => exact h.exitCode_eq

/-- The status of a run is 0 exactly if the run does not fail, and 2 exactly if the words of the
command line do not fit; any other failure has the status 1. Just the runs that fail write something
on the error output. -/
theorem run_status (args : List String) (s : Surroundings) (input : List UInt8) :
    ((run args s input).exitCode = 0 ↔ ∀ failure, ¬ Fails args s input failure) ∧
      ((run args s input).exitCode = 1 ↔ ∃ failure ≠ .usage, Fails args s input failure) ∧
      ((run args s input).exitCode = 2 ↔ Invocation.read args = .error .usage) ∧
      ((run args s input).errorText = "" ↔ (run args s input).exitCode = 0) := by
  have husage : (run args s input).failure = some .usage ↔
      Invocation.read args = .error .usage := by
    rw [failure_run_eq_some_iff]
    constructor
    · rintro (h | ⟨-, h⟩)
      · exact h
      · exact absurd rfl h.exitCode_eq.1
    · exact .usage
  simp only [← husage, ← failure_run_eq_some_iff, Outcome.exitCode, Outcome.errorText]
  cases hrun : (run args s input).failure with
  | none => simp
  | some failure =>
    have htext := failure.errorText_ne_empty
    cases failure_run_eq_some_iff.1 hrun with
    | usage => simp [Failure.exitCode, htext]
    | invocation _ h =>
      obtain ⟨hne, hcode⟩ := h.exitCode_eq
      simp [hne, hcode, htext]

end CommandLine

end ChatOps
