import TracedEval.Launcher
import TracedEval.Proofs.Sessions
import TracedEval.Proofs.Writing
import Mathlib.Data.List.Basic

/-!
# Launches

Running all programs is running each of them. Every program gets a new context, and on the standard
output, which takes everything, the only error that a program can end in is a failure that has been
reported. So one program after the other is run, whatever becomes of those before it.

* `Program.Ends` is that a program comes to an end, and `Bundle.ends` that the bundled ones do;
* `Engine.launchAll_eq` is what running programs one after the other comes to;
* `Program.Apart` is that two programs cannot be mistaken for one another, and `Program.find?_of_mem`
  that their names find them then;
* `LaunchOptions.runs_each` is the statement for launches.
-/

namespace TracedEval

/-! ## Programs that come to an end -/

/-- A program comes to an end in a context, in a value or in a failure. -/
def Program.Ends (p : Program) (ctx : Context) : Prop :=
  ∃ after, (ctx.evaluate p.body).context? = some after

theorem Program.ends_of_meets {p : Program} {ctx : Context} {P : Value → Context → Prop}
    {Q : Failure → Context → Prop} (h : (ctx.evaluate p.body).Meets P Q False) : p.Ends ctx := by
  rcases h.ok_or_error with ⟨value, after, ho, -⟩ | ⟨failure, after, ho, -⟩
  · exact ⟨after, by rw [ho]; rfl⟩
  · exact ⟨after, by rw [ho]; rfl⟩

/-- The bundled programs come to an end at every depth, since none of them runs a program inside. -/
theorem Bundle.ends {p : Program} (hp : p ∈ Bundle.programs) (e : Engine) :
    p.Ends e.newContext := by
  have hflat : ∀ q ∈ Bundle.programs, q.body.within .flat .flat = true := by decide
  exact Program.ends_of_meets
    (Context.evaluate_meets rfl (hflat p hp) Environment.within_initial)

/-! ## Running programs -/

/-- Whatever an engine made from settings writes to takes everything. -/
theorem Engine.open_ofConfig (config : Config) :
    (Engine.ofConfig config).newContext.output.Open := by
  intro sink hsink
  have hecho : (if config.echoOutput then some Sink.unlimited else none) = some sink := hsink
  split at hecho
  · cases hecho
    exact ⟨rfl, rfl⟩
  · cases hecho

/-- If a program comes to an end, and its failure can be reported, then the launch can go on. -/
theorem Engine.error_launch {e : Engine} (hopen : e.newContext.output.Open) {p : Program}
    (hends : p.Ends e.newContext) (printResult : Bool) : (e.launch printResult p).error = none := by
  obtain ⟨after, hafter⟩ := hends
  unfold launch Context.execute
  cases ho : e.newContext.evaluate p.body with
  | ok value ctx => rfl
  | error failure ctx =>
    have htaken := (Context.ExecutionTaken.of_open hopen p.body).report failure ctx ho
    have hlines : ctx.output.writeLines (ctx.reportLines failure) =
        ((ctx.output.writeLines (ctx.reportLines failure)).1, none) := Prod.ext rfl htaken
    rw [Context.settle_of_written hlines]
  | underflow | exhausted =>
    rw [ho] at hafter
    cases hafter

theorem Launch.append_nothing {l : Launch} (h : l.error = none) : l.append .nothing = l := by
  obtain ⟨stdout, failed, error⟩ := l
  subst h
  simp [append, nothing]

theorem Launch.append_assoc (a b c : Launch) :
    (a.append b).append c = a.append (b.append c) := by
  simp [append]

section LaunchAll

variable {e : Engine} {printResult : Bool}

theorem Engine.launchAll_cons {p : Program} (h : (e.launch printResult p).error = none)
    (rest : List Program) :
    e.launchAll printResult (p :: rest) =
      (e.launch printResult p).append (e.launchAll printResult rest) := by
  rw [launchAll, h]
  rfl

theorem Engine.launchAll_singleton {p : Program} (h : (e.launch printResult p).error = none) :
    e.launchAll printResult [p] = e.launch printResult p := by
  rw [launchAll_cons h, launchAll, Launch.append_nothing h]

/-- What comes after programs that can be gone on from does not depend on them. -/
theorem Engine.launchAll_append {before : List Program}
    (h : ∀ p ∈ before, (e.launch printResult p).error = none) (after : List Program) :
    e.launchAll printResult (before ++ after) =
      (e.launchAll printResult before).append (e.launchAll printResult after) := by
  induction before with
  | nil => rfl
  | cons p rest ih =>
    rw [List.forall_mem_cons] at h
    rw [List.cons_append, launchAll_cons h.1, launchAll_cons h.1, ih h.2, Launch.append_assoc]

/-- As long as no error ends the launch, all programs are run. -/
theorem Engine.launchAll_eq {programs : List Program}
    (h : ∀ p ∈ programs, (e.launch printResult p).error = none) :
    e.launchAll printResult programs =
      ⟨programs.flatMap fun p => (e.launch printResult p).stdout,
        programs.flatMap fun p => (e.launch printResult p).failed, none⟩ := by
  induction programs with
  | nil => rfl
  | cons p rest ih =>
    rw [List.forall_mem_cons] at h
    rw [launchAll_cons h.1, ih h.2]
    rfl

end LaunchAll

/-- Without an error, the exit status says whether a program has failed. -/
theorem Launch.exitCode_eq_one_iff {l : Launch} (h : l.error = none) :
    l.exitCode = 1 ↔ l.failed ≠ [] := by
  unfold exitCode
  rw [h]
  cases l.failed <;> simp

/-! ## Names -/

/-- No name of the one program is one of the other. -/
def Program.Apart (p q : Program) : Prop :=
  p.name ≠ q.name ∧ p.name ≠ q.hostName ∧ p.hostName ≠ q.name ∧ p.hostName ≠ q.hostName

instance (p q : Program) : Decidable (p.Apart q) :=
  inferInstanceAs (Decidable (_ ∧ _ ∧ _ ∧ _))

theorem Bundle.pairwise_apart : Bundle.programs.Pairwise Program.Apart := by
  decide +kernel

/-- Among programs that are apart, each is found by its own names. -/
theorem Program.find?_of_mem {programs : List Program} (h : programs.Pairwise Apart) {p : Program}
    (hp : p ∈ programs) {name : String} (hname : name = p.name ∨ name = p.hostName) :
    find? programs name = some p := by
  obtain ⟨before, after, rfl⟩ := List.append_of_mem hp
  have hbefore : ∀ q ∈ before, q.Apart p :=
    fun q hq => (List.pairwise_append.mp h).2.2 q hq p List.mem_cons_self
  refine List.find?_eq_some_iff_append.mpr ⟨?_, before, after, rfl, fun q hq => ?_⟩
  · rcases hname with rfl | rfl <;> simp [isNamed]
  · obtain ⟨hname_name, hname_host, hhost_name, hhost_host⟩ := hbefore q hq
    rcases hname with rfl | rfl
    · simp [isNamed, hname_name, hhost_name]
    · simp [isNamed, hname_host, hhost_host]

/-! ## Launches -/

namespace LaunchOptions

/-- The same options with another program to run, or with all. -/
def withProgram (o : LaunchOptions) (program : Option String) : LaunchOptions :=
  { o with program := program }

/-- With settings that are accepted a launch runs the selected programs. -/
theorem launch_eq {o : LaunchOptions} (hversion : o.version = false) (hlist : o.list = false)
    {read : String → Except FileError ByteArray} {config : Config}
    (hsettings : o.settings read = .ok config) {programs selected : List Program}
    (hselected : o.selected programs = .ok selected) :
    o.launch programs read = (Engine.ofConfig config).launchAll o.printResult selected := by
  simp [launch, hversion, hlist, hsettings, hselected]

/-- Running all of the programs is running each of them. -/
structure RunsEach (o : LaunchOptions) (read : String → Except FileError ByteArray)
    (programs : List Program) : Prop where
  /-- All are run in the order in which they stand. -/
  stdout : ((o.withProgram none).launch programs read).stdout =
    programs.flatMap fun p => ((o.withProgram p.name).launch programs read).stdout
  /-- Either name of a program will do. -/
  hostName : ∀ p ∈ programs, (o.withProgram p.hostName).launch programs read =
    (o.withProgram p.name).launch programs read
  /-- The launch fails if one of the programs does. -/
  exitCode : ((o.withProgram none).launch programs read).exitCode = 1 ↔
    ∃ p ∈ programs, ((o.withProgram p.name).launch programs read).exitCode = 1
  /-- Whatever a program ends in, those after it run as if it had not been there. -/
  split : ∀ before p after, programs = before ++ p :: after →
    (o.withProgram none).launch programs read =
      ((o.withProgram none).launch before read).append
        (((o.withProgram p.name).launch programs read).append
          ((o.withProgram none).launch after read))

section RunsEach

variable {o : LaunchOptions} {read : String → Except FileError ByteArray} {config : Config}

/-- Running all programs is running each of them, if all come to an end and no two can be mistaken for
one another. -/
theorem runsEach_of_ends (hversion : o.version = false) (hlist : o.list = false)
    (hsettings : o.settings read = .ok config) {programs : List Program}
    (hapart : programs.Pairwise Program.Apart)
    (hends : ∀ p ∈ programs, p.Ends (Engine.ofConfig config).newContext) :
    o.RunsEach read programs := by
  have herror : ∀ p ∈ programs,
      ((Engine.ofConfig config).launch o.printResult p).error = none :=
    fun p hp => Engine.error_launch (Engine.open_ofConfig config) (hends p hp) o.printResult
  have hall : ∀ list, (o.withProgram none).launch list read =
      (Engine.ofConfig config).launchAll o.printResult list :=
    fun _ => launch_eq (o := o.withProgram none) hversion hlist hsettings rfl
  have hnamed : ∀ p ∈ programs, ∀ name, name = p.name ∨ name = p.hostName →
      (o.withProgram name).launch programs read =
        (Engine.ofConfig config).launch o.printResult p := by
    intro p hp name hname
    have hselected : (o.withProgram name).selected programs = .ok [p] := by
      simp [selected, withProgram, Program.find?_of_mem hapart hp hname]
    rw [launch_eq (o := o.withProgram name) hversion hlist hsettings hselected]
    exact Engine.launchAll_singleton (herror p hp)
  have hname : ∀ p ∈ programs, (o.withProgram p.name).launch programs read =
      (Engine.ofConfig config).launch o.printResult p :=
    fun p hp => hnamed p hp _ (.inl rfl)
  refine ⟨?_, ?_, ?_, ?_⟩
  · rw [hall, Engine.launchAll_eq herror]
    exact List.flatMap_congr fun p hp => by rw [hname p hp]
  · intro p hp
    rw [hname p hp, hnamed p hp _ (.inr rfl)]
  · have hlaunchAll := Engine.launchAll_eq herror
    rw [hall, hlaunchAll, Launch.exitCode_eq_one_iff rfl, Ne, List.flatMap_eq_nil_iff]
    simp only [not_forall₂, exists_prop]
    refine exists_congr fun p => and_congr_right fun hp => ?_
    rw [hname p hp, Launch.exitCode_eq_one_iff (herror p hp)]
  · rintro before p after rfl
    rw [List.forall_mem_append, List.forall_mem_cons] at herror
    have hp : p ∈ before ++ p :: after := List.mem_append_right before List.mem_cons_self
    rw [hall, hall, hall, hname p hp, Engine.launchAll_append herror.1,
      Engine.launchAll_cons herror.2.1]

/-- Running all of the bundled programs is running each of them, with any settings that a launch
accepts; and so it is for any other programs that come to an end and cannot be mistaken for one
another. -/
theorem runs_each (hversion : o.version = false) (hlist : o.list = false)
    (hsettings : o.settings read = .ok config) :
    o.RunsEach read Bundle.programs ∧
      ∀ programs : List Program, programs.Pairwise Program.Apart →
        (∀ p ∈ programs, p.Ends (Engine.ofConfig config).newContext) →
          o.RunsEach read programs := by
  refine ⟨?_, fun programs => runsEach_of_ends hversion hlist hsettings⟩
  exact runsEach_of_ends hversion hlist hsettings Bundle.pairwise_apart fun p hp => Bundle.ends hp _

/-- A program that fails, before one that does not. -/
theorem runs_each_failing :
    let o : LaunchOptions := { maxCallDepth := some 4, printResult := true }
    let read : String → Except FileError ByteArray := fun _ => .error .notFound
    let programs : List Program :=
      [⟨"a-1", .raise ⟨1, 1⟩ "no"⟩, ⟨"b", .builtin .print ⟨1, 1⟩ [.literal (.string "yes")]⟩]
    o.RunsEach read Bundle.programs ∧ o.RunsEach read programs ∧
      ((o.withProgram none).launch programs read).failed = ["a-1"] := by
  intro o read programs
  have hsettings : o.settings read = .ok ⟨4, true, false, .text⟩ := rfl
  obtain ⟨hbundle, hany⟩ := runs_each (o := o) rfl rfl hsettings
  refine ⟨hbundle, hany programs (by decide +kernel) ?_, by decide +kernel⟩
  intro p hp
  rcases List.mem_pair.mp hp with rfl | rfl <;> exact ⟨_, rfl⟩

end RunsEach

end LaunchOptions

end TracedEval
