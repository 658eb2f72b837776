import ShadowCheck.Proofs.Store.Backed
import ShadowCheck.Proofs.Store.Overlay
import ShadowCheck.Transform.Shadow

/-!
What happens while files are transformed. A store answers every read and every
write in its own way; these answers, in order, are the events of a run, and what
the run records and reports is read off them. No event loses its diagnostics,
and no name is recorded twice.
-/

namespace ShadowCheck

namespace Shadow

/-- What became of an output. -/
inductive Fate
  | written
  | repeated
  | refused (error : FileError)
deriving DecidableEq, Repr

/-- A file that could be read, or one of its outputs with what became of it. -/
inductive Event
  | opened (file : Path) (text : String)
  | handled (output : Script) (fate : Fate)
deriving DecidableEq, Repr

def Event.recorded? : Event → Option Script
  | .handled output .written => some output
  | _ => none

def recorded (events : List Event) : List Script :=
  events.filterMap Event.recorded?

@[simp] theorem recorded_nil : recorded [] = [] := rfl

@[simp] theorem recorded_append (first second : List Event) :
    recorded (first ++ second) = recorded first ++ recorded second :=
  List.filterMap_append

theorem recorded_opened (file : Path) (text : String) : recorded [.opened file text] = [] := rfl

theorem recorded_written (output : Script) : recorded [.handled output .written] = [output] := rfl

theorem recorded_repeated (output : Script) : recorded [.handled output .repeated] = [] := rfl

theorem recorded_refused (output : Script) (error : FileError) :
    recorded [.handled output (.refused error)] = [] := rfl

theorem recorded_cons (event : Event) (rest : List Event) :
    recorded (event :: rest) = recorded [event] ++ recorded rest :=
  recorded_append [event] rest

/-- A project with the directory that its outputs go to and the chain that makes them. -/
structure Job where
  project : Project
  shadow : Path
  chain : List Transformer

namespace Job

variable (job : Job)

def place (output : Script) : Path :=
  Path.shadowed job.shadow job.project.root output.file

def entry (output : Script) : Substitution :=
  ⟨output.file, job.place output⟩

/-- What is to be reported of an event. -/
def diagnostics : Event → List Diagnostic
  | .opened file text => (transformText job.project.options job.chain file text).reports
  | .handled _ .written => []
  | .handled output .repeated => [(WriteIssue.overwritten (job.place output)).diagnostic]
  | .handled output (.refused error) =>
      [(WriteIssue.failed (job.place output) error).diagnostic]

def extend (table : Substitutions) (events : List Event) : Substitutions :=
  table.pushAll ((recorded events).map job.entry)

def after (outcome : Outcome) (events : List Event) : Outcome :=
  ⟨job.extend outcome.substitutions events,
    outcome.diagnostics ++ events.flatMap job.diagnostics⟩

@[simp] theorem extend_nil (table : Substitutions) : job.extend table [] = table := by
  simp [extend]

@[simp] theorem extend_extend (table : Substitutions) (first second : List Event) :
    job.extend (job.extend table first) second = job.extend table (first ++ second) := by
  simp [extend]

theorem extend_opened (table : Substitutions) (file : Path) (text : String) :
    job.extend table [.opened file text] = table := by
  simp [extend, recorded_opened]

@[simp] theorem substitutions_after (outcome : Outcome) (events : List Event) :
    (job.after outcome events).substitutions = job.extend outcome.substitutions events := rfl

theorem entries_after (events : List Event) :
    (job.after .empty events).substitutions.entries = (recorded events).map job.entry := by
  simp [extend, Outcome.empty]

@[simp] theorem after_nil (outcome : Outcome) : job.after outcome [] = outcome := by
  simp [after]

theorem after_after (outcome : Outcome) (first second : List Event) :
    job.after (job.after outcome first) second = job.after outcome (first ++ second) := by
  simp [after]

theorem after_opened (outcome : Outcome) (file : Path) (text : String) :
    job.after outcome [.opened file text] =
      outcome.report (transformText job.project.options job.chain file text).reports := by
  simp [after, extend, recorded_opened, diagnostics, Outcome.report]

theorem after_written (outcome : Outcome) (output : Script) :
    job.after outcome [.handled output .written] =
      outcome.record output.file (job.place output) := by
  simp [after, extend, recorded_written, diagnostics, Outcome.record, entry]

theorem after_repeated (outcome : Outcome) (output : Script) :
    job.after outcome [.handled output .repeated] =
      outcome.report [(WriteIssue.overwritten (job.place output)).diagnostic] := by
  simp [after, extend, recorded_repeated, diagnostics, Outcome.report]

theorem after_refused (outcome : Outcome) (output : Script) (error : FileError) :
    job.after outcome [.handled output (.refused error)] =
      outcome.report [(WriteIssue.failed (job.place output) error).diagnostic] := by
  simp [after, extend, recorded_refused, diagnostics, Outcome.report]

section

variable {m : Type → Type} [Monad m] (store : FileSystem m)

def fate (table : Substitutions) (output : Script) : m Fate :=
  if table.contains output.file then pure .repeated
  else do
    match ← store.write (job.place output) output.print with
    | .ok () => return .written
    | .error error => return .refused error

def outputEvents : Substitutions → List Script → m (List Event)
  | _, [] => pure []
  | table, output :: rest => do
      let event := Event.handled output (← job.fate store table output)
      let others ← outputEvents (job.extend table [event]) rest
      return event :: others

def fileEvents (table : Substitutions) (file : Path) : m (List Event) := do
  match ← store.read file with
  | none => return []
  | some text =>
      let outputs := (transformText job.project.options job.chain file text).outputs
      let others ← job.outputEvents store table outputs
      return .opened file text :: others

def filesEvents : Substitutions → List Path → m (List Event)
  | _, [] => pure []
  | table, file :: rest => do
      let first ← job.fileEvents store table file
      let others ← filesEvents (job.extend table first) rest
      return first ++ others

/-- The events of transforming a project. -/
def events : m (List Event) :=
  job.filesEvents store .empty job.project.files

variable [LawfulMonad m]

theorem writeOutput_eq (outcome : Outcome) (output : Script) :
    writeOutput store job.shadow job.project.root outcome output =
      (fun fate => job.after outcome [.handled output fate]) <$>
        job.fate store outcome.substitutions output := by
  unfold writeOutput fate
  by_cases known : outcome.substitutions.contains output.file
  · simp only [known, if_true, map_pure, after_repeated]
    rfl
  · simp only [known, Bool.false_eq_true, if_false, map_bind]
    congr 1
    funext answer
    cases answer with
    | ok => rw [map_pure, after_written]; rfl
    | error error => rw [map_pure, after_refused]; rfl

theorem writeOutputs_eq (outcome : Outcome) (outputs : List Script) :
    writeOutputs store job.shadow job.project.root outcome outputs =
      job.after outcome <$> job.outputEvents store outcome.substitutions outputs := by
  induction outputs generalizing outcome with
  | nil => simp [writeOutputs, outputEvents]
  | cons output rest ih =>
      simp only [writeOutputs, outputEvents, writeOutput_eq, bind_map_left, map_bind, map_pure]
      congr 1
      funext fate
      rw [ih, ← bind_pure_comp]
      simp only [after_after, List.singleton_append, substitutions_after]

theorem transformFile_eq (outcome : Outcome) (file : Path) :
    transformFile store job.project job.shadow job.chain outcome file =
      job.after outcome <$> job.fileEvents store outcome.substitutions file := by
  unfold transformFile fileEvents
  rw [map_bind]
  congr 1
  funext text?
  cases text? with
  | none => rw [map_pure, after_nil]
  | some text =>
      simp only [map_bind, map_pure]
      rw [← after_opened, writeOutputs_eq, ← bind_pure_comp]
      simp only [after_after, List.singleton_append, substitutions_after, extend_opened]

theorem transformFiles_eq (outcome : Outcome) (files : List Path) :
    transformFiles store job.project job.shadow job.chain outcome files =
      job.after outcome <$> job.filesEvents store outcome.substitutions files := by
  induction files generalizing outcome with
  | nil => simp [transformFiles, filesEvents]
  | cons file rest ih =>
      simp only [transformFiles, filesEvents, transformFile_eq, bind_map_left, map_bind, map_pure]
      congr 1
      funext first
      rw [ih, ← bind_pure_comp]
      simp only [after_after, substitutions_after]

/-- What transforming a project records and reports is read off its events. -/
theorem transformProject_eq :
    transformProject store job.project job.shadow job.chain =
      job.after .empty <$> job.events store :=
  job.transformFiles_eq store .empty job.project.files

end

/-! No name is recorded twice. -/

section

variable {σ : Type} (store : FileSystem (StateM σ)) (state : σ) {table : Substitutions}

theorem contains_of_fate_written {output : Script}
    (written : (perform state (job.fate store table output)).1 = .written) :
    table.contains output.file = false := by
  unfold fate at written
  by_cases known : table.contains output.file
  · rw [if_pos known] at written
    cases written
  · exact Bool.eq_false_iff.mpr known

theorem apart_fate (apart : table.Apart) (output : Script) :
    (job.extend table [.handled output (perform state (job.fate store table output)).1]).Apart := by
  cases fate : (perform state (job.fate store table output)).1 with
  | written => exact apart.push (job.contains_of_fate_written store state fate)
  | repeated => simpa [extend, recorded_repeated] using apart
  | refused error => simpa [extend, recorded_refused] using apart

theorem apart_outputEvents (apart : table.Apart) (outputs : List Script) :
    (job.extend table (perform state (job.outputEvents store table outputs)).1).Apart := by
  induction outputs generalizing table state with
  | nil => simpa [outputEvents] using apart
  | cons output rest ih =>
      have others := ih (perform state (job.fate store table output)).2
        (job.apart_fate store state apart output)
      rw [extend_extend] at others
      exact others

theorem apart_fileEvents (apart : table.Apart) (file : Path) :
    (job.extend table (perform state (job.fileEvents store table file)).1).Apart := by
  unfold fileEvents
  rw [perform_bind]
  cases (perform state (store.read file)).1 with
  | none => simpa using apart
  | some text =>
      have others := job.apart_outputEvents store (perform state (store.read file)).2 apart
        (transformText job.project.options job.chain file text).outputs
      rw [← job.extend_opened table file text, extend_extend, extend_opened] at others
      exact others

theorem apart_filesEvents (apart : table.Apart) (files : List Path) :
    (job.extend table (perform state (job.filesEvents store table files)).1).Apart := by
  induction files generalizing table state with
  | nil => simpa [filesEvents] using apart
  | cons file rest ih =>
      have others := ih (perform state (job.fileEvents store table file)).2
        (job.apart_fileEvents store state apart file)
      rw [extend_extend] at others
      exact others

theorem apart_events :
    (job.after .empty (perform state (job.events store)).1).substitutions.Apart :=
  job.apart_filesEvents store state Substitutions.apart_empty job.project.files

end

end Job

end Shadow

end ShadowCheck
