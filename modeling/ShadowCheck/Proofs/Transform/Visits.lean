import ShadowCheck.Proofs.Store.Log
import ShadowCheck.Proofs.Transform.Events

/-!
The visits of a run that transforms a project, one to each file, and what comes of the
outputs that are made there. Each output is written and recorded, or refused and
reported, or repeated and reported; the calls of the store, the table and the
diagnostics are what these effects add up to.
-/

namespace ShadowCheck.Shadow

/-- A file, what it read as, and each output made from it with what became of it. -/
structure Visit where
  file : Path
  text? : Option String
  handled : List (Script × Fate)

/-- What an output leads to: calls of the store, entries of the table, diagnostics. -/
structure Effect where
  calls : List Call
  entries : List Substitution
  diagnostics : List Diagnostic

def eventsOf (handled : List (Script × Fate)) : List Event :=
  handled.map fun one => .handled one.1 one.2

def Visit.events (visit : Visit) : List Event :=
  (visit.text?.map (Event.opened visit.file)).toList ++ eventsOf visit.handled

theorem recorded_events (visit : Visit) :
    recorded visit.events = recorded (eventsOf visit.handled) := by
  rw [Visit.events, recorded_append]
  cases visit.text? <;> rfl

theorem mem_recorded_eventsOf {handled : List (Script × Fate)} {output : Script} :
    output ∈ recorded (eventsOf handled) ↔ (output, .written) ∈ handled := by
  induction handled with
  | nil => simp [eventsOf]
  | cons one rest ih =>
      obtain ⟨other, fate⟩ := one
      rw [eventsOf, List.map_cons, recorded_cons, List.mem_append, List.mem_cons, ← ih]
      cases fate <;> simp [recorded, Event.recorded?, eventsOf]

namespace Job

variable (job : Job)

def effect : Script × Fate → Effect
  | (output, .written) =>
      ⟨[.write (job.place output) output.print (.ok ())], [job.entry output], []⟩
  | (output, .refused error) =>
      ⟨[.write (job.place output) output.print (.error error)], [],
        [(WriteIssue.failed (job.place output) error).diagnostic]⟩
  | (output, .repeated) => ⟨[], [], [(WriteIssue.overwritten (job.place output)).diagnostic]⟩

/-- What the chain makes of the script of a file. -/
def outputs (file : Path) : Option String → List Script
  | none => []
  | some text =>
      let script := Script.parse file .latest text
      (Transformer.runChain job.project.options job.chain script).outputs

/-- What is wrong with the text of a file, and then what the chain reports. -/
def reports (file : Path) : Option String → List Diagnostic
  | none => []
  | some text =>
      let script := Script.parse file .latest text
      script.diagnostics ++
        (Transformer.runChain job.project.options job.chain script).reports

def calls (visit : Visit) : List Call :=
  .read visit.file visit.text? :: visit.handled.flatMap fun one => (job.effect one).calls

/-- The diagnostics of the writing of outputs. -/
def raised (handled : List (Script × Fate)) : List Diagnostic :=
  handled.flatMap fun one => (job.effect one).diagnostics

/-- What a run did, read off its visits. -/
structure Account (visits : List Visit) (calls : List Call) (outcome : Outcome) : Prop where
  files : visits.map (·.file) = job.project.files
  outputs : ∀ visit ∈ visits, visit.handled.map (·.1) = job.outputs visit.file visit.text?
  calls : calls = visits.flatMap job.calls
  entries : outcome.substitutions.entries =
    (visits.flatMap (·.handled)).flatMap fun one => (job.effect one).entries
  diagnostics : outcome.diagnostics =
    visits.flatMap fun visit => job.reports visit.file visit.text? ++ job.raised visit.handled
  repeated : ∀ before output fate after,
    visits.flatMap (·.handled) = before ++ (output, fate) :: after →
      (fate = .repeated ↔ ∃ earlier, (earlier, Fate.written) ∈ before ∧
        earlier.file.Same output.file)

/-- What follows for the outputs of a run: none is lost, none is recorded twice, and a name
that could not be written stays free. -/
structure Balance (handled : List (Script × Fate)) (calls : List Call) (outcome : Outcome) :
    Prop where
  count : handled.length = outcome.substitutions.size +
    (job.raised handled).countP (·.code = 5033) + (job.raised handled).countP (·.code = 5056)
  apart : outcome.substitutions.Apart
  order : calls.filterMap Call.written? = outcome.substitutions.entries.map (·.target)
  retried : ∀ before output error between again fate after,
    handled = before ++ (output, .refused error) :: between ++ (again, fate) :: after →
      again.file.Same output.file →
      (∀ earlier, (earlier, Fate.written) ∈ between → ¬ earlier.file.Same output.file) →
      ∃ answer, (job.effect (again, fate)).calls =
        [.write (job.place again) again.print answer]

section

variable {m : Type → Type} [Monad m] (store : FileSystem m)

def handleAll : Substitutions → List Script → m (List (Script × Fate))
  | _, [] => pure []
  | table, output :: rest => do
      let fate ← job.fate store table output
      let others ← handleAll (job.extend table [.handled output fate]) rest
      return (output, fate) :: others

def visit (table : Substitutions) (file : Path) : m Visit := do
  let text? ← store.read file
  let handled ← job.handleAll store table (job.outputs file text?)
  return ⟨file, text?, handled⟩

def visitAll : Substitutions → List Path → m (List Visit)
  | _, [] => pure []
  | table, file :: rest => do
      let first ← job.visit store table file
      let others ← visitAll (job.extend table first.events) rest
      return first :: others

variable [LawfulMonad m]

theorem outputEvents_eq (table : Substitutions) (outputs : List Script) :
    job.outputEvents store table outputs = eventsOf <$> job.handleAll store table outputs := by
  induction outputs generalizing table with
  | nil => simp [outputEvents, handleAll, eventsOf]
  | cons output rest ih =>
      simp only [outputEvents, handleAll, ih, map_bind, map_pure, bind_map_left]
      rfl

theorem fileEvents_eq (table : Substitutions) (file : Path) :
    job.fileEvents store table file = Visit.events <$> job.visit store table file := by
  simp only [fileEvents, visit, map_bind, map_pure]
  congr 1
  funext text?
  cases text? with
  | none => simp [outputs, handleAll, Visit.events, eventsOf]
  | some text =>
      simp only [outputEvents_eq, bind_map_left]
      rfl

theorem filesEvents_eq (table : Substitutions) (files : List Path) :
    job.filesEvents store table files =
      (fun visits => visits.flatMap Visit.events) <$> job.visitAll store table files := by
  induction files generalizing table with
  | nil => simp [filesEvents, visitAll]
  | cons file rest ih =>
      simp only [filesEvents, visitAll, fileEvents_eq, ih, map_bind, map_pure, bind_map_left]
      rfl

/-- What transforming a project gives is read off its visits. -/
theorem transformProject_eq_visits :
    transformProject store job.project job.shadow job.chain =
      (fun visits => job.after .empty (visits.flatMap Visit.events)) <$>
        job.visitAll store .empty job.project.files := by
  rw [transformProject_eq, events, filesEvents_eq, Functor.map_map]

end

section

variable {σ : Type} (store : FileSystem (StateM σ)) (state : σ) (table : Substitutions)

/-! The log of a run. -/

variable (calls : List Call)

theorem perform_fate_logged (output : Script) :
    let result := perform state (job.fate store table output)
    perform (state, calls) (job.fate store.logged table output) =
      (result.1, result.2, calls ++ (job.effect (output, result.1)).calls) := by
  unfold fate
  by_cases known : table.contains output.file
  · simp [known, effect]
  · simp only [known, Bool.false_eq_true, if_false, perform_bind, perform_write_logged]
    cases (perform state (store.write (job.place output) output.print)).1 <;> rfl

theorem perform_handleAll_logged (outputs : List Script) :
    let result := perform state (job.handleAll store table outputs)
    perform (state, calls) (job.handleAll store.logged table outputs) =
      (result.1, result.2, calls ++ result.1.flatMap fun one => (job.effect one).calls) := by
  induction outputs generalizing state table calls with
  | nil => simp [handleAll]
  | cons output rest ih =>
      simp only [handleAll, perform_bind, perform_pure, perform_fate_logged, ih,
        List.flatMap_cons, List.append_assoc]

theorem perform_visit_logged (file : Path) :
    let result := perform state (job.visit store table file)
    perform (state, calls) (job.visit store.logged table file) =
      (result.1, result.2, calls ++ job.calls result.1) := by
  simp only [visit, perform_bind, perform_pure, perform_read_logged, perform_handleAll_logged,
    Job.calls, List.append_assoc, List.singleton_append]

theorem perform_visitAll_logged (files : List Path) :
    let result := perform state (job.visitAll store table files)
    perform (state, calls) (job.visitAll store.logged table files) =
      (result.1, result.2, calls ++ result.1.flatMap job.calls) := by
  induction files generalizing state table calls with
  | nil => simp [visitAll]
  | cons file rest ih =>
      simp only [visitAll, perform_bind, perform_pure, perform_visit_logged, ih,
        List.flatMap_cons, List.append_assoc]

/-! What becomes of the outputs. -/

theorem map_fst_handleAll (outputs : List Script) :
    (perform state (job.handleAll store table outputs)).1.map (·.1) = outputs := by
  induction outputs generalizing state table with
  | nil => rfl
  | cons output rest ih =>
      simp only [handleAll, perform_bind, perform_pure, List.map_cons, ih]

theorem visitAll_files (files : List Path) :
    (perform state (job.visitAll store table files)).1.map (·.file) = files := by
  induction files generalizing state table with
  | nil => rfl
  | cons file rest ih =>
      simp only [visitAll, visit, perform_bind, perform_pure, List.map_cons, ih]

theorem visitAll_outputs (files : List Path) :
    ∀ visit ∈ (perform state (job.visitAll store table files)).1,
      visit.handled.map (·.1) = job.outputs visit.file visit.text? := by
  induction files generalizing state table with
  | nil => nofun
  | cons file rest ih =>
      simp only [visitAll, visit, perform_bind, perform_pure, List.forall_mem_cons]
      exact ⟨job.map_fst_handleAll store _ table _, ih _ _⟩

end

/-- Whether each output is repeated just when its name is recorded by then. -/
inductive Fated : Substitutions → List (Script × Fate) → Prop
  | nil (table : Substitutions) : Fated table []
  | cons {table : Substitutions} {output : Script} {fate : Fate} {rest : List (Script × Fate)}
      (repeated : fate = .repeated ↔ table.contains output.file = true)
      (others : Fated (job.extend table [.handled output fate]) rest) :
      Fated table ((output, fate) :: rest)

section

variable {σ : Type} (store : FileSystem (StateM σ)) (state : σ) (table : Substitutions)

theorem repeated_fate (output : Script) :
    (perform state (job.fate store table output)).1 = .repeated ↔
      table.contains output.file = true := by
  unfold fate
  by_cases known : table.contains output.file
  · simp [known]
  · simp only [known, Bool.false_eq_true, if_false, perform_bind, iff_false]
    cases (perform state (store.write (job.place output) output.print)).1 <;> nofun

theorem fated_handleAll (outputs : List Script) :
    job.Fated table (perform state (job.handleAll store table outputs)).1 := by
  induction outputs generalizing state table with
  | nil => exact .nil table
  | cons output rest ih => exact .cons (job.repeated_fate store state table output) (ih _ _)

end

section

variable {job} {table : Substitutions}

theorem extend_events (visit : Visit) :
    job.extend table visit.events = job.extend table (eventsOf visit.handled) := by
  rw [extend, extend, recorded_events]

theorem extend_eventsOf_cons (one : Script × Fate) (rest : List (Script × Fate)) :
    job.extend (job.extend table [.handled one.1 one.2]) (eventsOf rest) =
      job.extend table (eventsOf (one :: rest)) :=
  job.extend_extend table _ _

theorem Fated.append {first second : List (Script × Fate)} (here : job.Fated table first)
    (there : job.Fated (job.extend table (eventsOf first)) second) :
    job.Fated table (first ++ second) := by
  induction here with
  | nil table =>
      rw [eventsOf, List.map_nil, extend_nil] at there
      exact there
  | cons repeated others ih =>
      rw [← extend_eventsOf_cons] at there
      exact .cons repeated (ih there)

theorem Fated.repeated_iff {handled before after : List (Script × Fate)} {output : Script}
    {fate : Fate} (fated : job.Fated table handled)
    (parts : handled = before ++ (output, fate) :: after) :
    fate = .repeated ↔ (job.extend table (eventsOf before)).contains output.file = true := by
  induction fated generalizing before with
  | nil table => exact absurd parts.symm (by simp)
  | @cons table first firstFate rest repeated others ih =>
      cases before with
      | nil =>
          cases parts
          rw [eventsOf, List.map_nil, extend_nil]
          exact repeated
      | cons one before =>
          cases parts
          rw [← extend_eventsOf_cons]
          exact ih rfl

theorem contains_extend_iff {events : List Event} {path : Path} :
    (job.extend table events).contains path = true ↔
      table.contains path = true ∨ ∃ output ∈ recorded events, output.file.Same path := by
  simp only [Substitutions.contains_iff, extend, Substitutions.entries_pushAll, List.mem_append,
    List.mem_map, or_and_right, exists_or, exists_exists_and_eq_and, entry]

end

theorem fated_visitAll {σ : Type} (store : FileSystem (StateM σ)) (state : σ)
    (table : Substitutions) (files : List Path) :
    job.Fated table ((perform state (job.visitAll store table files)).1.flatMap (·.handled)) := by
  induction files generalizing state table with
  | nil => exact .nil table
  | cons file rest ih =>
      simp only [visitAll, perform_bind, perform_pure, List.flatMap_cons]
      apply Fated.append
      · exact job.fated_handleAll store _ table _
      · rw [← extend_events]
        exact ih _ _

/-! What the effects add up to. -/

theorem map_entry_recorded (handled : List (Script × Fate)) :
    (recorded (eventsOf handled)).map job.entry =
      handled.flatMap fun one => (job.effect one).entries := by
  induction handled with
  | nil => rfl
  | cons one rest ih =>
      obtain ⟨output, fate⟩ := one
      rw [eventsOf, List.map_cons, recorded_cons, List.map_append, List.flatMap_cons]
      congr 1
      cases fate <;> rfl

theorem diagnostics_effect (one : Script × Fate) :
    (job.effect one).diagnostics = job.diagnostics (.handled one.1 one.2) := by
  obtain ⟨output, fate⟩ := one
  cases fate <;> rfl

theorem flatMap_diagnostics_events (visit : Visit) :
    visit.events.flatMap job.diagnostics =
      job.reports visit.file visit.text? ++ job.raised visit.handled := by
  rw [Visit.events, eventsOf, List.flatMap_append, List.flatMap_map, raised]
  simp only [diagnostics_effect]
  congr 1
  cases visit.text? with
  | none => rfl
  | some text => exact List.append_nil _

theorem recorded_flatMap_events (visits : List Visit) :
    recorded (visits.flatMap Visit.events) = recorded (eventsOf (visits.flatMap (·.handled))) := by
  induction visits with
  | nil => rfl
  | cons visit rest ih =>
      rw [List.flatMap_cons, List.flatMap_cons, recorded_append, recorded_events, ih,
        eventsOf, eventsOf, eventsOf, List.map_append, recorded_append]

/-- Each output is recorded or reported, and in one way. -/
theorem length_effect (one : Script × Fate) :
    (job.effect one).entries.length + (job.effect one).diagnostics.countP (·.code = 5033) +
      (job.effect one).diagnostics.countP (·.code = 5056) = 1 := by
  obtain ⟨output, fate⟩ := one
  cases fate <;> rfl

theorem length_handled (handled : List (Script × Fate)) :
    handled.length = (handled.flatMap fun one => (job.effect one).entries).length +
      (job.raised handled).countP (·.code = 5033) +
      (job.raised handled).countP (·.code = 5056) := by
  induction handled with
  | nil => rfl
  | cons one rest ih =>
      have here := job.length_effect one
      simp only [raised, List.flatMap_cons, List.length_cons, List.length_append,
        List.countP_append] at ih ⊢
      omega

theorem filterMap_written_calls (one : Script × Fate) :
    (job.effect one).calls.filterMap Call.written? =
      (job.effect one).entries.map (·.target) := by
  obtain ⟨output, fate⟩ := one
  cases fate <;> rfl

theorem filterMap_written_flatMap_calls (visits : List Visit) :
    (visits.flatMap job.calls).filterMap Call.written? =
      ((visits.flatMap (·.handled)).flatMap fun one => (job.effect one).entries).map (·.target) := by
  rw [List.filterMap_flatMap, List.flatMap_assoc, List.map_flatMap]
  apply List.flatMap_congr
  intro visit _
  rw [Job.calls, List.filterMap_cons_none rfl, List.filterMap_flatMap, List.map_flatMap]
  apply List.flatMap_congr
  intro one _
  exact job.filterMap_written_calls one

section

variable {job} {visits : List Visit} {calls : List Call} {outcome : Outcome}

/-- An output of a name that was refused and not written since is not repeated. -/
theorem Account.ne_repeated (account : job.Account visits calls outcome)
    {before between after : List (Script × Fate)} {output again : Script} {error : FileError}
    {fate : Fate} (parts : visits.flatMap (·.handled) =
      before ++ (output, .refused error) :: between ++ (again, fate) :: after)
    (same : again.file.Same output.file)
    (free : ∀ earlier, (earlier, Fate.written) ∈ between → ¬ earlier.file.Same output.file) :
    fate ≠ .repeated := by
  intro repeated
  obtain ⟨earlier, found, alike⟩ := (account.repeated _ again fate after parts).mp repeated
  have first := account.repeated before output (.refused error) (between ++ (again, fate) :: after)
    (by rw [parts, List.append_assoc, List.cons_append])
  -- Nothing of the name was written before the refusal, or it would not have been tried.
  rcases List.mem_append.mp found with inBefore | later
  · cases first.mpr ⟨earlier, inBefore, alike.trans same⟩
  · rcases List.mem_cons.mp later with here | inBetween
    · cases here
    · exact free earlier inBetween (alike.trans same)

theorem Account.balance (account : job.Account visits calls outcome)
    (apart : outcome.substitutions.Apart) :
    job.Balance (visits.flatMap (·.handled)) calls outcome where
  count := by
    rw [Substitutions.size, account.entries]
    exact job.length_handled _
  apart := apart
  order := by
    rw [account.calls, account.entries, filterMap_written_flatMap_calls]
  retried before output error between again fate after parts same free := by
    have tried := account.ne_repeated parts same free
    cases fate with
    | written => exact ⟨.ok (), rfl⟩
    | refused other => exact ⟨.error other, rfl⟩
    | repeated => exact absurd rfl tried

end

section

variable {σ : Type} (store : FileSystem (StateM σ)) (state : σ)

theorem account_visitAll :
    let visits := (perform state (job.visitAll store .empty job.project.files)).1
    job.Account visits (visits.flatMap job.calls)
      (job.after .empty (visits.flatMap Visit.events)) := by
  intro visits
  refine ⟨?_, ?_, rfl, ?_, ?_, ?_⟩
  · exact job.visitAll_files store state .empty job.project.files
  · exact job.visitAll_outputs store state .empty job.project.files
  · rw [entries_after, recorded_flatMap_events, map_entry_recorded]
  · rw [after, List.flatMap_assoc]
    simp only [flatMap_diagnostics_events]
    rfl
  · intro before output fate after parts
    have fated := job.fated_visitAll store state .empty job.project.files
    rw [fated.repeated_iff parts, contains_extend_iff]
    simp only [mem_recorded_eventsOf]
    exact or_iff_right Bool.false_ne_true

/-- A run asks of its store, records and reports what its visits say, whatever the store
answers; keeping a log changes nothing else. -/
theorem exists_account_transformProject :
    let run := perform (state, [])
      (transformProject store.logged job.project job.shadow job.chain)
    perform state (transformProject store job.project job.shadow job.chain) =
      (run.1, run.2.1) ∧
    ∃ visits, job.Account visits run.2.2 run.1 ∧
      job.Balance (visits.flatMap (·.handled)) run.2.2 run.1 := by
  intro run
  let result := perform state (job.visitAll store .empty job.project.files)
  have plain : perform state (transformProject store job.project job.shadow job.chain) =
      (job.after .empty (result.1.flatMap Visit.events), result.2) := by
    rw [transformProject_eq_visits, perform_map]
  have ran : run = (job.after .empty (result.1.flatMap Visit.events), result.2,
      result.1.flatMap job.calls) := by
    change perform (state, []) _ = _
    rw [transformProject_eq_visits, perform_map, perform_visitAll_logged, List.nil_append]
  have account := job.account_visitAll store state
  have apart := job.apart_events store state
  rw [events, filesEvents_eq, perform_map] at apart
  rw [ran]
  exact ⟨plain, result.1, account, account.balance apart⟩

end

end Job

end ShadowCheck.Shadow
