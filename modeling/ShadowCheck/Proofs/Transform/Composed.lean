import Mathlib.Data.List.Perm.Basic
import ShadowCheck.Transform.Edit

/-!
Chains one behind the other. If the second does not look at what has been reported, it
works on each output of the first as it does on a script alone. The scripts come in that
order; the reports do not, as each transformer sees all scripts before the next one does.
-/

namespace ShadowCheck.Transformer

/-- Whether what a transformer gives is independent of what has been reported so far. -/
def Oblivious (transformer : Transformer) : Prop :=
  ∀ options file first second script,
    transformer ⟨options, file, first⟩ script = transformer ⟨options, file, second⟩ script

/-- Whether two transformers give the same when they are told the name of their script,
whatever each does when it is told another. -/
def AgreeOnNamed (left right : Transformer) : Prop :=
  ∀ options reported script,
    left ⟨options, script.file, reported⟩ script = right ⟨options, script.file, reported⟩ script

variable (options : Project.Options)

/-! Names. -/

theorem AgreeOnNamed.runEach_eq {left right : Transformer} (agree : left.AgreeOnNamed right)
    (reported : List Diagnostic) (scripts : List Script) :
    left.runEach options reported scripts = right.runEach options reported scripts := by
  induction scripts generalizing reported with
  | nil => rfl
  | cons script rest ih =>
      unfold runEach
      rw [agree options reported script]
      dsimp only
      rw [ih]

/-- A transformer is never told another name than that of the script it is given. -/
theorem runFrom_congr {chain others : List Transformer}
    (agree : List.Forall₂ AgreeOnNamed chain others) (reported : List Diagnostic)
    (scripts : List Script) :
    runFrom options chain reported scripts = runFrom options others reported scripts := by
  induction agree generalizing reported scripts with
  | nil => rfl
  | cons first rest ih =>
      unfold runFrom
      rw [first.runEach_eq, ih]

/-! Scripts one by one. -/

/-- What a transformer gives for a script when nothing has been reported. -/
def alone (transformer : Transformer) (script : Script) : Transformed :=
  transformer ⟨options, script.file, []⟩ script

theorem runChain_singleton (transformer : Transformer) (script : Script) :
    runChain options [transformer] script = transformer ⟨options, script.file, []⟩ script := by
  simp [runChain, runFrom, runEach]

theorem Oblivious.runEach_eq {transformer : Transformer} (oblivious : transformer.Oblivious)
    (reported : List Diagnostic) (scripts : List Script) :
    transformer.runEach options reported scripts =
      ⟨scripts.flatMap fun script => (transformer.alone options script).outputs,
        reported ++ scripts.flatMap fun script => (transformer.alone options script).reports⟩ := by
  induction scripts generalizing reported with
  | nil => simp [runEach]
  | cons script rest ih =>
      unfold runEach
      rw [oblivious options script.file reported [] script]
      dsimp only
      rw [ih]
      simp only [alone, List.flatMap_cons, List.append_assoc]

/-- What a chain gives for scripts is what it gives for each of them, but for the order of
the reports. -/
structure WorksAlone (chain : List Transformer) (reported : List Diagnostic)
    (scripts : List Script) : Prop where
  outputs : (runFrom options chain reported scripts).outputs =
    scripts.flatMap fun script => (runChain options chain script).outputs
  reports : (runFrom options chain reported scripts).reports.Perm
    (reported ++ scripts.flatMap fun script => (runChain options chain script).reports)

theorem worksAlone_nil (reported : List Diagnostic) (scripts : List Script) :
    WorksAlone options [] reported scripts where
  outputs := by
    change scripts = scripts.flatMap fun script => [script]
    exact (List.flatMap_singleton' scripts).symm
  reports := by
    change reported.Perm (reported ++ scripts.flatMap fun _ => [])
    rw [List.flatMap_eq_nil_iff.mpr fun _ _ => rfl, List.append_nil]

/-- One more transformer before a chain. -/
theorem worksAlone_cons {transformer : Transformer} {chain : List Transformer}
    (oblivious : transformer.Oblivious)
    (rest : ∀ reported scripts, WorksAlone options chain reported scripts)
    (reported : List Diagnostic) (scripts : List Script) :
    WorksAlone options (transformer :: chain) reported scripts := by
  let given (script : Script) := transformer.alone options script
  -- a single script goes through the transformer, then its outputs through the chain
  have single : ∀ script, runChain options (transformer :: chain) script =
      runFrom options chain (given script).reports (given script).outputs := by
    intro script
    have front : runFrom options [transformer] [] [script] = given script :=
      runChain_singleton options transformer script
    rw [← front]
    exact runFrom_append options [transformer] chain [] [script]
  have whole : runFrom options (transformer :: chain) reported scripts =
      runFrom options chain (reported ++ scripts.flatMap fun script => (given script).reports)
        (scripts.flatMap fun script => (given script).outputs) := by
    rw [runFrom, oblivious.runEach_eq options reported scripts]
  constructor
  · rw [whole, (rest _ _).outputs, List.flatMap_assoc]
    apply List.flatMap_congr
    intro script _
    rw [single, (rest _ _).outputs]
  · have one : ∀ script ∈ scripts,
        ((given script).reports ++ (given script).outputs.flatMap fun output =>
          (runChain options chain output).reports).Perm
        (runChain options (transformer :: chain) script).reports := by
      intro script _
      rw [single]
      exact (rest _ _).reports.symm
    rw [whole]
    refine (rest _ _).reports.trans ?_
    rw [List.append_assoc, List.flatMap_assoc]
    refine List.Perm.append_left reported ?_
    exact (List.flatMap_append_perm scripts _ _).trans (List.Perm.flatMap_left scripts one)

theorem worksAlone {chain : List Transformer}
    (oblivious : ∀ transformer ∈ chain, transformer.Oblivious) (reported : List Diagnostic)
    (scripts : List Script) : WorksAlone options chain reported scripts := by
  induction chain generalizing reported scripts with
  | nil => exact worksAlone_nil options reported scripts
  | cons transformer chain ih =>
      obtain ⟨first, others⟩ := List.forall_mem_cons.mp oblivious
      exact worksAlone_cons options first (ih others) reported scripts

/-- A chain behind another one works on each of its outputs. Without transformers a script
is given back, and no transformer is told another name than that of its script. -/
theorem runChain_append (first second : List Transformer) (script : Script)
    (oblivious : ∀ transformer ∈ second, transformer.Oblivious) :
    let front := runChain options first script
    let whole := runChain options (first ++ second) script
    whole.outputs = (front.outputs.flatMap fun output => (runChain options second output).outputs) ∧
    whole.reports.Perm (front.reports ++
      front.outputs.flatMap fun output => (runChain options second output).reports) ∧
    runChain options [] script = ⟨[script], []⟩ ∧
    ∀ others, List.Forall₂ AgreeOnNamed (first ++ second) others →
      runChain options others script = whole := by
  intro front whole
  have works := worksAlone options oblivious front.reports front.outputs
  have parts : whole = runFrom options second front.reports front.outputs :=
    runFrom_append options first second [] [script]
  refine ⟨?_, ?_, rfl, fun others agree => ?_⟩
  · rw [parts]
    exact works.outputs
  · rw [parts]
    exact works.reports
  · exact (runFrom_congr options agree [] [script]).symm

/-- Reports the name that it is told, and splits the script. -/
def announceAndSplit : Transformer := fun context script =>
  ⟨[script, { script with file := script.file.withSuffix "split" }],
    [⟨.file context.file, .message, 9000, "split " ++ context.file.text⟩]⟩

/-- A chain that counts what has been reported, before one that only splits: the second
script of the first chain is announced before the scripts that the first one is split into.
Transformers that drop a script when they are told another name drop none. -/
theorem runChain_append_announced :
    let options : Project.Options := .default
    let first := [announceAndSplit, Edit.transformer (.report .warning "seen")]
    let second := [announceAndSplit, announceAndSplit]
    let script : Script := ⟨⟨"/root/a.ts"⟩, .latest, [], []⟩
    let front := runChain options first script
    let strict (transformer : Transformer) : Transformer := fun context script =>
      if context.file = script.file then transformer context script else ⟨[], []⟩
    (∀ transformer ∈ second, transformer.Oblivious) ∧
    runChain options ((first ++ second).map strict) script =
      runChain options (first ++ second) script ∧
    (runChain options (first ++ second) script).outputs =
      (front.outputs.flatMap fun output => (runChain options second output).outputs) ∧
    (runChain options (first ++ second) script).reports ≠ front.reports ++
      front.outputs.flatMap fun output => (runChain options second output).reports := by
  intro options first second script front strict
  have agree : List.Forall₂ AgreeOnNamed (first ++ second) ((first ++ second).map strict) := by
    rw [List.forall₂_map_right_iff, List.forall₂_same]
    exact fun transformer _ options reported script => (if_pos rfl).symm
  have oblivious : ∀ transformer ∈ second, transformer.Oblivious := by
    intro transformer found
    have same : transformer = announceAndSplit := by simpa [second] using found
    rw [same]
    exact fun _ _ _ _ _ => rfl
  obtain ⟨outputs, -, -, named⟩ := runChain_append options first second script oblivious
  exact ⟨oblivious, named _ agree, outputs, by decide +kernel⟩

end ShadowCheck.Transformer
