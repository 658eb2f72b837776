import ShadowCheck.Project.Basic
import ShadowCheck.Script.Basic

/-!
Transformers of whole scripts, and chains of them. A transformer gives any number
of scripts for one, and may report diagnostics; each transformer of a chain sees
every script that the one before it gave.
-/

namespace ShadowCheck

/-- What a transformer knows besides the script: the options of the project, the
name of the script, and what has been reported for this input so far. -/
structure TransformContext where
  options : Project.Options
  file : Path
  reported : List Diagnostic

structure Transformed where
  outputs : List Script
  reports : List Diagnostic

abbrev Transformer := TransformContext → Script → Transformed

namespace Transformer

def runEach (transformer : Transformer) (options : Project.Options) :
    List Diagnostic → List Script → Transformed
  | reported, [] => ⟨[], reported⟩
  | reported, script :: rest =>
      let first := transformer ⟨options, script.file, reported⟩ script
      let others := transformer.runEach options (reported ++ first.reports) rest
      ⟨first.outputs ++ others.outputs, others.reports⟩

def runFrom (options : Project.Options) :
    List Transformer → List Diagnostic → List Script → Transformed
  | [], reported, scripts => ⟨scripts, reported⟩
  | transformer :: chain, reported, scripts =>
      let step := transformer.runEach options reported scripts
      runFrom options chain step.reports step.outputs

theorem runFrom_append (options : Project.Options) (first second : List Transformer)
    (reported : List Diagnostic) (scripts : List Script) :
    runFrom options (first ++ second) reported scripts =
      runFrom options second (runFrom options first reported scripts).reports
        (runFrom options first reported scripts).outputs := by
  induction first generalizing reported scripts with
  | nil => rfl
  | cons transformer chain ih => exact ih _ _

def runChain (options : Project.Options) (chain : List Transformer) (script : Script) :
    Transformed :=
  runFrom options chain [] [script]

end Transformer

end ShadowCheck
