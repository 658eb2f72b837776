import ShadowCheck.Proofs.Store.Backed

/-!
A store that keeps a log of what is read and written, with the answers. The log only
grows, and the answers are those of the store itself.
-/

namespace ShadowCheck

variable {σ : Type}

inductive Call
  | read (path : Path) (text? : Option String)
  | write (path : Path) (text : String) (answer : Except FileError Unit)

/-- The path of a write that was done. -/
def Call.written? : Call → Option Path
  | write path _ (.ok ()) => some path
  | _ => none

def noting {α : Type} (note : α → List Call) (action : StateM σ α) : StateM (σ × List Call) α := do
  let (state, calls) ← get
  let (value, state) := perform state action
  set (state, calls ++ note value)
  return value

def FileSystem.logged (store : FileSystem (StateM σ)) : FileSystem (StateM (σ × List Call)) where
  directory := noting (fun _ => []) store.directory
  caseSensitive := noting (fun _ => []) store.caseSensitive
  holds path := noting (fun _ => []) (store.holds path)
  read path := noting (fun text? => [.read path text?]) (store.read path)
  list root selection := noting (fun _ => []) (store.list root selection)
  write path text := noting (fun answer => [.write path text answer]) (store.write path text)
  makeTemporary := noting (fun _ => []) store.makeTemporary
  removeTemporary path := noting (fun _ => []) (store.removeTemporary path)

section

variable (store : FileSystem (StateM σ)) (state : σ) (calls : List Call)

theorem perform_read_logged (path : Path) :
    let result := perform state (store.read path)
    perform (state, calls) (store.logged.read path) =
      (result.1, result.2, calls ++ [.read path result.1]) := rfl

theorem perform_write_logged (path : Path) (text : String) :
    let result := perform state (store.write path text)
    perform (state, calls) (store.logged.write path text) =
      (result.1, result.2, calls ++ [.write path text result.1]) := rfl

end

end ShadowCheck
