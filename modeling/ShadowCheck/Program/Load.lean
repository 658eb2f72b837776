import ShadowCheck.Program.Check
import ShadowCheck.Script.Parse
import ShadowCheck.Store.Basic

/-! Programs read from a store. -/

namespace ShadowCheck.Program

def load [Monad m] (store : FileSystem m) (edition : Edition) : List Path → m (List Script)
  | [] => pure []
  | file :: rest => do
      match ← store.read file with
      | none => load store edition rest
      | some text =>
          let scripts ← load store edition rest
          return Script.parse file edition text :: scripts

end ShadowCheck.Program
