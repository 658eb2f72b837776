import ShadowCheck.Main
import ShadowCheck.Proofs.Program.Unplaced
import ShadowCheck.Proofs.Recheck.Checked
import ShadowCheck.Proofs.Recheck.Confined
import ShadowCheck.Proofs.Recheck.Renamed
import ShadowCheck.Proofs.Recheck.Repeated
import ShadowCheck.Proofs.Recheck.Replaced
import ShadowCheck.Proofs.Recheck.Reported
import ShadowCheck.Proofs.Script.Grammar
import ShadowCheck.Store.DiskStore
import ShadowCheck.Proofs.Script.Reprinted
import ShadowCheck.Proofs.Program.Resolution
import ShadowCheck.Proofs.Program.Rules
import ShadowCheck.Proofs.Store.Log
import ShadowCheck.Proofs.Transform.Visits
import ShadowCheck.Proofs.Script.Lexical
import ShadowCheck.Proofs.Script.Located
import ShadowCheck.Proofs.Script.Joined
import ShadowCheck.Proofs.Program.Reordered
import ShadowCheck.Proofs.Store.History
import ShadowCheck.Proofs.Path.Shadowed
import ShadowCheck.Proofs.Project.Distinct
import ShadowCheck.Proofs.Recheck.Reinterpreted
import ShadowCheck.Proofs.Diagnostic.Shown
import ShadowCheck.Proofs.Filter.Admitted
import ShadowCheck.Proofs.Json.Grammar
import ShadowCheck.Proofs.Json.Reading
import ShadowCheck.Proofs.Project.Blanked
import ShadowCheck.Proofs.Transform.Composed
import ShadowCheck.Proofs.Path.Extension
import ShadowCheck.Proofs.Store.Substitutions
import ShadowCheck.Proofs.Program.Unrelated
import ShadowCheck.Proofs.Script.LineEnds
