import Mathlib.Data.List.Lex
import ShadowCheck.Proofs.Path.Settled

/-!
The order of paths, and their plain spellings. A listing that is sorted and names each
place once ascends from path to path; a path that was resolved against an absolute
directory has the one plain spelling of its place.
-/

namespace ShadowCheck

theorem Component.key_injective : Function.Injective Component.key := by
  intro left right same
  cases left with
  | name leftBytes =>
      cases right with
      | name rightBytes =>
          have toNat_injective : Function.Injective UInt8.toNat := fun _ _ => UInt8.toNat_inj.mp
          have numbers : leftBytes.map UInt8.toNat = rightBytes.map UInt8.toNat :=
            List.tail_eq_of_cons_eq same
          rw [List.map_injective_iff.mpr toNat_injective numbers]
      | _ => cases same
  | _ => cases right <;> first | rfl | cases same

namespace Path

theorem same_of_key_eq {left right : Path} (same : left.key = right.key) : left.Same right :=
  List.map_injective_iff.mpr Component.key_injective same

theorem le_iff (left right : Path) : left.le right ↔ left.key ≤ right.key := by
  have letters : (fun first second : List Nat => first.lex second Nat.blt) =
      fun first second => decide (first < second) := by
    funext first second
    have digits : Nat.blt = fun first second => decide (first < second) := by
      funext first second
      rw [Bool.eq_iff_iff, decide_eq_true_iff, Nat.blt_eq]
    rw [Bool.eq_iff_iff, decide_eq_true_iff, digits, List.lex_eq_true_iff_lt]
  rw [le, letters, Bool.not_eq_true', Bool.eq_false_iff, ne_eq, List.lex_eq_true_iff_lt]
  exact not_lt

/-- Sorted paths of which no two are at one place ascend. -/
theorem pairwise_distinct_sorted (paths : List Path) :
    (distinct (paths.mergeSort le)).Pairwise fun left right => left.key < right.key := by
  have sorted : (paths.mergeSort le).Pairwise fun left right => left.le right := by
    apply List.pairwise_mergeSort
    · intro left middle right first second
      rw [le_iff] at *
      exact first.trans second
    · intro left right
      rw [Bool.or_eq_true, le_iff, le_iff]
      exact le_total left.key right.key
  have kept := (sorted.sublist (distinct_sublist _)).and (pairwise_distinct _)
  refine kept.imp fun {left right} both => ?_
  have below := (le_iff left right).mp both.1
  exact lt_of_le_of_ne below fun same => both.2 (same_of_key_eq same)

/-! Plain spellings. -/

/-- Whether a path is settled and spelled as its components are. -/
structure Canonical (path : Path) : Prop where
  settled : path.Settled
  plain : ofComponents path.components = path

theorem Canonical.eq_of_same {left right : Path} (leftCanonical : left.Canonical)
    (rightCanonical : right.Canonical) (same : left.Same right) : left = right := by
  rw [← leftCanonical.plain, same, rightCanonical.plain]

theorem canonical_normalize {path : Path} (absolute : path.isAbsolute) :
    path.normalize.Canonical where
  settled := settled_normalize absolute
  plain := by rw [components_normalize, normalize]

theorem canonical_resolve {base : Path} (absolute : base.isAbsolute) (path : Path) :
    (base.resolve path).Canonical := by
  unfold resolve
  split
  · rename_i absolutePath
    exact canonical_normalize absolutePath
  · exact canonical_normalize (isAbsolute_join absolute path)

section

variable {base : Path} (absolute : base.isAbsolute)

include absolute

theorem resolve_eq_self_iff (path : Path) : base.resolve path = path ↔ path.Canonical := by
  constructor
  · intro fixed
    rw [← fixed]
    exact canonical_resolve absolute path
  · intro canonical
    exact (canonical_resolve absolute path).eq_of_same canonical
      (resolve_same canonical.settled base)

theorem resolve_same_resolve_iff (left right : Path) :
    (base.resolve left).Same (base.resolve right) ↔ base.resolve left = base.resolve right := by
  constructor
  · exact (canonical_resolve absolute left).eq_of_same (canonical_resolve absolute right)
  · intro equal
    rw [equal]
    exact Same.refl _

end

end Path

end ShadowCheck
