import ShadowCheck.Path.Basic

/-!
Substitutions: which path is to be read in place of which. The first entry for a
path counts, whatever its spelling, and an index keeps the place of that entry.
-/

namespace ShadowCheck

structure Substitution where
  source : Path
  target : Path
deriving DecidableEq, Repr

/-- Places by path. All spellings of a path have the place that was given first. -/
structure PlaceIndex where
  places : List (Path × Nat)
deriving DecidableEq, Repr

namespace PlaceIndex

def empty : PlaceIndex := ⟨[]⟩

def find? (index : PlaceIndex) (path : Path) : Option Nat :=
  (index.places.find? fun known => known.1.Same path).map (·.2)

/-- A path that has a place keeps it. -/
def insertNew (index : PlaceIndex) (path : Path) (place : Nat) : PlaceIndex :=
  if (index.find? path).isSome then index else ⟨index.places ++ [(path, place)]⟩

@[simp] theorem find?_empty (path : Path) : empty.find? path = none := rfl

theorem find?_congr (index : PlaceIndex) {left right : Path} (same : left.Same right) :
    index.find? left = index.find? right := by
  have test : (fun known : Path × Nat => decide (known.1.Same left)) =
      fun known => decide (known.1.Same right) := by
    funext known
    exact decide_eq_decide.mpr ⟨(·.trans same), (·.trans same.symm)⟩
  rw [find?, find?, test]

theorem find?_insertNew (index : PlaceIndex) (path other : Path) (place : Nat) :
    (index.insertNew path place).find? other =
      (index.find? other).or (if path.Same other then some place else none) := by
  unfold insertNew
  split
  · rename_i known
    split
    · rename_i same
      rw [find?_congr index same] at known
      obtain ⟨old, found⟩ := Option.isSome_iff_exists.mp known
      rw [found, Option.some_or]
    · rw [Option.or_none]
  · simp only [find?, List.find?_append, List.find?_singleton]
    cases index.places.find? _ <;> by_cases same : path.Same other <;> simp [same]

end PlaceIndex

structure Substitutions where
  entries : List Substitution
  /-- The place of the first entry for each path. -/
  index : PlaceIndex
  agrees : ∀ path, index.find? path = entries.findIdx? fun entry => entry.source.Same path
deriving DecidableEq, Repr

namespace Substitutions

def empty : Substitutions where
  entries := []
  index := .empty
  agrees _ := rfl

def push (table : Substitutions) (entry : Substitution) : Substitutions where
  entries := table.entries ++ [entry]
  index := table.index.insertNew entry.source table.entries.length
  agrees path := by
    rw [PlaceIndex.find?_insertNew, table.agrees, List.findIdx?_append, List.findIdx?_singleton]
    by_cases same : entry.source.Same path <;> simp [same]

def size (table : Substitutions) : Nat :=
  table.entries.length

def isEmpty (table : Substitutions) : Bool :=
  table.entries.isEmpty

def lookup? (table : Substitutions) (path : Path) : Option Path :=
  (table.index.find? path).bind fun place => table.entries[place]?.map (·.target)

def contains (table : Substitutions) (path : Path) : Bool :=
  (table.index.find? path).isSome

/-- The substituted paths, each once, as first spelled. -/
def sources (table : Substitutions) : List Path :=
  (table.entries.zipIdx.filter fun placed =>
    table.index.find? placed.1.source == some placed.2).map (·.1.source)

@[simp] theorem entries_empty : empty.entries = [] := rfl

@[simp] theorem entries_push (table : Substitutions) (entry : Substitution) :
    (table.push entry).entries = table.entries ++ [entry] := rfl

/-! The index finds what a search of the entries finds. -/

theorem lookup?_eq (table : Substitutions) (path : Path) :
    table.lookup? path =
      (table.entries.find? fun entry => entry.source.Same path).map (·.target) := by
  rw [lookup?, table.agrees]
  induction table.entries with
  | nil => rfl
  | cons entry rest ih =>
      rw [List.findIdx?_cons, List.find?_cons]
      by_cases same : entry.source.Same path
      · simp [same]
      · simpa [same, Option.bind_map, Function.comp_def] using ih

theorem contains_eq (table : Substitutions) (path : Path) :
    table.contains path = table.entries.any fun entry => entry.source.Same path := by
  rw [contains, table.agrees, List.findIdx?_isSome]

/-- An entry behind another one stands first for its path when it does so without that one,
and that one is not for the same path. -/
theorem findIdx?_cons_beq_succ (first : Substitution) (rest : List Substitution) (path : Path)
    (place : Nat) :
    (((first :: rest).findIdx? fun entry => entry.source.Same path) == some (place + 1)) =
      (decide (¬ first.source.Same path) &&
        ((rest.findIdx? fun entry => entry.source.Same path) == some place)) := by
  rw [List.findIdx?_cons]
  by_cases same : first.source.Same path
  · simp [same]
  · cases rest.findIdx? _ <;> simp [same]

theorem sources_eq (table : Substitutions) :
    table.sources = Path.distinct (table.entries.map (·.source)) := by
  simp only [sources, table.agrees]
  induction table.entries with
  | nil => rfl
  | cons entry rest ih =>
      have here : ((entry :: rest).findIdx? fun first => first.source.Same entry.source) =
          some 0 := by
        rw [List.findIdx?_cons, decide_eq_true (Path.Same.refl _), if_pos rfl]
      rw [List.zipIdx_cons, List.filter_cons_of_pos (by rw [here]; rfl), List.zipIdx_succ,
        List.filter_map, List.map_cons, List.map_map, List.map_cons, Path.distinct, ← ih,
        List.filter_map, List.filter_filter]
      apply congrArg (List.cons _)
      exact congrArg (List.map _) (List.filter_congr fun placed _ =>
        findIdx?_cons_beq_succ entry rest placed.1.source placed.2)

theorem isSome_lookup? (table : Substitutions) (path : Path) :
    (table.lookup? path).isSome = table.contains path := by
  rw [lookup?_eq, contains_eq, Option.isSome_map, List.isSome_find?]

theorem lookup?_push (table : Substitutions) (entry : Substitution) (path : Path) :
    (table.push entry).lookup? path =
      (table.lookup? path).or (if entry.source.Same path then some entry.target else none) := by
  simp only [lookup?_eq, entries_push, List.find?_append, List.find?_singleton]
  cases table.entries.find? _ <;> by_cases h : entry.source.Same path <;> simp [h]

theorem contains_push (table : Substitutions) (entry : Substitution) (path : Path) :
    (table.push entry).contains path =
      (table.contains path || decide (entry.source.Same path)) := by
  simp [contains_eq]

end Substitutions

end ShadowCheck
