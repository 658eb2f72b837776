import Mathlib.Data.List.Forall2
import ShadowCheck.Store.Substitutions

/-!
Substitutions after any pushes. The index and the list never drift apart: a path is looked
up where it stands first in the list, and the substituted paths are those first places.
-/

namespace ShadowCheck.Substitutions

def pushAll (table : Substitutions) (entries : List Substitution) : Substitutions :=
  entries.foldl push table

@[simp] theorem pushAll_nil (table : Substitutions) : table.pushAll [] = table := rfl

@[simp] theorem pushAll_cons (table : Substitutions) (entry : Substitution)
    (rest : List Substitution) :
    table.pushAll (entry :: rest) = (table.push entry).pushAll rest := rfl

@[simp] theorem pushAll_pushAll (table : Substitutions) (front rest : List Substitution) :
    (table.pushAll front).pushAll rest = table.pushAll (front ++ rest) :=
  List.foldl_append.symm

@[simp] theorem entries_pushAll (table : Substitutions) (entries : List Substitution) :
    (table.pushAll entries).entries = table.entries ++ entries := by
  induction entries generalizing table with
  | nil => exact (List.append_nil _).symm
  | cons entry rest ih =>
      rw [pushAll_cons, ih, entries_push, List.append_assoc, List.singleton_append]

/-- The first entry for a path, and its place. -/
structure First (entries : List Substitution) (path : Path) (place : Nat)
    (entry : Substitution) : Prop where
  here : entries[place]? = some entry
  same : entry.source.Same path
  others : ∀ earlier other, earlier < place → entries[earlier]? = some other →
    ¬ other.source.Same path

/-- Whether some paths are those of the first entries for each path, as they are spelled
there and in their order. -/
structure ListsFirsts (entries : List Substitution) (paths : List Path) : Prop where
  apart : paths.Pairwise fun left right => ¬ left.Same right
  covers : ∀ entry ∈ entries, ∃ path ∈ paths, entry.source.Same path
  ordered : ∃ places : List Nat, places.Pairwise (· < ·) ∧
    List.Forall₂ (fun place path => ∃ entry, First entries path place entry ∧
      entry.source = path) places paths

section

variable {entries : List Substitution} {path : Path} {place : Nat}

theorem findIdx?_eq_some_iff :
    (entries.findIdx? fun entry => entry.source.Same path) = some place ↔
      ∃ entry, First entries path place entry := by
  rw [List.findIdx?_eq_some_iff_getElem]
  constructor
  · rintro ⟨inside, same, others⟩
    refine ⟨entries[place], List.getElem?_eq_getElem inside, of_decide_eq_true same, ?_⟩
    intro earlier other before found again
    obtain ⟨_, rfl⟩ := List.getElem?_eq_some_iff.mp found
    exact others earlier before (decide_eq_true again)
  · rintro ⟨entry, here, same, others⟩
    obtain ⟨inside, rfl⟩ := List.getElem?_eq_some_iff.mp here
    refine ⟨inside, decide_eq_true same, ?_⟩
    intro earlier before again
    exact others earlier _ before (List.getElem?_eq_getElem _) (of_decide_eq_true again)

end

section

variable (table : Substitutions)

theorem find?_index_eq_some_iff {path : Path} {place : Nat} :
    table.index.find? path = some place ↔ ∃ entry, First table.entries path place entry := by
  rw [table.agrees, findIdx?_eq_some_iff]

theorem lookup?_eq_some_iff {path target : Path} :
    table.lookup? path = some target ↔
      ∃ place entry, First table.entries path place entry ∧ entry.target = target := by
  simp only [lookup?, Option.bind_eq_some_iff, find?_index_eq_some_iff, Option.map_eq_some_iff]
  constructor
  · rintro ⟨place, ⟨entry, first⟩, other, found, rfl⟩
    rw [first.here, Option.some.injEq] at found
    exact ⟨place, entry, first, congrArg (·.target) found⟩
  · rintro ⟨place, entry, first, rfl⟩
    exact ⟨place, ⟨entry, first⟩, entry, first.here, rfl⟩

theorem contains_iff {path : Path} :
    table.contains path = true ↔ ∃ entry ∈ table.entries, entry.source.Same path := by
  simp [contains_eq]

theorem lookup?_eq_none_iff {path : Path} :
    table.lookup? path = none ↔ ∀ entry ∈ table.entries, ¬ entry.source.Same path := by
  rw [← Option.not_isSome_iff_eq_none, isSome_lookup?, contains_iff]
  simp only [not_exists, not_and]

theorem exists_places_sources :
    ∃ places : List Nat, places.Pairwise (· < ·) ∧
      List.Forall₂ (fun place path => ∃ entry, First table.entries path place entry ∧
        entry.source = path) places table.sources := by
  let firsts := table.entries.zipIdx.filter fun placed =>
    table.index.find? placed.1.source == some placed.2
  refine ⟨firsts.map (·.2), ?_, ?_⟩
  · have ascending : (table.entries.zipIdx.map (·.2)).Pairwise (· < ·) := by
      rw [List.zipIdx_map_snd]
      exact List.pairwise_lt_range'
    exact ascending.sublist (List.filter_sublist.map _)
  · rw [sources, List.forall₂_map_left_iff, List.forall₂_map_right_iff, List.forall₂_same]
    rintro ⟨entry, place⟩ found
    obtain ⟨inside, first⟩ := List.mem_filter.mp found
    obtain ⟨other, isFirst⟩ := table.find?_index_eq_some_iff.mp (beq_iff_eq.mp first)
    have here : table.entries[place]? = some entry := List.mem_zipIdx_iff_getElem?.mp inside
    have same : other = entry := Option.some.inj (isFirst.here.symm.trans here)
    exact ⟨entry, same ▸ isFirst, rfl⟩

theorem listsFirsts_sources : ListsFirsts table.entries table.sources where
  apart := by
    rw [sources_eq]
    exact Path.pairwise_distinct _
  covers entry found := by
    rw [sources_eq]
    exact Path.exists_mem_distinct (List.mem_map_of_mem found)
  ordered := table.exists_places_sources

theorem lookup?_pushAll {path target : Path} (found : table.lookup? path = some target)
    (entries : List Substitution) : (table.pushAll entries).lookup? path = some target := by
  induction entries generalizing table with
  | nil => exact found
  | cons entry rest ih =>
      apply ih
      rw [lookup?_push, found, Option.some_or]

end

/-- After any pushes the index, a look-up, the test for a path and the list of paths all tell
of the first entry for each path, and what was found stays whatever is pushed later. -/
theorem pushAll_empty_agrees (entries : List Substitution) :
    let table := empty.pushAll entries
    (∀ path place, table.index.find? path = some place ↔
        ∃ entry, First entries path place entry) ∧
      (∀ path target, table.lookup? path = some target ↔
        ∃ place entry, First entries path place entry ∧ entry.target = target) ∧
      (∀ path, table.lookup? path = none ↔ ∀ entry ∈ entries, ¬ entry.source.Same path) ∧
      (∀ path, table.contains path = true ↔ ∃ entry ∈ entries, entry.source.Same path) ∧
      ListsFirsts entries table.sources ∧
      table.size = entries.length ∧
      ∀ path target more, table.lookup? path = some target →
        (table.pushAll more).lookup? path = some target := by
  intro table
  have whole : table.entries = entries := entries_pushAll empty entries
  refine ⟨?_, ?_, ?_, ?_, ?_, ?_, ?_⟩
  · intro path place
    rw [find?_index_eq_some_iff, whole]
  · intro path target
    rw [lookup?_eq_some_iff, whole]
  · intro path
    rw [lookup?_eq_none_iff, whole]
  · intro path
    rw [contains_iff, whole]
  · rw [← whole]
    exact table.listsFirsts_sources
  · rw [size, whole]
  · exact fun path target more found => table.lookup?_pushAll found more

end ShadowCheck.Substitutions
