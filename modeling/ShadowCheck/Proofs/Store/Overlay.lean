import Mathlib.Data.List.Forall2
import ShadowCheck.Proofs.Path.Settled
import ShadowCheck.Proofs.Store.Substitutions
import ShadowCheck.Store.Overlay

/-!
Stores seen through substitutions. A table that substitutes one place for each
of some files, none of them twice, leads every spelling of a file to its place
and lists the files in their order.
-/

namespace ShadowCheck

/-- A way to compare spellings that tells apart different paths. -/
structure Path.Likeness (like : Path → Path → Prop) : Prop where
  refl : ∀ path, like path path
  same : ∀ {left right}, like left right → left.Same right

theorem Path.likeness_same : Path.Likeness Path.Same :=
  ⟨Path.Same.refl, id⟩

theorem Path.likeness_eq : Path.Likeness Eq where
  refl _ := rfl
  same equal := equal ▸ Path.Same.refl _

theorem Path.distinct_eq_self {paths : List Path}
    (apart : paths.Pairwise fun left right => ¬ left.Same right) :
    Path.distinct paths = paths := by
  induction paths with
  | nil => rfl
  | cons path rest ih =>
      obtain ⟨first, others⟩ := List.pairwise_cons.mp apart
      have kept : rest.filter (fun other => ¬ path.Same other) = rest := by
        rw [List.filter_eq_self]
        intro other found
        exact decide_eq_true (first other found)
      rw [distinct, ih others, kept]

theorem Path.exists_of_mem_forall₂ {like : Path → Path → Prop} {paths files : List Path}
    (alike : List.Forall₂ like paths files) {path : Path} (found : path ∈ paths) :
    ∃ file ∈ files, like path file := by
  induction alike with
  | nil => cases found
  | cons head tail ih =>
      rcases List.mem_cons.mp found with rfl | later
      · exact ⟨_, List.mem_cons_self, head⟩
      · obtain ⟨file, inside, other⟩ := ih later
        exact ⟨file, List.mem_cons_of_mem _ inside, other⟩

theorem Path.forall₂_of_mem {first second : Path → Path → Prop} {paths files : List Path}
    (alike : List.Forall₂ first paths files)
    (follows : ∀ file ∈ files, ∀ path, first path file → second path file) :
    List.Forall₂ second paths files := by
  induction alike with
  | nil => exact .nil
  | cons head tail ih =>
      obtain ⟨here, others⟩ := List.forall_mem_cons.mp follows
      exact .cons (here _ head) (ih others)

theorem Path.pairwise_of_forall₂ {like : Path → Path → Prop} (likeness : Path.Likeness like)
    {paths files : List Path} (alike : List.Forall₂ like paths files)
    (apart : files.Pairwise fun left right => ¬ left.Same right) :
    paths.Pairwise fun left right => ¬ left.Same right := by
  induction alike with
  | nil => exact .nil
  | @cons path file paths files head tail ih =>
      obtain ⟨first, others⟩ := List.pairwise_cons.mp apart
      refine .cons ?_ (ih others)
      intro other found same
      obtain ⟨second, inside, otherAlike⟩ := exists_of_mem_forall₂ tail found
      exact first second inside ((likeness.same head).symm.trans
        (same.trans (likeness.same otherAlike)))

namespace Substitutions

/-- Whether a table has one entry for each path. -/
def Apart (table : Substitutions) : Prop :=
  table.entries.Pairwise fun first second => ¬ first.source.Same second.source

theorem apart_empty : empty.Apart :=
  .nil

theorem Apart.push {table : Substitutions} (apart : table.Apart) {entry : Substitution}
    (fresh : table.contains entry.source = false) : (table.push entry).Apart := by
  refine List.pairwise_append.mpr ⟨apart, List.pairwise_singleton _ _, ?_⟩
  intro other found last inside same
  rw [List.mem_singleton.mp inside] at same
  have known : table.contains entry.source = true :=
    table.contains_iff.mpr ⟨other, found, same⟩
  rw [fresh] at known
  cases known

theorem Apart.lookup?_of_mem {table : Substitutions} (apart : table.Apart) {entry : Substitution}
    (found : entry ∈ table.entries) : table.lookup? entry.source = some entry.target := by
  rw [lookup?_eq]
  unfold Apart at apart
  generalize table.entries = entries at apart found
  induction entries with
  | nil => cases found
  | cons first rest ih =>
      obtain ⟨others, restApart⟩ := List.pairwise_cons.mp apart
      rcases List.mem_cons.mp found with rfl | later
      · have hit : entry.source.Same entry.source := Path.Same.refl _
        rw [List.find?_cons_of_pos (by simpa using hit), Option.map_some]
      · rw [List.find?_cons_of_neg (by simpa using others entry later)]
        exact ih restApart later

variable {like : Path → Path → Prop} {place : Path → Path}

/-- Whether a table sends some files, in order, to their places. -/
def Sends (like : Path → Path → Prop) (place : Path → Path) (table : Substitutions)
    (files : List Path) : Prop :=
  List.Forall₂ (fun entry file => like entry.source file ∧ entry.target = place file)
    table.entries files

theorem sends_empty : Sends like place .empty [] :=
  .nil

theorem Sends.push {table : Substitutions} {files : List Path}
    (sends : Sends like place table files) {source file : Path} (alike : like source file) :
    Sends like place (table.push ⟨source, place file⟩) (files ++ [file]) :=
  List.rel_append sends (.cons ⟨alike, rfl⟩ .nil)

theorem Sends.lookup?_eq_none (likeness : Path.Likeness like) {table : Substitutions}
    {files : List Path} (sends : Sends like place table files) {path : Path}
    (other : ∀ file ∈ files, ¬ file.Same path) : table.lookup? path = none := by
  rw [lookup?_eq]
  unfold Sends at sends
  generalize table.entries = entries at sends
  induction sends with
  | nil => rfl
  | @cons entry file entries files head tail ih =>
      obtain ⟨first, others⟩ := List.forall_mem_cons.mp other
      have off : ¬ entry.source.Same path := fun same =>
        first ((likeness.same head.1).symm.trans same)
      rw [List.find?_cons_of_neg (by simpa using off)]
      exact ih others

theorem Sends.contains_eq_false (likeness : Path.Likeness like) {table : Substitutions}
    {files : List Path} (sends : Sends like place table files) {path : Path}
    (other : ∀ file ∈ files, ¬ file.Same path) : table.contains path = false := by
  rw [← isSome_lookup?, sends.lookup?_eq_none likeness other]
  rfl

/-- Every spelling of a file leads to the place of the file. -/
theorem Sends.lookup?_eq_some (likeness : Path.Likeness like) {table : Substitutions}
    {files : List Path} (sends : Sends like place table files)
    (apart : files.Pairwise fun left right => ¬ left.Same right) {file path : Path}
    (found : file ∈ files) (same : path.Same file) : table.lookup? path = some (place file) := by
  rw [lookup?_eq]
  unfold Sends at sends
  generalize table.entries = entries at sends
  induction sends with
  | nil => cases found
  | @cons entry first entries files head tail ih =>
      obtain ⟨firstApart, othersApart⟩ := List.pairwise_cons.mp apart
      have alike := likeness.same head.1
      rcases List.mem_cons.mp found with rfl | later
      · have hit : entry.source.Same path := alike.trans same.symm
        rw [List.find?_cons_of_pos (by simpa using hit), Option.map_some, head.2]
      · have off : ¬ entry.source.Same path := fun hit =>
          firstApart file later (alike.symm.trans (hit.trans same))
        rw [List.find?_cons_of_neg (by simpa using off)]
        exact ih othersApart later

theorem Sends.map_source {table : Substitutions} {files : List Path}
    (sends : Sends like place table files) :
    List.Forall₂ like (table.entries.map (·.source)) files :=
  List.forall₂_map_left_iff.mpr (sends.imp fun _ _ head => head.1)

theorem Sends.sources (likeness : Path.Likeness like) {table : Substitutions}
    {files : List Path} (sends : Sends like place table files)
    (apart : files.Pairwise fun left right => ¬ left.Same right) :
    List.Forall₂ like table.sources files := by
  have sources := sends.map_source
  have sourcesApart := Path.pairwise_of_forall₂ likeness sources apart
  rw [Substitutions.sources_eq, Path.distinct_eq_self sourcesApart]
  exact sources

end Substitutions

end ShadowCheck
