import Mathlib.Data.List.Induction
import Mathlib.Data.List.Range
import ShadowCheck.Proofs.Store.Memory

/-!
What a store in memory holds after any changes: at each place the text that was last
written there and not removed since, or else the first entry that it began with. It is a
map from places to texts, it lists its places in order, and the temporary directories that
it hands out are all different.
-/

namespace ShadowCheck

namespace Memory

inductive Change
  | write (path : Path) (text : String)
  | makeTemporary
  | removeTemporary (folder : Path)
deriving DecidableEq, Repr

def apply (memory : Memory) : Change → Memory
  | .write path text => memory.write path text
  | .makeTemporary => memory.makeTemporary.2
  | .removeTemporary folder => memory.removeTemporary folder

def after (memory : Memory) (changes : List Change) : Memory :=
  changes.foldl apply memory

theorem after_concat (memory : Memory) (changes : List Change) (change : Change) :
    memory.after (changes ++ [change]) = (memory.after changes).apply change := by
  rw [after, List.foldl_append]
  rfl

theorem Reachable.directory_eq {directory : Path} {memory : Memory}
    (reachable : Reachable directory memory) : memory.directory = directory := by
  induction reachable with
  | ofEntries entries => rfl
  | write _ _ _ ih => exact ih
  | makeTemporary _ ih => exact ih
  | removeTemporary _ _ ih => exact ih

theorem Reachable.apply {directory : Path} {memory : Memory}
    (reachable : Reachable directory memory) (change : Change) :
    Reachable directory (memory.apply change) := by
  cases change with
  | write path text => exact reachable.write path text
  | makeTemporary => exact reachable.makeTemporary
  | removeTemporary folder => exact reachable.removeTemporary folder

theorem Reachable.after {directory : Path} {memory : Memory}
    (reachable : Reachable directory memory) (changes : List Change) :
    Reachable directory (memory.after changes) := by
  induction changes using List.reverseRecOn with
  | nil => exact reachable
  | append_singleton changes change ih =>
      rw [after_concat]
      exact ih.apply change

/-! Places and their texts. -/

section

variable (directory wanted : Path)

/-- Whether a change writes a text to the place of a path. -/
def Change.Writes (text : String) : Change → Prop
  | .write path written => directory.resolve path = directory.resolve wanted ∧ written = text
  | _ => False

/-- Whether a change removes the place of a path, or a directory above it. -/
def Change.Removes : Change → Prop
  | .removeTemporary folder =>
      (directory.resolve folder).components <+: (directory.resolve wanted).components
  | _ => False

/-- Whether a text was written to the place of a path, and since then nothing was written
there and the place was not removed. -/
def LastWritten (changes : List Change) (text : String) : Prop :=
  ∃ before change later, changes = before ++ change :: later ∧
    change.Writes directory wanted text ∧
    ∀ other ∈ later, ¬ other.Removes directory wanted ∧
      ∀ another, ¬ other.Writes directory wanted another

/-- Whether a text is that of the first entry at the place of a path. -/
def FirstEntry (entries : List Entry) (text : String) : Prop :=
  ∃ before entry later, entries = before ++ entry :: later ∧
    directory.resolve entry.path = directory.resolve wanted ∧ entry.text = text ∧
    ∀ other ∈ before, directory.resolve other.path ≠ directory.resolve wanted

end

section

variable {directory wanted : Path}

theorem not_lastWritten_nil (text : String) : ¬ LastWritten directory wanted [] text := by
  intro written
  obtain ⟨before, change, later, empty, -⟩ := written
  simp at empty

theorem lastWritten_concat (changes : List Change) (change : Change) (text : String) :
    LastWritten directory wanted (changes ++ [change]) text ↔
      change.Writes directory wanted text ∨
        LastWritten directory wanted changes text ∧ ¬ change.Removes directory wanted ∧
          ∀ another, ¬ change.Writes directory wanted another := by
  constructor
  · intro last
    obtain ⟨before, written, later, whole, writes, spared⟩ := last
    rcases List.eq_nil_or_concat later with rfl | ⟨front, last, rfl⟩
    · obtain ⟨-, rfl⟩ := List.append_singleton_inj.mp whole
      exact .inl writes
    · rw [List.concat_eq_append, ← List.cons_append, ← List.append_assoc] at whole
      obtain ⟨rfl, rfl⟩ := List.append_singleton_inj.mp whole
      rw [List.concat_eq_append, List.forall_mem_append] at spared
      exact .inr ⟨⟨before, written, front, rfl, writes, spared.1⟩,
        spared.2 change List.mem_cons_self⟩
  · rintro (writes | ⟨⟨before, written, later, rfl, writes, spared⟩, last⟩)
    · exact ⟨changes, change, [], rfl, writes, nofun⟩
    · refine ⟨before, written, later ++ [change], by simp, writes, ?_⟩
      rw [List.forall_mem_append, List.forall_mem_singleton]
      exact ⟨spared, last⟩

/-! Reading. -/

theorem read?_ofEntries (absolute : directory.isAbsolute) (entries : List Entry) (text : String) :
    (ofEntries directory entries).read? wanted = some text ↔
      FirstEntry directory wanted entries text := by
  have placed := Path.resolve_same_resolve_iff absolute
  have found : (ofEntries directory entries).read? wanted = (entries.find? fun entry =>
      directory.resolve entry.path = directory.resolve wanted).map (·.text) := by
    simp only [read?, find?, ofEntries, locate, List.find?_map, Option.map_map, Function.comp_def,
      placed]
  rw [found, Option.map_eq_some_iff]
  constructor
  · intro kept
    obtain ⟨entry, first, same⟩ := kept
    obtain ⟨here, before, later, whole, others⟩ := List.find?_eq_some_iff_append.mp first
    exact ⟨before, entry, later, whole, by simpa using here, same, by simpa using others⟩
  · intro first
    obtain ⟨before, entry, later, whole, here, same, others⟩ := first
    refine ⟨entry, List.find?_eq_some_iff_append.mpr ?_, same⟩
    exact ⟨by simpa using here, before, later, whole, by simpa using others⟩

theorem read?_removeTemporary (memory : Memory) (folder path : Path) :
    (memory.removeTemporary folder).read? path =
      if (memory.locate path).startsWith (memory.locate folder) then none
      else memory.read? path := by
  have located : ∀ other, (memory.removeTemporary folder).locate other = memory.locate other :=
    fun _ => rfl
  have left : (memory.removeTemporary folder).entries =
      memory.entries.filter fun entry => !entry.path.startsWith (memory.locate folder) := rfl
  simp only [read?, find?, located, left, List.find?_filter]
  split
  · rename_i inside
    rw [Option.map_eq_none_iff, List.find?_eq_none]
    intro entry _ kept
    simp only [decide_eq_true_eq, Bool.not_eq_true'] at kept
    rw [Path.startsWith_congr kept.2, inside] at kept
    exact absurd kept.1 (by decide)
  · rename_i outside
    have kept : ∀ entry : Entry, (!entry.path.startsWith (memory.locate folder)) = true ∧
        entry.path.Same (memory.locate path) ↔ entry.path.Same (memory.locate path) := by
      intro entry
      constructor
      · exact And.right
      · intro same
        rw [Path.startsWith_congr same]
        exact ⟨by simpa using outside, same⟩
    simp only [decide_eq_true_eq, kept]

/-- What a place reads as after one change. -/
theorem read?_apply {memory : Memory} (here : memory.directory = directory)
    (absolute : directory.isAbsolute) (change : Change) (text : String) :
    (memory.apply change).read? wanted = some text ↔
      change.Writes directory wanted text ∨
        memory.read? wanted = some text ∧ ¬ change.Removes directory wanted ∧
          ∀ another, ¬ change.Writes directory wanted another := by
  cases change with
  | write path written =>
      have placed := Path.resolve_same_resolve_iff absolute path wanted
      simp only [apply, read?_write, locate, here, placed, Change.Writes, Change.Removes]
      by_cases same : directory.resolve path = directory.resolve wanted <;> simp [same]
  | makeTemporary =>
      have same : (memory.apply .makeTemporary).read? wanted = memory.read? wanted := rfl
      simp [same, Change.Writes, Change.Removes]
  | removeTemporary folder =>
      simp only [apply, read?_removeTemporary, locate, here, Change.Writes, Change.Removes,
        Path.startsWith, List.isPrefixOf_iff_prefix]
      split <;> simp [*]

theorem read?_after (absolute : directory.isAbsolute) (entries : List Entry)
    (changes : List Change) (text : String) :
    ((ofEntries directory entries).after changes).read? wanted = some text ↔
      LastWritten directory wanted changes text ∨
        (∀ another, ¬ LastWritten directory wanted changes another) ∧
          FirstEntry directory wanted entries text ∧
          ∀ change ∈ changes, ¬ change.Removes directory wanted := by
  induction changes using List.reverseRecOn generalizing text with
  | nil => simp [not_lastWritten_nil, after, read?_ofEntries absolute]
  | append_singleton changes change ih =>
      have reachable : Reachable directory ((ofEntries directory entries).after changes) :=
        (Reachable.ofEntries entries).after changes
      rw [after_concat, read?_apply reachable.directory_eq absolute, ih]
      simp only [lastWritten_concat, List.forall_mem_append, List.forall_mem_singleton]
      -- The last change settles the place by itself, or leaves all that was there before.
      grind

theorem holds_iff (memory : Memory) (path : Path) :
    memory.holds path ↔ ∃ text, memory.read? path = some text := by
  have found : memory.holds path = (memory.find? path).isSome := by
    rw [holds, find?, Bool.eq_iff_iff, List.any_eq_true, List.find?_isSome]
  rw [found, Option.isSome_iff_exists]
  simp [read?]

end

/-! Listings. -/

theorem Reachable.canonical {directory : Path} (absolute : directory.isAbsolute) {memory : Memory}
    (reachable : Reachable directory memory) :
    ∀ entry ∈ memory.entries, entry.path.Canonical := by
  induction reachable with
  | ofEntries entries =>
      exact List.forall_mem_map.mpr fun entry _ => Path.canonical_resolve absolute entry.path
  | @write memory reachable path text ih =>
      intro entry found
      rcases mem_writeEntry found with here | ⟨old, inside, here⟩
      · rw [here, locate, reachable.directory_eq]
        exact Path.canonical_resolve absolute path
      · rw [here]
        exact ih old inside
  | makeTemporary _ ih => exact ih
  | removeTemporary _ _ ih =>
      intro entry found
      exact ih entry (List.mem_filter.mp found).1

/-- A listing has the places in a store that its filter admits. -/
theorem mem_list_iff {memory : Memory} (canonical : ∀ entry ∈ memory.entries, entry.path.Canonical)
    (root : Path) (selection : Selection) {path : Path} (pathCanonical : path.Canonical) :
    path ∈ memory.list root selection ↔ memory.holds path ∧
      (FileFilter.make (memory.locate root) selection true).admits path := by
  have located := locate_same pathCanonical.settled memory
  constructor
  · intro listed
    obtain ⟨⟨entry, found, rfl⟩, admitted⟩ := mem_list listed
    refine ⟨?_, admitted⟩
    exact List.any_eq_true.mpr ⟨entry, found, decide_eq_true located.symm⟩
  · intro both
    obtain ⟨held, admitted⟩ := both
    obtain ⟨entry, found, same⟩ := List.any_eq_true.mp held
    have equal : entry.path = path :=
      (canonical entry found).eq_of_same pathCanonical ((of_decide_eq_true same).trans located)
    have kept : path ∈ ((memory.entries.map (·.path)).filter
        (FileFilter.make (memory.locate root) selection true).admits).mergeSort Path.le := by
      rw [List.mem_mergeSort, List.mem_filter]
      exact ⟨List.mem_map.mpr ⟨entry, found, equal⟩, admitted⟩
    obtain ⟨other, listed, otherSame⟩ := Path.exists_mem_distinct kept
    obtain ⟨⟨former, inside, rfl⟩, -⟩ := mem_list listed
    rwa [pathCanonical.eq_of_same (canonical former inside) otherSame]

/-! Temporary directories. -/

/-- The directories that a store hands out during some changes. -/
def handedOut (memory : Memory) : List Change → List Path
  | [] => []
  | .makeTemporary :: rest => memory.makeTemporary.1 :: memory.makeTemporary.2.handedOut rest
  | change :: rest => (memory.apply change).handedOut rest

theorem handedOut_eq (memory : Memory) (changes : List Change) :
    memory.handedOut changes =
      (List.range' memory.nextTemporary (changes.count .makeTemporary)).map temporaryPath := by
  induction changes generalizing memory with
  | nil => rfl
  | cons change rest ih =>
      cases change with
      | makeTemporary =>
          rw [handedOut, ih, List.count_cons_self, List.range'_succ]
          rfl
      | write path text =>
          change (memory.write path text).handedOut rest = _
          rw [ih, List.count_cons_of_ne (by simp)]
          rfl
      | removeTemporary folder =>
          change (memory.removeTemporary folder).handedOut rest = _
          rw [ih, List.count_cons_of_ne (by simp)]
          rfl

theorem pairwise_handedOut (memory : Memory) (changes : List Change) :
    (memory.handedOut changes).Pairwise fun earlier later => ¬ earlier.Same later := by
  rw [handedOut_eq, List.pairwise_map]
  have indices : (List.range' memory.nextTemporary (changes.count .makeTemporary)).Nodup :=
    List.nodup_range' 1
  exact indices.imp fun other same => other (eq_of_same_temporaryPath same)

/-! The map. -/

/-- Whether a store answers as the map from places to texts that some changes made of some
entries. -/
structure IsMap (directory : Path) (entries : List Entry) (changes : List Change)
    (memory : Memory) : Prop where
  reads : ∀ path text, memory.read? path = some text ↔
    LastWritten directory path changes text ∨
      (∀ another, ¬ LastWritten directory path changes another) ∧
        FirstEntry directory path entries text ∧
        ∀ change ∈ changes, ¬ change.Removes directory path
  holds : ∀ path, memory.holds path ↔ ∃ text, memory.read? path = some text
  ascends : ∀ root selection,
    (memory.list root selection).Pairwise fun earlier later => earlier.key < later.key
  lists : ∀ root selection path, path ∈ memory.list root selection ↔
    directory.resolve path = path ∧ memory.holds path ∧
      (FileFilter.make (directory.resolve root) selection true).admits? path = some true
  decides : ∀ root selection path, directory.resolve path = path →
    ∃ answer,
      (FileFilter.make (directory.resolve root) selection true).admits? path = some answer

theorem isMap_after {directory : Path} (absolute : directory.isAbsolute) (entries : List Entry)
    (changes : List Change) :
    IsMap directory entries changes ((ofEntries directory entries).after changes) ∧
      ((ofEntries directory entries).handedOut changes).Pairwise
        fun earlier later => ¬ earlier.Same later := by
  have reachable : Reachable directory ((ofEntries directory entries).after changes) :=
    (Reachable.ofEntries entries).after changes
  have located := reachable.directory_eq
  have canonical := reachable.canonical absolute
  refine ⟨?_, pairwise_handedOut _ changes⟩
  constructor
  case reads =>
    intro path text
    exact read?_after absolute entries changes text
  case holds => exact holds_iff _
  case ascends =>
    intro root selection
    exact Path.pairwise_distinct_sorted _
  case lists =>
    intro root selection path
    rw [Path.resolve_eq_self_iff absolute]
    constructor
    · intro listed
      obtain ⟨⟨entry, found, rfl⟩, -⟩ := mem_list listed
      have pathCanonical := canonical entry found
      rw [mem_list_iff canonical root selection pathCanonical, locate, located] at listed
      exact ⟨pathCanonical, listed.1, beq_iff_eq.mp listed.2⟩
    · intro present
      obtain ⟨pathCanonical, held, admitted⟩ := present
      rw [mem_list_iff canonical root selection pathCanonical, locate, located]
      exact ⟨held, beq_iff_eq.mpr admitted⟩
  case decides =>
    intro root selection path fixed
    have pathCanonical := (Path.resolve_eq_self_iff absolute path).mp fixed
    exact FileFilter.exists_admits? (Path.canonical_resolve absolute root) selection true
      pathCanonical

/-- Entries of which two are at one place. -/
def crowded : List Entry :=
  [⟨⟨"./a"⟩, "first"⟩, ⟨⟨"/r//a"⟩, "second"⟩]

/-- Changes that remove one of two folders with names that begin alike. -/
def swept : List Change :=
  [.makeTemporary, .write ⟨"/t/1/a"⟩ "near", .write ⟨"/t/10/a"⟩ "far", .removeTemporary ⟨"/t/./1"⟩,
    .makeTemporary]

theorem isMap_after_swept :
    let directory : Path := ⟨"/r/s/.."⟩
    let memory := (ofEntries directory crowded).after swept
    directory.isAbsolute ∧
      (IsMap directory crowded swept memory ∧
        ((ofEntries directory crowded).handedOut swept).Pairwise
          fun earlier later => ¬ earlier.Same later) ∧
      memory.read? ⟨"a"⟩ = some "first" ∧ memory.read? ⟨"/t/1/a"⟩ = none ∧
      memory.read? ⟨"/t/10/a"⟩ = some "far" :=
  ⟨by decide, isMap_after (by decide) crowded swept, by decide +kernel, by decide +kernel,
    by decide +kernel⟩

end Memory

end ShadowCheck
