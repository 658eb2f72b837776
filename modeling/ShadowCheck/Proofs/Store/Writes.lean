import ShadowCheck.Proofs.Store.Memory

/-!
Many writes, one after another, to a store in memory. A path reads as the text
that was written to it; writes below a folder leave all other entries as they
were, and removing the folder takes back all that they did.
-/

namespace ShadowCheck.Memory

def writeAll (memory : Memory) (writes : List Entry) : Memory :=
  writes.foldl (fun memory entry => memory.write entry.path entry.text) memory

@[simp] theorem writeAll_nil (memory : Memory) : memory.writeAll [] = memory := rfl

@[simp] theorem writeAll_cons (memory : Memory) (entry : Entry) (rest : List Entry) :
    memory.writeAll (entry :: rest) = (memory.write entry.path entry.text).writeAll rest := rfl

theorem writeAll_append (memory : Memory) (first second : List Entry) :
    memory.writeAll (first ++ second) = (memory.writeAll first).writeAll second :=
  List.foldl_append

theorem locate_write (memory : Memory) (path : Path) (text : String) (wanted : Path) :
    (memory.write path text).locate wanted = memory.locate wanted := rfl

theorem locate_writeAll (memory : Memory) (writes : List Entry) (wanted : Path) :
    (memory.writeAll writes).locate wanted = memory.locate wanted := by
  induction writes generalizing memory with
  | nil => rfl
  | cons entry rest ih => rw [writeAll_cons, ih, locate_write]

theorem temporaries_writeAll (memory : Memory) (writes : List Entry) :
    (memory.writeAll writes).temporaries = memory.temporaries := by
  induction writes generalizing memory with
  | nil => rfl
  | cons entry rest ih =>
      rw [writeAll_cons, ih]
      rfl

theorem writes_writeAll (memory : Memory) (writes : List Entry) :
    (memory.writeAll writes).writes =
      memory.writes ++ writes.map fun entry => memory.locate entry.path := by
  induction writes generalizing memory with
  | nil => simp
  | cons entry rest ih =>
      simp only [writeAll_cons, ih, locate_write, List.map_cons]
      exact List.append_assoc _ [memory.locate entry.path] _

/-! Reading. -/

theorem read?_writeAll_of_apart (memory : Memory) {writes : List Entry} {path : Path}
    (apart : ∀ entry ∈ writes, ¬ (memory.locate entry.path).Same (memory.locate path)) :
    (memory.writeAll writes).read? path = memory.read? path := by
  induction writes generalizing memory with
  | nil => rfl
  | cons entry rest ih =>
      obtain ⟨here, others⟩ := List.forall_mem_cons.mp apart
      rw [writeAll_cons, ih (memory.write entry.path entry.text) others, read?_write, if_neg here]

/-- A path that was written to reads as a text if all that was written there is this text. -/
theorem read?_writeAll (memory : Memory) {writes : List Entry} {path : Path} {text : String}
    (found : ∃ entry ∈ writes, (memory.locate entry.path).Same (memory.locate path))
    (agree : ∀ entry ∈ writes, (memory.locate entry.path).Same (memory.locate path) →
      entry.text = text) :
    (memory.writeAll writes).read? path = some text := by
  induction writes generalizing memory with
  | nil =>
      obtain ⟨entry, inside, -⟩ := found
      cases inside
  | cons entry rest ih =>
      obtain ⟨here, others⟩ := List.forall_mem_cons.mp agree
      rw [writeAll_cons]
      by_cases later : ∃ other ∈ rest, (memory.locate other.path).Same (memory.locate path)
      · exact ih (memory.write entry.path entry.text) later others
      · have apart : ∀ other ∈ rest, ¬ (memory.locate other.path).Same (memory.locate path) :=
          fun other inside same => later ⟨other, inside, same⟩
        have same : (memory.locate entry.path).Same (memory.locate path) := by
          obtain ⟨other, inside, same⟩ := found
          rcases List.mem_cons.mp inside with rfl | behind
          · exact same
          · exact absurd same (apart other behind)
        rw [read?_writeAll_of_apart (memory.write entry.path entry.text) apart, read?_write,
          if_pos same, here same]

/-! Folders. -/

/-- Whether a store has some entries and, after them, only entries below a folder. -/
def AddsBelow (folder : Path) (old : List Entry) (memory : Memory) : Prop :=
  ∃ added, memory.entries = old ++ added ∧ ∀ entry ∈ added, entry.path.startsWith folder

theorem addsBelow_self (folder : Path) (memory : Memory) :
    AddsBelow folder memory.entries memory :=
  ⟨[], (List.append_nil _).symm, nofun⟩

theorem writeEntry_append {path : Path} {text : String} {front : List Entry}
    (others : ∀ entry ∈ front, ¬ entry.path.Same path) (rest : List Entry) :
    writeEntry path text (front ++ rest) = front ++ writeEntry path text rest := by
  induction front with
  | nil => rfl
  | cons entry front ih =>
      obtain ⟨here, later⟩ := List.forall_mem_cons.mp others
      rw [List.cons_append, writeEntry, if_neg here, ih later]
      rfl

section

variable {folder : Path} {old : List Entry} {memory : Memory}

theorem AddsBelow.write (adds : AddsBelow folder old memory)
    (outside : ∀ entry ∈ old, ¬ entry.path.startsWith folder) {path : Path}
    (inside : (memory.locate path).startsWith folder) (text : String) :
    AddsBelow folder old (memory.write path text) := by
  obtain ⟨added, entries, below⟩ := adds
  have others : ∀ entry ∈ old, ¬ entry.path.Same (memory.locate path) := by
    intro entry found same
    rw [← Path.startsWith_congr same folder] at inside
    exact outside entry found inside
  refine ⟨writeEntry (memory.locate path) text added, ?_, ?_⟩
  · rw [← writeEntry_append others, ← entries]
    rfl
  · intro entry found
    rcases mem_writeEntry found with here | ⟨former, before, here⟩
    · rw [here]
      exact inside
    · rw [here]
      exact below former before

theorem AddsBelow.writeAll (adds : AddsBelow folder old memory)
    (outside : ∀ entry ∈ old, ¬ entry.path.startsWith folder) {writes : List Entry}
    (inside : ∀ entry ∈ writes, (memory.locate entry.path).startsWith folder) :
    AddsBelow folder old (memory.writeAll writes) := by
  induction writes generalizing memory with
  | nil => exact adds
  | cons entry rest ih =>
      obtain ⟨here, others⟩ := List.forall_mem_cons.mp inside
      exact ih (adds.write outside here entry.text) others

/-- Removing a folder leaves the entries that are not below it. -/
theorem AddsBelow.entries_removeTemporary (adds : AddsBelow folder old memory)
    (outside : ∀ entry ∈ old, ¬ entry.path.startsWith folder) (settled : folder.Settled) :
    (memory.removeTemporary folder).entries = old := by
  obtain ⟨added, entries, below⟩ := adds
  have located : ∀ path : Path, path.startsWith (memory.locate folder) = path.startsWith folder := by
    intro path
    rw [Path.startsWith, Path.startsWith, locate_same settled memory]
  simp only [removeTemporary, located, entries, List.filter_append]
  have kept : old.filter (fun entry => !entry.path.startsWith folder) = old := by
    rw [List.filter_eq_self]
    intro entry found
    simpa using outside entry found
  have gone : added.filter (fun entry => !entry.path.startsWith folder) = [] := by
    rw [List.filter_eq_nil_iff]
    intro entry found
    simpa using below entry found
  rw [kept, gone, List.append_nil]

end

/-- A temporary directory that is removed is forgotten, and no other is. -/
theorem temporaries_removeTemporary {memory : Memory} {others : List Path} {folder : Path}
    (temporaries : memory.temporaries = others ++ [folder])
    (apart : ∀ other ∈ others, ¬ other.Same folder) (settled : folder.Settled) :
    (memory.removeTemporary folder).temporaries = others := by
  have located : ∀ path : Path, path.Same (memory.locate folder) ↔ path.Same folder := by
    intro path
    have same := locate_same settled memory
    exact ⟨fun here => here.trans same, fun here => here.trans same.symm⟩
  simp only [removeTemporary, located, temporaries, List.filter_append]
  have kept : others.filter (fun other => ¬ other.Same folder) = others := by
    rw [List.filter_eq_self]
    intro other found
    exact decide_eq_true (apart other found)
  rw [kept, List.filter_cons_of_neg (by simp [Path.Same.refl]), List.filter_nil, List.append_nil]

end ShadowCheck.Memory
