import ShadowCheck.Proofs.Filter.Below
import ShadowCheck.Proofs.Path.Names
import ShadowCheck.Store.Memory

/-!
Stores in memory that were made by their own operations. Such a store keeps its
texts under settled paths, so a settled path means the same to every operation;
a text that is overwritten in place leaves all listings as they were.
-/

namespace ShadowCheck

namespace Memory

/-- The stores that come about in a directory. -/
inductive Reachable (directory : Path) : Memory → Prop
  | ofEntries (entries : List Entry) : Reachable directory (ofEntries directory entries)
  | write {memory : Memory} (reachable : Reachable directory memory) (path : Path)
      (text : String) : Reachable directory (memory.write path text)
  | makeTemporary {memory : Memory} (reachable : Reachable directory memory) :
      Reachable directory memory.makeTemporary.2
  | removeTemporary {memory : Memory} (reachable : Reachable directory memory) (path : Path) :
      Reachable directory (memory.removeTemporary path)

/-- Whether every text of a store is kept under a settled path. -/
structure Sound (memory : Memory) : Prop where
  directory : memory.directory.isAbsolute
  entries : ∀ entry ∈ memory.entries, entry.path.Settled

theorem mem_writeEntry {path : Path} {text : String} {entries : List Entry} {entry : Entry}
    (found : entry ∈ writeEntry path text entries) :
    entry.path = path ∨ ∃ old ∈ entries, entry.path = old.path := by
  fun_induction writeEntry path text entries with
  | case1 =>
      rw [List.mem_singleton.mp found]
      exact .inl rfl
  | case2 old rest same =>
      rcases List.mem_cons.mp found with rfl | later
      · exact .inr ⟨old, List.mem_cons_self, rfl⟩
      · exact .inr ⟨entry, List.mem_cons_of_mem old later, rfl⟩
  | case3 old rest other ih =>
      rcases List.mem_cons.mp found with rfl | later
      · exact .inr ⟨entry, List.mem_cons_self, rfl⟩
      · rcases ih later with here | ⟨former, inside, here⟩
        · exact .inl here
        · exact .inr ⟨former, List.mem_cons_of_mem old inside, here⟩

theorem Sound.settled_locate {memory : Memory} (sound : memory.Sound) (path : Path) :
    (memory.locate path).Settled :=
  Path.settled_resolve sound.directory path

theorem sound_ofEntries {directory : Path} (absolute : directory.isAbsolute)
    (entries : List Entry) : (ofEntries directory entries).Sound where
  directory := absolute
  entries := List.forall_mem_map.mpr fun entry _ => Path.settled_resolve absolute entry.path

theorem Sound.write {memory : Memory} (sound : memory.Sound) (path : Path) (text : String) :
    (memory.write path text).Sound where
  directory := sound.directory
  entries entry found := by
    rcases mem_writeEntry found with here | ⟨old, inside, here⟩
    · rw [here]
      exact sound.settled_locate path
    · rw [here]
      exact sound.entries old inside

theorem Sound.makeTemporary {memory : Memory} (sound : memory.Sound) :
    memory.makeTemporary.2.Sound :=
  ⟨sound.directory, sound.entries⟩

theorem Sound.removeTemporary {memory : Memory} (sound : memory.Sound) (path : Path) :
    (memory.removeTemporary path).Sound where
  directory := sound.directory
  entries entry found := sound.entries entry (List.mem_filter.mp found).1

theorem Reachable.sound {directory : Path} (absolute : directory.isAbsolute) {memory : Memory}
    (reachable : Reachable directory memory) : memory.Sound := by
  induction reachable with
  | ofEntries entries => exact sound_ofEntries absolute entries
  | write _ path text ih => exact ih.write path text
  | makeTemporary _ ih => exact ih.makeTemporary
  | removeTemporary _ path ih => exact ih.removeTemporary path

/-! Reading and writing. -/

theorem locate_same {path : Path} (settled : path.Settled) (memory : Memory) :
    (memory.locate path).Same path :=
  Path.resolve_same settled memory.directory

theorem read?_congr (memory : Memory) {left right : Path}
    (same : (memory.locate left).Same (memory.locate right)) :
    memory.read? left = memory.read? right := by
  have located : ∀ entry : Entry, entry.path.Same (memory.locate left) ↔
      entry.path.Same (memory.locate right) :=
    fun entry => ⟨fun here => here.trans same, fun here => here.trans same.symm⟩
  simp only [read?, find?, located]

theorem read?_same (memory : Memory) {left right : Path} (same : left.Same right)
    (settled : right.Settled) : memory.read? left = memory.read? right := by
  have leftSettled := settled.congr same.symm
  exact memory.read?_congr
    ((locate_same leftSettled memory).trans (same.trans (locate_same settled memory).symm))

/-- On settled paths a write changes what one path reads as, in all its spellings. -/
theorem read?_write_of_settled (memory : Memory) {path wanted : Path} (settled : path.Settled)
    (wantedSettled : wanted.Settled) (text : String) :
    (memory.write path text).read? wanted =
      if path.Same wanted then some text else memory.read? wanted := by
  have located : (memory.locate path).Same (memory.locate wanted) ↔ path.Same wanted := by
    have here := locate_same settled memory
    have there := locate_same wantedSettled memory
    exact ⟨fun same => here.symm.trans (same.trans there),
      fun same => here.trans (same.trans there.symm)⟩
  rw [read?_write]
  simp only [located]

/-! Listings. -/

theorem list_congr {left right : Memory} (directory : left.directory = right.directory)
    (paths : left.entries.map (·.path) = right.entries.map (·.path)) (root : Path)
    (selection : Selection) : left.list root selection = right.list root selection := by
  simp only [list, locate, directory, paths]

theorem Sound.exists_read?_of_mem {memory : Memory} (sound : memory.Sound) {entry : Entry}
    (found : entry ∈ memory.entries) : ∃ text, memory.read? entry.path = some text := by
  have same := locate_same (sound.entries entry found) memory
  have some? : (memory.find? entry.path).isSome := by
    rw [find?, List.find?_isSome]
    exact ⟨entry, found, decide_eq_true same.symm⟩
  obtain ⟨other, read⟩ := Option.isSome_iff_exists.mp some?
  exact ⟨other.text, by rw [read?, read]; rfl⟩

theorem mem_list {memory : Memory} {root path : Path} {selection : Selection}
    (listed : path ∈ memory.list root selection) :
    (∃ entry ∈ memory.entries, entry.path = path) ∧
      (FileFilter.make (memory.locate root) selection true).admits path := by
  have kept := (List.mergeSort_perm _ _).mem_iff.mp (Path.mem_of_mem_distinct listed)
  obtain ⟨inside, admitted⟩ := List.mem_filter.mp kept
  exact ⟨List.mem_map.mp inside, admitted⟩

theorem Sound.of_mem_list {memory : Memory} (sound : memory.Sound) {root : Path}
    {selection : Selection} {path : Path} (listed : path ∈ memory.list root selection) :
    path.Settled ∧ ∃ text, memory.read? path = some text := by
  obtain ⟨⟨entry, found, rfl⟩, -⟩ := mem_list listed
  exact ⟨sound.entries entry found, sound.exists_read?_of_mem found⟩

/-- What is listed lies below the place that it is listed for. -/
theorem exists_below_of_mem_list {memory : Memory} {root path : Path} {selection : Selection}
    (listed : path ∈ memory.list root selection) :
    ∃ rest, rest ≠ [] ∧ path.components = (memory.locate root).components ++ rest := by
  obtain ⟨-, admitted⟩ := mem_list listed
  have allowed : (FileFilter.make (memory.locate root) selection true).allowsPlace path := by
    apply Bool.of_not_eq_false
    intro refused
    simp [FileFilter.admits, FileFilter.admits?, refused] at admitted
  have below := FileFilter.exists_of_allowsPlace allowed
  rwa [FileFilter.root_make] at below

/-! Overwriting in place. -/

theorem map_path_writeEntry {path : Path} (text : String) {entries : List Entry}
    (present : ∃ entry ∈ entries, entry.path.Same path) :
    (writeEntry path text entries).map (·.path) = entries.map (·.path) := by
  fun_induction writeEntry path text entries with
  | case1 =>
      obtain ⟨entry, found, -⟩ := present
      cases found
  | case2 entry rest same => rfl
  | case3 entry rest other ih =>
      obtain ⟨old, found, same⟩ := present
      rcases List.mem_cons.mp found with rfl | later
      · exact absurd same other
      · rw [List.map_cons, List.map_cons, ih ⟨old, later, same⟩]

theorem map_path_write {memory : Memory} {path : Path} {old : String}
    (present : memory.read? path = some old) (text : String) :
    (memory.write path text).entries.map (·.path) = memory.entries.map (·.path) := by
  obtain ⟨entry, found, -⟩ := Option.map_eq_some_iff.mp present
  unfold find? at found
  have same := List.find?_some found
  exact map_path_writeEntry text
    ⟨entry, List.mem_of_find?_eq_some found, of_decide_eq_true same⟩

/-! Temporary directories. -/

theorem slash_not_mem_toString (index : Nat) : '/' ∉ (toString index).toList := by
  intro found
  have digits : (toString index).toList = Nat.toDigits 10 index := Nat.toList_repr
  rw [digits] at found
  have isDigit := Nat.isDigit_of_mem_toDigits (by decide) (by decide) found
  exact absurd isDigit (by decide)

theorem proper_temporaryName (index : Nat) : (Component.name (temporaryName index)).Proper := by
  have text : (temporaryName index).toList =
      "recheck-shadow-".toList ++ (toString index).toList := String.toList_append
  have length := congrArg List.length text
  rw [List.length_append] at length
  have long : ("recheck-shadow-".toList).length = 15 := by decide
  apply Path.proper_bytesOf
  · omega
  · intro parent
    rw [parent, long] at length
    simp only [List.length_cons, List.length_nil] at length
    omega
  · rw [text, List.mem_append, not_or]
    exact ⟨by decide, slash_not_mem_toString index⟩

theorem components_temporaryPath (index : Nat) :
    (temporaryPath index).components = [.root, .name "tmp", .name (temporaryName index)] := by
  have components : (⟨"/tmp"⟩ : Path).components = [.root, .name "tmp"] := by decide
  have joined := Path.components_join_proper ⟨"/tmp"⟩ (proper_temporaryName index)
  rw [components] at joined
  rw [temporaryPath]
  exact joined

theorem settled_temporaryPath (index : Nat) : (temporaryPath index).Settled :=
  ⟨_, components_temporaryPath index, by simp [Component.isName]⟩

theorem eq_of_toString_eq {first second : Nat} (same : toString first = toString second) :
    first = second := by
  have digits : Nat.toDigits 10 first = Nat.toDigits 10 second := by
    rw [← Nat.toList_repr, ← Nat.toList_repr]
    exact congrArg String.toList same
  rw [← Nat.ofDigitChars_ten_toDigits (n := first), digits, Nat.ofDigitChars_ten_toDigits]

theorem eq_of_same_temporaryPath {first second : Nat}
    (same : (temporaryPath first).Same (temporaryPath second)) : first = second := by
  unfold Path.Same at same
  rw [components_temporaryPath, components_temporaryPath] at same
  injection same with _ rest
  injection rest with _ last
  injection last with name
  injection name with bytes
  have text := String.toList_inj.mp (Bytes.bytesOf_injective bytes)
  exact eq_of_toString_eq ((String.append_right_inj _).mp text)

theorem Reachable.exists_lt_of_mem_temporaries {directory : Path} {memory : Memory}
    (reachable : Reachable directory memory) {path : Path} (found : path ∈ memory.temporaries) :
    ∃ index < memory.nextTemporary, path = temporaryPath index := by
  induction reachable with
  | ofEntries entries => cases found
  | write _ _ _ ih => exact ih found
  | makeTemporary _ ih =>
      rcases List.mem_append.mp found with before | last
      · obtain ⟨index, below, same⟩ := ih before
        exact ⟨index, Nat.lt_succ_of_lt below, same⟩
      · exact ⟨_, Nat.lt_succ_self _, List.mem_singleton.mp last⟩
  | removeTemporary _ _ ih => exact ih (List.mem_filter.mp found).1

/-- A directory that is handed out is none of those that still are. -/
theorem Reachable.not_same_makeTemporary {directory : Path} {memory : Memory}
    (reachable : Reachable directory memory) {path : Path} (found : path ∈ memory.temporaries) :
    ¬ path.Same memory.makeTemporary.1 := by
  obtain ⟨index, below, rfl⟩ := reachable.exists_lt_of_mem_temporaries found
  intro same
  have again : index = memory.nextTemporary := eq_of_same_temporaryPath same
  omega

/-! Actions. -/

/-- What an action on a store gives, and the store that it leaves. -/
def run (memory : Memory) (action : StateM Memory α) : α × Memory :=
  (StateT.run action memory).run

@[simp] theorem run_bind (memory : Memory) (action : StateM Memory α)
    (next : α → StateM Memory β) :
    memory.run (action >>= next) =
      (memory.run action).2.run (next (memory.run action).1) := rfl

@[simp] theorem run_read (memory : Memory) (path : Path) :
    memory.run (fileSystem.read path) = (memory.read? path, memory) := rfl

@[simp] theorem run_list (memory : Memory) (root : Path) (selection : Selection) :
    memory.run (fileSystem.list root selection) = (memory.list root selection, memory) := rfl

@[simp] theorem run_makeTemporary (memory : Memory) :
    memory.run fileSystem.makeTemporary =
      (.ok memory.makeTemporary.1, memory.makeTemporary.2) := rfl

end Memory

end ShadowCheck
