import ShadowCheck.Proofs.Path.Order

/-!
Where paths lead. A name goes down, `..` goes up and stays at the root, and an absolute
path starts over. The normal form of a path leads where the path does, from every
directory, and no other normal form does.
-/

namespace ShadowCheck

/-- A directory or file by the names that lead to it from the root, the last one first. -/
abbrev Folder := List Bytes

/-- Where one component leads. -/
def Component.enter (folder : Folder) : Component → Folder
  | root => []
  | current => folder
  | parent => folder.tail
  | name text => text :: folder

def Folder.components (folder : Folder) : List Component :=
  .root :: folder.reverse.map .name

theorem Folder.components_injective : Function.Injective Folder.components := by
  intro left right same
  have names_injective : Function.Injective Component.name := fun _ _ => Component.name.inj
  exact List.reverse_injective (List.map_injective_iff.mpr names_injective
    (List.tail_eq_of_cons_eq same))

namespace Path

def walk (path : Path) (start : Folder) : Folder :=
  path.components.foldl Component.enter start

/-- Where an absolute path leads. -/
def folder (path : Path) : Folder :=
  path.walk []

/-- Whether two paths lead to the same folder, whatever directory they are seen from. -/
def LeadsAs (left right : Path) : Prop :=
  ∀ base : Path, base.isAbsolute → left.walk base.folder = right.walk base.folder

/-! Where lists of components lead. -/

theorem foldl_enter_names (names : List Bytes) (folder : Folder) :
    (names.map Component.name).foldl Component.enter folder = names.reverse ++ folder := by
  induction names generalizing folder with
  | nil => rfl
  | cons name rest ih =>
      rw [List.map_cons, List.foldl_cons, ih, List.reverse_cons, List.append_assoc]
      rfl

theorem foldl_enter_parents (ups : Nat) (folder : Folder) :
    (List.replicate ups Component.parent).foldl Component.enter folder = folder.drop ups := by
  induction ups generalizing folder with
  | zero => rfl
  | succ ups ih =>
      rw [List.replicate_succ, List.foldl_cons, ih]
      exact List.drop_tail

theorem foldl_enter_absolute (names : List Bytes) (folder : Folder) :
    (.root :: names.map Component.name).foldl Component.enter folder = names.reverse := by
  rw [List.foldl_cons, foldl_enter_names]
  exact List.append_nil _

theorem foldl_enter_relative (ups : Nat) (names : List Bytes) (folder : Folder) :
    (List.replicate ups .parent ++ names.map .name : List Component).foldl Component.enter folder =
      names.reverse ++ folder.drop ups := by
  rw [List.foldl_append, foldl_enter_parents, foldl_enter_names]

/-- Folding a component into a stack leads where the component itself leads. -/
theorem foldr_enter_follow (stack : List Component) (component : Component) (folder : Folder) :
    (Component.follow stack component).foldr (fun part folder => part.enter folder) folder =
      component.enter (stack.foldr (fun part folder => part.enter folder) folder) := by
  unfold Component.follow
  split <;> rfl

theorem foldr_enter_foldl_follow (components stack : List Component) (folder : Folder) :
    (components.foldl Component.follow stack).foldr (fun part folder => part.enter folder)
      folder =
      components.foldl Component.enter
        (stack.foldr (fun part folder => part.enter folder) folder) := by
  induction components generalizing stack with
  | nil => rfl
  | cons component rest ih => rw [List.foldl_cons, List.foldl_cons, ih, foldr_enter_follow]

theorem foldl_enter_normalComponents (path : Path) (folder : Folder) :
    path.normalComponents.foldl Component.enter folder = path.walk folder := by
  rw [normalComponents, List.foldl_reverse, foldr_enter_foldl_follow]
  rfl

/-! Normal forms. -/

/-- Directories of one name, one below the other, to look at paths from. -/
def stair (depth : Nat) : Folder :=
  List.replicate depth "a"

theorem foldl_enter_relative_stair (ups : Nat) (names : List Bytes) (depth : Nat) :
    (List.replicate ups .parent ++ names.map .name : List Component).foldl Component.enter
      (stair depth) = names.reverse ++ stair (depth - ups) := by
  rw [foldl_enter_relative, stair, List.drop_replicate]
  rfl

/-- An absolute normal form forgets where it starts, a relative one that starts deep enough
does not. -/
theorem not_forall_enter_stair_eq (names others : List Bytes) (ups : Nat) :
    ¬ ∀ depth, (.root :: names.map Component.name).foldl Component.enter (stair depth) =
      (List.replicate ups .parent ++ others.map .name : List Component).foldl Component.enter
        (stair depth) := by
  intro same
  simp only [foldl_enter_absolute, foldl_enter_relative_stair] at same
  have short := congrArg List.length (same ups)
  have long := congrArg List.length (same (ups + 1))
  simp only [List.length_append, List.length_reverse, stair, List.length_replicate] at short long
  omega

/-- Normal forms that lead to the same places are one. -/
theorem IsNormal.eq_of_enter_stair_eq {leftAbsolute rightAbsolute : Bool}
    {left right : List Component} (leftNormal : IsNormal leftAbsolute left)
    (rightNormal : IsNormal rightAbsolute right)
    (same : ∀ depth, left.foldl Component.enter (stair depth) =
      right.foldl Component.enter (stair depth)) : left = right := by
  cases leftNormal with
  | absolute names =>
      cases rightNormal with
      | absolute others =>
          have fromRoot := same 0
          rw [foldl_enter_absolute, foldl_enter_absolute, List.reverse_inj] at fromRoot
          rw [fromRoot]
      | relative ups others => exact absurd same (not_forall_enter_stair_eq names others ups)
  | relative ups names =>
      cases rightNormal with
      | absolute others =>
          exact absurd (fun depth => (same depth).symm) (not_forall_enter_stair_eq others names ups)
      | relative otherUps others =>
          simp only [foldl_enter_relative_stair] at same
          -- at the root no step up shows, so the names are the same
          have fromRoot := same 0
          simp only [Nat.zero_sub, List.append_cancel_right_eq, List.reverse_inj] at fromRoot
          -- from deep enough below, each step up shortens what is left
          have deep := congrArg List.length (same (max ups otherUps))
          simp only [List.length_append, List.length_reverse, stair, List.length_replicate,
            fromRoot] at deep
          have steps : ups = otherUps := by omega
          rw [fromRoot, steps]

theorem walk_normalize (path : Path) (start : Folder) :
    path.normalize.walk start = path.walk start := by
  rw [walk, components_normalize, foldl_enter_normalComponents]

/-! Bases. -/

theorem exists_folder_eq_stair (depth : Nat) :
    ∃ base : Path, base.isAbsolute ∧ base.folder = stair depth := by
  have proper : ∀ name ∈ List.replicate depth (Component.name "a"), name.Proper := by
    intro name found
    rw [List.eq_of_mem_replicate found]
    exact ⟨by decide, by decide⟩
  have spelled := components_ofComponents_root proper
  refine ⟨_, isAbsolute_of_components spelled, ?_⟩
  rw [folder, walk, spelled, ← List.map_replicate, foldl_enter_absolute, List.reverse_replicate]
  rfl

theorem normalComponents_eq_iff (left right : Path) :
    left.normalComponents = right.normalComponents ↔ left.LeadsAs right := by
  constructor
  · intro same base _
    rw [← foldl_enter_normalComponents, same, foldl_enter_normalComponents]
  · intro leads
    apply (isNormal_normalComponents left).eq_of_enter_stair_eq (isNormal_normalComponents right)
    intro depth
    obtain ⟨base, absolute, here⟩ := exists_folder_eq_stair depth
    rw [← here, foldl_enter_normalComponents, foldl_enter_normalComponents, leads base absolute]

theorem normalize_eq_iff_normalComponents (left right : Path) :
    left.normalize = right.normalize ↔ left.normalComponents = right.normalComponents := by
  constructor
  · intro same
    rw [← components_normalize, same, components_normalize]
  · intro same
    rw [normalize, same, normalize]

theorem normalize_same_iff_normalComponents (left right : Path) :
    left.normalize.Same right.normalize ↔ left.normalComponents = right.normalComponents := by
  rw [Same, components_normalize, components_normalize]

theorem normalize_normalize (path : Path) : path.normalize.normalize = path.normalize := by
  rw [normalize_eq_iff_normalComponents, normalComponents_eq_iff]
  intro base _
  exact walk_normalize path base.folder

/-! Resolution. -/

/-- An absolute path leads to its folder from everywhere. -/
theorem walk_of_isAbsolute {path : Path} (absolute : path.isAbsolute) (start : Folder) :
    path.walk start = path.folder := by
  rw [folder, walk, walk, components_of_isAbsolute absolute]
  rfl

theorem walk_of_not_isAbsolute {path : Path} (relative : path.isAbsolute = false)
    (start : Folder) : path.walk start = path.below.foldl Component.enter start := by
  rcases components_of_not_isAbsolute relative with plain | ⟨dotted, -⟩
  · rw [walk, plain]
  · rw [walk, dotted]
    rfl

theorem folder_join {base path : Path} (absolute : base.isAbsolute)
    (relative : path.isAbsolute = false) : (base.join path).folder = path.walk base.folder := by
  rw [folder, walk, components_join absolute relative, List.foldl_append,
    walk_of_not_isAbsolute relative]
  rfl

theorem normalComponents_of_isAbsolute {path : Path} (absolute : path.isAbsolute) :
    path.normalComponents = path.folder.components := by
  obtain ⟨names, normal, areNames⟩ := exists_normalComponents absolute
  obtain ⟨texts, rfl⟩ := exists_map_name fun name found => (areNames name found).1
  have folder : path.folder = texts.reverse := by
    rw [Path.folder, ← foldl_enter_normalComponents, normal, foldl_enter_absolute]
  rw [normal, folder, Folder.components, List.reverse_reverse]

theorem resolve_eq_normalize {base : Path} (absolute : base.isAbsolute) (path : Path) :
    ∃ whole : Path, whole.isAbsolute ∧ whole.folder = path.walk base.folder ∧
      base.resolve path = whole.normalize := by
  unfold resolve
  split
  · rename_i absolutePath
    exact ⟨path, absolutePath, (walk_of_isAbsolute absolutePath _).symm, rfl⟩
  · rename_i relative
    exact ⟨base.join path, isAbsolute_join absolute path,
      folder_join absolute (Bool.eq_false_iff.mpr relative), rfl⟩

/-- A resolved path is the plain spelling of the folder that the path leads to. -/
theorem resolve_eq_ofComponents {base : Path} (absolute : base.isAbsolute) (path : Path) :
    base.resolve path = ofComponents (path.walk base.folder).components := by
  obtain ⟨whole, absoluteWhole, folder, resolved⟩ := resolve_eq_normalize absolute path
  rw [resolved, normalize, normalComponents_of_isAbsolute absoluteWhole, folder]

theorem components_resolve {base : Path} (absolute : base.isAbsolute) (path : Path) :
    (base.resolve path).components = (path.walk base.folder).components := by
  obtain ⟨whole, absoluteWhole, folder, resolved⟩ := resolve_eq_normalize absolute path
  rw [resolved, components_normalize, normalComponents_of_isAbsolute absoluteWhole, folder]

/-- Paths are resolved to one path just when they lead from the base to one folder. -/
theorem resolve_same_resolve_iff_walk {base : Path} (absolute : base.isAbsolute)
    (left right : Path) :
    (base.resolve left).Same (base.resolve right) ↔
      left.walk base.folder = right.walk base.folder := by
  rw [Same, components_resolve absolute, components_resolve absolute]
  exact Folder.components_injective.eq_iff

/-- The normal form of a path: it has its shape, leads where the path leads, and is shared
by just the paths that lead there too. Resolving spells the folder that a path leads to. -/
theorem normalForm_normalize (path : Path) :
    path.normalize.normalize = path.normalize ∧
    IsNormal path.isAbsolute path.normalize.components ∧
    path.normalize.isAbsolute = path.isAbsolute ∧
    (∀ start, path.normalize.walk start = path.walk start) ∧
    (∀ other : Path,
      (path.normalize = other.normalize ↔ path.LeadsAs other) ∧
      (path.normalize.Same other.normalize ↔ path.LeadsAs other)) ∧
    ∀ base : Path, base.isAbsolute →
      (base.resolve path).components = (path.walk base.folder).components ∧
      base.resolve path = ofComponents (path.walk base.folder).components := by
  refine ⟨normalize_normalize path, ?_, isAbsolute_normalize path, walk_normalize path, ?_, ?_⟩
  · rw [components_normalize]
    exact isNormal_normalComponents path
  · intro other
    rw [normalize_eq_iff_normalComponents, normalize_same_iff_normalComponents,
      normalComponents_eq_iff]
    exact ⟨Iff.rfl, Iff.rfl⟩
  · intro base absolute
    exact ⟨components_resolve absolute path, resolve_eq_ofComponents absolute path⟩

/-- A path that climbs above a base which is spelled with detours. -/
theorem normalForm_normalize_climbing :
    (⟨"/r/./s/../t/"⟩ : Path).isAbsolute ∧
    (⟨"/r/./s/../t/"⟩ : Path).resolve ⟨"x/../../b//c/."⟩ = ⟨"/r/b/c"⟩ := by
  have absolute : (⟨"/r/./s/../t/"⟩ : Path).isAbsolute := by decide
  obtain ⟨-, -, -, -, -, resolves⟩ := normalForm_normalize ⟨"x/../../b//c/."⟩
  exact ⟨absolute, (resolves _ absolute).2.trans (by decide)⟩

end Path

end ShadowCheck
