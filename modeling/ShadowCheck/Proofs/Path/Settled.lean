import ShadowCheck.Proofs.Path.Normal

/-!
Settled paths: absolute and in normal form. Resolving against an absolute base
settles a path and keeps the components of a settled one; the place of a settled
output below a shadow directory is settled, and depends on components alone.
-/

namespace ShadowCheck

namespace Path

def IsSettled (components : List Component) : Prop :=
  ∃ names, components = .root :: names ∧ ∀ name ∈ names, name.isName

/-- Whether a path is absolute and has neither `.` nor `..`. -/
def Settled (path : Path) : Prop :=
  IsSettled path.components

theorem Settled.congr {left right : Path} (settled : left.Settled) (same : left.Same right) :
    right.Settled := by
  unfold Settled
  rw [← same]
  exact settled

theorem Settled.isAbsolute {path : Path} (settled : path.Settled) : path.isAbsolute := by
  obtain ⟨names, found, -⟩ := settled
  exact isAbsolute_of_components found

theorem Settled.proper {path : Path} (settled : path.Settled) {names : List Component}
    (found : path.components = .root :: names) : ∀ name ∈ names, name.Proper := by
  rw [components_of_isAbsolute settled.isAbsolute, List.cons.injEq] at found
  intro name inside
  exact proper_of_mem_below (found.2 ▸ inside)

/-! Normal forms. -/

theorem normalComponents_of_settled {path : Path} (settled : path.Settled) :
    path.normalComponents = path.components := by
  obtain ⟨names, found, areNames⟩ := settled
  rw [normalComponents, found, List.foldl_cons]
  change (names.foldl Component.follow [.root]).reverse = _
  rw [foldl_follow_names areNames]
  simp

theorem settled_normalize {path : Path} (absolute : path.isAbsolute) : path.normalize.Settled := by
  obtain ⟨names, normal, areNames⟩ := exists_normalComponents absolute
  unfold Settled
  rw [components_normalize, normal]
  exact ⟨names, rfl, fun name found => (areNames name found).1⟩

theorem isAbsolute_normalize (path : Path) : path.normalize.isAbsolute = path.isAbsolute := by
  cases absolute : path.isAbsolute with
  | true => exact (settled_normalize absolute).isAbsolute
  | false =>
      rw [Bool.eq_false_iff] at absolute ⊢
      intro normalized
      apply absolute
      apply isAbsolute_of_root_mem
      rw [← components_normalize, components_of_isAbsolute normalized]
      exact List.mem_cons_self

/-! Resolution. -/

theorem settled_resolve {base : Path} (absolute : base.isAbsolute) (path : Path) :
    (base.resolve path).Settled := by
  unfold resolve
  split
  · rename_i absolutePath
    exact settled_normalize absolutePath
  · exact settled_normalize (isAbsolute_join absolute path)

/-- A settled path stays where it is, whatever it is seen from. -/
theorem resolve_same {path : Path} (settled : path.Settled) (base : Path) :
    (base.resolve path).Same path := by
  unfold resolve Same
  rw [if_pos settled.isAbsolute, components_normalize,
    normalComponents_of_settled settled]

/-! Places below a directory. -/

theorem startsWith_iff (path directory : Path) :
    path.startsWith directory ↔ ∃ rest, path.components = directory.components ++ rest := by
  unfold startsWith
  rw [List.isPrefixOf_iff_prefix]
  exact ⟨fun ⟨rest, found⟩ => ⟨rest, found.symm⟩, fun ⟨rest, found⟩ => ⟨rest, found.symm⟩⟩

theorem startsWith_congr {left right : Path} (same : left.Same right) (directory : Path) :
    left.startsWith directory = right.startsWith directory := by
  rw [startsWith, startsWith, same]

theorem Settled.of_append {directory path : Path} (settled : directory.Settled)
    {rest : List Component} (found : path.components = directory.components ++ rest)
    (areNames : ∀ name ∈ rest, name.isName) : path.Settled := by
  obtain ⟨names, components, directoryNames⟩ := settled
  refine ⟨names ++ rest, by rw [found, components]; rfl, ?_⟩
  exact List.forall_mem_append.mpr ⟨directoryNames, areNames⟩

theorem dropFront?_eq_some {front whole rest : List Component}
    (dropped : dropFront? front whole = some rest) : whole = front ++ rest := by
  fun_induction dropFront? front whole with
  | case1 whole => cases dropped; rfl
  | case2 => cases dropped
  | case3 wanted front rest ih => rw [ih dropped]; rfl
  | case4 => cases dropped

theorem dropFront?_append (front rest : List Component) :
    dropFront? front (front ++ rest) = some rest := by
  induction front with
  | nil => rfl
  | cons component front ih => rw [List.cons_append, dropFront?, if_pos rfl, ih]

theorem relativeTo?_eq_some_iff {root path below : Path} :
    relativeTo? root path = some below ↔
      ∃ rest, path.normalComponents = root.normalComponents ++ rest ∧ ofComponents rest = below := by
  rw [relativeTo?, Option.map_eq_some_iff]
  constructor
  · rintro ⟨rest, dropped, spelled⟩
    exact ⟨rest, dropFront?_eq_some dropped, spelled⟩
  · rintro ⟨rest, whole, spelled⟩
    exact ⟨rest, by rw [whole, dropFront?_append], spelled⟩

theorem shadowed_congr (shadow root : Path) {left right : Path} (same : left.Same right) :
    shadowed shadow root left = shadowed shadow root right := by
  have normal : left.normalComponents = right.normalComponents := by
    rw [normalComponents, same, normalComponents]
  unfold shadowed relativeTo?
  rw [normal]

theorem components_foldl_join {names : List Component}
    (proper : ∀ name ∈ names, name.Proper) (base : Path) :
    (names.foldl (fun folder name => folder.join ⟨name.bytes⟩) base).components =
      base.components ++ names := by
  induction names generalizing base with
  | nil => exact (List.append_nil _).symm
  | cons name rest ih =>
      obtain ⟨first, others⟩ := List.forall_mem_cons.mp proper
      rw [List.foldl_cons, ih others, components_join_proper base first, List.append_assoc]
      rfl

theorem proper_external : (Component.name externalDirectory.bytes).Proper :=
  ⟨by decide, by decide⟩

theorem components_join_external (base : Path) :
    (base.join externalDirectory).components =
      base.components ++ [.name externalDirectory.bytes] := by
  have joined := components_join_proper base proper_external
  simp only [Component.bytes] at joined
  exact joined

/-! Places below a shadow directory. -/

theorem names_of_normalComponents_append {root output : Path} (absolute : root.isAbsolute)
    {rest : List Component} (whole : output.normalComponents = root.normalComponents ++ rest) :
    ∀ name ∈ rest, name.isName ∧ name.Proper := by
  obtain ⟨rootNames, rootNormal, -⟩ := exists_normalComponents absolute
  rw [rootNormal, List.cons_append] at whole
  have outputAbsolute : output.isAbsolute := by
    apply isAbsolute_of_root_mem
    rw [whole]
    exact List.mem_cons_self
  obtain ⟨names, normal, areNames⟩ := exists_normalComponents outputAbsolute
  rw [normal, List.cons.injEq] at whole
  intro name found
  apply areNames
  rw [whole.2]
  exact List.mem_append_right rootNames found

/-- An output below the root has its place just so below the shadow directory. -/
theorem components_shadowed_of_append {shadow root output : Path} (absolute : shadow.isAbsolute)
    (rootAbsolute : root.isAbsolute) {rest : List Component}
    (whole : output.normalComponents = root.normalComponents ++ rest) :
    (shadowed shadow root output).components = shadow.components ++ rest := by
  have areNames := names_of_normalComponents_append rootAbsolute whole
  have below : relativeTo? root output = some (ofComponents rest) :=
    relativeTo?_eq_some_iff.mpr ⟨rest, whole, rfl⟩
  rw [shadowed, below]
  exact components_join_ofComponents absolute fun name found => (areNames name found).2

/-- Any other output has its place by its names below the external directory. -/
theorem components_shadowed_of_none (shadow : Path) {root output : Path}
    (outside : relativeTo? root output = none) :
    (shadowed shadow root output).components = (shadow.join externalDirectory).components ++
      output.normalComponents.filter Component.isName := by
  have proper : ∀ name ∈ output.normalComponents.filter Component.isName, name.Proper := by
    intro name found
    obtain ⟨inside, isName⟩ := List.mem_filter.mp found
    exact proper_of_mem_normalComponents inside isName
  rw [shadowed, outside]
  exact components_foldl_join proper _

/-- The place of an output, whatever it is named, is made of names below the
shadow directory. -/
theorem components_shadowed {shadow root : Path} (absolute : shadow.isAbsolute)
    (rootAbsolute : root.isAbsolute) (output : Path) :
    ∃ rest, (shadowed shadow root output).components = shadow.components ++ rest ∧
      ∀ name ∈ rest, name.isName := by
  cases found : relativeTo? root output with
  | some below =>
      obtain ⟨rest, whole, -⟩ := relativeTo?_eq_some_iff.mp found
      refine ⟨rest, components_shadowed_of_append absolute rootAbsolute whole, ?_⟩
      intro name inside
      exact (names_of_normalComponents_append rootAbsolute whole name inside).1
  | none =>
      have joined := components_shadowed_of_none shadow found
      rw [components_join_external, List.append_assoc] at joined
      refine ⟨_, joined, List.forall_mem_cons.mpr ⟨rfl, ?_⟩⟩
      intro name inside
      exact (List.mem_filter.mp inside).2

theorem settled_shadowed {shadow root : Path} (shadowSettled : shadow.Settled)
    (rootAbsolute : root.isAbsolute) (output : Path) :
    (shadowed shadow root output).Settled := by
  obtain ⟨rest, found, areNames⟩ :=
    components_shadowed shadowSettled.isAbsolute rootAbsolute output
  exact shadowSettled.of_append found areNames

theorem startsWith_shadowed {shadow root : Path} (absolute : shadow.isAbsolute)
    (rootAbsolute : root.isAbsolute) (output : Path) :
    (shadowed shadow root output).startsWith shadow := by
  obtain ⟨rest, found, -⟩ := components_shadowed absolute rootAbsolute output
  exact (startsWith_iff _ _).mpr ⟨rest, found⟩

end Path

end ShadowCheck
