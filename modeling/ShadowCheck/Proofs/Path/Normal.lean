import ShadowCheck.Proofs.Path.Components

/-!
The shapes of normal forms. Below the root there are only names; a relative path keeps the
steps up that nothing was left for, and then has only names. A path is normalized to the
plain spelling of its normal form.
-/

namespace ShadowCheck

@[simp] theorem Component.follow_current (stack : List Component) :
    follow stack .current = stack := by
  cases stack with
  | nil => rfl
  | cons top below => cases top <;> rfl

@[simp] theorem Component.follow_name (stack : List Component) (bytes : Bytes) :
    follow stack (.name bytes) = .name bytes :: stack := by
  cases stack with
  | nil => rfl
  | cons top below => cases top <;> rfl

namespace Path

/-! Components of normal forms. -/

theorem mem_of_mem_follow {stack : List Component} {component other : Component}
    (found : other ∈ Component.follow stack component) : other = component ∨ other ∈ stack := by
  unfold Component.follow at found
  split at found
  · exact .inr found
  · exact .inr (List.mem_cons_of_mem _ found)
  · exact .inr found
  · exact List.mem_cons.mp found

theorem mem_of_mem_foldl_follow {components stack : List Component} {other : Component}
    (found : other ∈ components.foldl Component.follow stack) :
    other ∈ components ∨ other ∈ stack := by
  induction components generalizing stack with
  | nil => exact .inr found
  | cons first rest ih =>
      rcases ih found with later | followed
      · exact .inl (List.mem_cons_of_mem first later)
      · rcases mem_of_mem_follow followed with rfl | before
        · exact .inl List.mem_cons_self
        · exact .inr before

theorem mem_components_of_mem_normalComponents {path : Path} {component : Component}
    (found : component ∈ path.normalComponents) : component ∈ path.components := by
  rcases mem_of_mem_foldl_follow (List.mem_reverse.mp found) with inside | none
  · exact inside
  · cases none

theorem proper_of_mem_normalComponents {path : Path} {component : Component}
    (found : component ∈ path.normalComponents) (isName : component.isName) :
    component.Proper := by
  rcases mem_components (mem_components_of_mem_normalComponents found) with
    ⟨rfl, -⟩ | rfl | inside
  · cases isName
  · cases isName
  · exact proper_of_mem_below inside

theorem isAbsolute_of_root_mem {path : Path} (found : .root ∈ path.normalComponents) :
    path.isAbsolute := by
  rcases mem_components (mem_components_of_mem_normalComponents found) with
    ⟨-, absolute⟩ | current | inside
  · exact absolute
  · cases current
  · exact absurd rfl (proper_of_mem_below inside).ne_root

/-! Following components. -/

theorem exists_map_name {components : List Component}
    (areNames : ∀ component ∈ components, component.isName) :
    ∃ names : List Bytes, components = names.map .name := by
  induction components with
  | nil => exact ⟨[], rfl⟩
  | cons component rest ih =>
      obtain ⟨first, others⟩ := List.forall_mem_cons.mp areNames
      obtain ⟨names, rfl⟩ := ih others
      cases component with
      | name text => exact ⟨text :: names, rfl⟩
      | _ => cases first

theorem foldl_follow_names {names : List Component} (areNames : ∀ name ∈ names, name.isName)
    (stack : List Component) :
    names.foldl Component.follow stack = names.reverse ++ stack := by
  obtain ⟨texts, rfl⟩ := exists_map_name areNames
  clear areNames
  induction texts generalizing stack with
  | nil => rfl
  | cons text rest ih =>
      rw [List.map_cons, List.foldl_cons, Component.follow_name, ih, List.reverse_cons,
        List.append_assoc]
      rfl

/-- Stacks of an absolute and of a relative path: names on top of the root, or of the steps
up that nothing was left for. -/
inductive IsStack : Bool → List Component → Prop
  | rooted (names : List Bytes) : IsStack true (names.map .name ++ [.root])
  | climbing (names : List Bytes) (ups : Nat) :
      IsStack false (names.map .name ++ List.replicate ups .parent)

theorem IsStack.follow {absolute : Bool} {stack : List Component} (shape : IsStack absolute stack)
    {component : Component} (notRoot : component ≠ .root) :
    IsStack absolute (Component.follow stack component) := by
  cases component with
  | root => exact absurd rfl notRoot
  | current =>
      rw [Component.follow_current]
      exact shape
  | name text =>
      rw [Component.follow_name]
      cases shape with
      | rooted names => exact .rooted (text :: names)
      | climbing names ups => exact .climbing (text :: names) ups
  | parent =>
      cases shape with
      | rooted names =>
          cases names with
          | nil => exact .rooted []
          | cons name rest => exact .rooted rest
      | climbing names ups =>
          cases names with
          | cons name rest => exact .climbing rest ups
          | nil =>
              -- one more step up that nothing was left for
              have more : Component.follow (List.replicate ups .parent) .parent =
                  List.replicate (ups + 1) .parent := by
                cases ups <;> rfl
              rw [List.map_nil, List.nil_append, more]
              exact .climbing [] (ups + 1)

theorem IsStack.foldl_follow {absolute : Bool} {stack : List Component}
    (shape : IsStack absolute stack) {components : List Component}
    (notRoot : .root ∉ components) :
    IsStack absolute (components.foldl Component.follow stack) := by
  induction components generalizing stack with
  | nil => exact shape
  | cons component rest ih =>
      rw [List.mem_cons, not_or] at notRoot
      exact ih (shape.follow (Ne.symm notRoot.1)) notRoot.2

theorem isStack_foldl_follow (path : Path) :
    IsStack path.isAbsolute (path.components.foldl Component.follow []) := by
  have notBelow : .root ∉ path.below := fun found => (proper_of_mem_below found).ne_root rfl
  cases absolute : path.isAbsolute with
  | true =>
      rw [components_of_isAbsolute absolute]
      exact (IsStack.rooted []).foldl_follow notBelow
  | false =>
      apply (IsStack.climbing [] 0).foldl_follow
      intro found
      rcases mem_components found with ⟨-, isAbsolute⟩ | current | inside
      · rw [absolute] at isAbsolute
        cases isAbsolute
      · cases current
      · exact notBelow inside

/-! Shapes. -/

/-- The shapes of a normal form, absolute and relative: names below the root, or some steps
up and then names. -/
inductive IsNormal : Bool → List Component → Prop
  | absolute (names : List Bytes) : IsNormal true (.root :: names.map .name)
  | relative (ups : Nat) (names : List Bytes) :
      IsNormal false (List.replicate ups .parent ++ names.map .name)

theorem IsStack.reverse {absolute : Bool} {stack : List Component}
    (shape : IsStack absolute stack) : IsNormal absolute stack.reverse := by
  cases shape with
  | rooted names =>
      rw [List.reverse_append, ← List.map_reverse]
      exact .absolute names.reverse
  | climbing names ups =>
      rw [List.reverse_append, List.reverse_replicate, ← List.map_reverse]
      exact .relative ups names.reverse

theorem isNormal_normalComponents (path : Path) :
    IsNormal path.isAbsolute path.normalComponents :=
  (isStack_foldl_follow path).reverse

theorem exists_normalComponents {path : Path} (absolute : path.isAbsolute) :
    ∃ names, path.normalComponents = .root :: names ∧
      ∀ name ∈ names, name.isName ∧ name.Proper := by
  have shape := isNormal_normalComponents path
  have proper : ∀ component ∈ path.normalComponents, component.isName → component.Proper :=
    fun _ => proper_of_mem_normalComponents
  rw [absolute] at shape
  generalize path.normalComponents = components at shape proper
  cases shape with
  | absolute names =>
      refine ⟨_, rfl, fun component found => ?_⟩
      obtain ⟨name, -, rfl⟩ := List.mem_map.mp found
      exact ⟨rfl, proper _ (List.mem_cons_of_mem _ found) rfl⟩

theorem proper_parent : Component.parent.Proper :=
  ⟨rfl, by decide⟩

theorem IsNormal.components_ofComponents {absolute : Bool} {components : List Component}
    (normal : IsNormal absolute components)
    (proper : ∀ component ∈ components, component.isName → component.Proper) :
    (ofComponents components).components = components := by
  cases normal with
  | absolute names =>
      apply components_ofComponents_root
      intro component found
      obtain ⟨name, -, rfl⟩ := List.mem_map.mp found
      exact proper _ (List.mem_cons_of_mem _ found) rfl
  | relative ups names =>
      apply Path.components_ofComponents
      intro component found
      rcases List.mem_append.mp found with up | below
      · rw [List.eq_of_mem_replicate up]
        exact proper_parent
      · obtain ⟨name, -, rfl⟩ := List.mem_map.mp below
        exact proper _ found rfl

/-- A path is normalized to the plain spelling of its normal form. -/
theorem components_normalize (path : Path) :
    path.normalize.components = path.normalComponents :=
  (isNormal_normalComponents path).components_ofComponents
    fun _ found isName => proper_of_mem_normalComponents found isName

end Path

end ShadowCheck
