import ShadowCheck.Proofs.Path.Folders
import ShadowCheck.Proofs.Text.Bytes

/-!
Paths read back from the texts that they are shown as. Reading a path back changes the names
in it that are no texts and nothing else, so a path that is made of texts comes back as it was.
-/

namespace ShadowCheck

/-- A component as it is read back from what it is shown as. -/
def Component.shown : Component → Component
  | name bytes => name (bytesOf bytes.shown)
  | component => component

theorem Component.shown_eq_self_iff (component : Component) :
    component.shown = component ↔ component.bytes.IsText := by
  cases component with
  | name bytes => exact Component.name.injEq _ _ ▸ Iff.rfl
  | _ => exact iff_of_true rfl (by decide)

theorem Component.ofSegment?_shown (segment : Bytes) :
    ofSegment? (bytesOf segment.shown) = (ofSegment? segment).map Component.shown := by
  have dots (count : Nat) : bytesOf segment.shown = List.replicate count dot →
      segment = List.replicate count dot := Bytes.isMark_dot.bytesOf_shown_eq_replicate_iff.mp
  by_cases bare : segment = [] ∨ segment = [dot]
  · rcases bare with rfl | rfl <;> rfl
  by_cases parent : segment = [dot, dot]
  · rw [parent]
    rfl
  rw [ofSegment?, if_neg, if_neg, ofSegment?, if_neg bare, if_neg parent]
  · rfl
  · exact fun same => parent (dots 2 same)
  · rintro (same | same)
    · exact bare (.inl (dots 0 same))
    · exact bare (.inr (dots 1 same))

theorem Component.follow_shown (stack : List Component) (component : Component) :
    follow (stack.map Component.shown) component.shown =
      (follow stack component).map Component.shown := by
  cases component <;> cases stack with
  | nil => rfl
  | cons top _ => cases top <;> rfl

theorem Component.foldl_follow_shown (components stack : List Component) :
    (components.map Component.shown).foldl follow (stack.map Component.shown) =
      (components.foldl follow stack).map Component.shown := by
  induction components generalizing stack with
  | nil => rfl
  | cons component rest ih =>
      rw [List.map_cons, List.foldl_cons, follow_shown, ih, List.foldl_cons]

namespace Path

/-- The path read back from the text that a path is shown as. -/
def shown (path : Path) : Path :=
  ⟨path.text⟩

theorem bytes_shown (path : Path) : path.shown.bytes = bytesOf path.bytes.shown := by
  rw [shown, text, Bytes.text, String.toList_ofList]

theorem bytesOf_shown_unsegment (parts : List Bytes) :
    bytesOf (Bytes.shown (unsegment parts)) =
      unsegment (parts.map fun part => bytesOf part.shown) := by
  induction parts with
  | nil => rfl
  | cons first others ih =>
      by_cases last : others = []
      · simp [last, unsegment]
      · rw [List.map_cons, unsegment_cons first last,
          unsegment_cons _ (mt List.map_eq_nil_iff.mp last), ← ih,
          Bytes.isMark_slash.shown_append, Bytes.bytesOf_append, Bytes.isMark_slash.bytesOf_cons]

/-- A path is read back segment by segment. -/
theorem segments_shown (path : Path) :
    segments path.shown.bytes = (segments path.bytes).map fun part => bytesOf part.shown := by
  rw [bytes_shown]
  conv => lhs; rw [← unsegment_segments path.bytes]
  rw [bytesOf_shown_unsegment, segments_unsegment]
  · exact mt List.map_eq_nil_iff.mp (segments_ne_nil path.bytes)
  · rw [List.forall_mem_map]
    intro part found
    have whole := slash_not_mem_segments path.bytes part found
    exact mt Bytes.isMark_slash.mem_bytesOf_iff.mp (mt Bytes.isMark_slash.mem_shown_iff.mp whole)

theorem below_shown (path : Path) : path.shown.below = path.below.map Component.shown := by
  rw [below, segments_shown, List.filterMap_map, below, List.map_filterMap]
  exact List.filterMap_congr fun part _ => Component.ofSegment?_shown part

theorem isAbsolute_iff_head?_segments (path : Path) :
    path.isAbsolute ↔ path.bytes ≠ [] ∧ (segments path.bytes).head? = some [] := by
  unfold isAbsolute
  cases path.bytes with
  | nil => simp
  | cons c rest =>
      obtain ⟨first, others, parts⟩ := List.exists_cons_of_ne_nil (segments_ne_nil rest)
      by_cases same : c = slash <;> simp [segments, same, parts]

theorem head?_segments_shown (path : Path) (count : Nat) :
    (segments path.shown.bytes).head? = some (List.replicate count dot) ↔
      (segments path.bytes).head? = some (List.replicate count dot) := by
  obtain ⟨first, others, parts⟩ := List.exists_cons_of_ne_nil (segments_ne_nil path.bytes)
  rw [segments_shown, parts, List.map_cons, List.head?_cons, List.head?_cons, Option.some.injEq,
    Option.some.injEq, Bytes.isMark_dot.bytesOf_shown_eq_replicate_iff]

theorem isAbsolute_shown (path : Path) : path.shown.isAbsolute = path.isAbsolute := by
  have empty : path.shown.bytes = [] ↔ path.bytes = [] := by
    rw [bytes_shown]
    exact @Bytes.IsMark.bytesOf_shown_eq_replicate_iff _ _ Bytes.isMark_dot 0 path.bytes
  rw [Bool.eq_iff_iff, isAbsolute_iff_head?_segments, isAbsolute_iff_head?_segments, ne_eq, empty]
  exact and_congr_right fun _ => path.head?_segments_shown 0

theorem isDotted_shown (path : Path) : path.shown.isDotted = path.isDotted := by
  rw [Bool.eq_iff_iff, isDotted, isDotted, beq_iff_eq, beq_iff_eq]
  exact path.head?_segments_shown 1

theorem components_shown (path : Path) :
    path.shown.components = path.components.map Component.shown := by
  rw [components, components, isAbsolute_shown, isDotted_shown, below_shown]
  repeat' split
  all_goals rfl

theorem normalComponents_shown (path : Path) :
    path.shown.normalComponents = path.normalComponents.map Component.shown := by
  have whole := Component.foldl_follow_shown path.components []
  rw [List.map_nil] at whole
  rw [normalComponents, components_shown, whole, normalComponents, List.map_reverse]

/-! Paths that come back. -/

theorem map_shown_eq_self_iff (components : List Component) :
    components.map Component.shown = components ↔
      ∀ component ∈ components, component.bytes.IsText := by
  conv => lhs; rhs; rw [← List.map_id components]
  rw [List.map_inj_left]
  exact forall₂_congr fun component _ => component.shown_eq_self_iff

theorem shown_eq_self {path : Path} (isText : path.bytes.IsText) : path.shown = path := by
  have same : path.shown.bytes = path.bytes := path.bytes_shown.trans isText
  cases path
  exact congrArg ofBytes same

/-- The components of a text are texts. -/
theorem isText_of_mem_normalComponents {path : Path} (isText : path.bytes.IsText)
    {component : Component} (found : component ∈ path.normalComponents) :
    component.bytes.IsText := by
  have whole := normalComponents_shown path
  rw [shown_eq_self isText] at whole
  exact (map_shown_eq_self_iff _).mp whole.symm component found

theorem IsNormal.foldl_enter_shown_eq_iff {absolute : Bool} {components : List Component}
    (normal : IsNormal absolute components) (folder : Folder) :
    (components.map Component.shown).foldl Component.enter folder =
        components.foldl Component.enter folder ↔
      components.map Component.shown = components := by
  have names_injective : Function.Injective (List.map Component.name) :=
    List.map_injective_iff.mpr fun _ _ => Component.name.inj
  have shownNames (names : List Bytes) : (names.map Component.name).map Component.shown =
      (names.map fun name => bytesOf name.shown).map .name := by
    rw [List.map_map, List.map_map]
    rfl
  cases normal with
  | absolute names =>
      rw [List.map_cons, shownNames]
      change (Component.root :: _).foldl _ _ = _ ↔ Component.root :: _ = _
      rw [foldl_enter_absolute, foldl_enter_absolute, List.reverse_inj, List.cons.injEq,
        names_injective.eq_iff]
      exact (and_iff_right rfl).symm
  | relative ups names =>
      rw [List.map_append, shownNames, List.map_replicate]
      change (List.replicate ups Component.parent ++ _).foldl _ _ = _ ↔
        List.replicate ups Component.parent ++ _ = _
      rw [foldl_enter_relative, foldl_enter_relative, List.append_cancel_right_eq,
        List.reverse_inj, List.append_cancel_left_eq, names_injective.eq_iff]

/-- From any base a path leads to the same place once it is read back, if its normal form is
made of texts, and to no such place otherwise. -/
theorem resolve_shown_eq_iff {base : Path} (absolute : base.isAbsolute) (path : Path) :
    base.resolve path.shown = base.resolve path ↔
      ∀ component ∈ path.normalComponents, component.bytes.IsText := by
  rw [← resolve_same_resolve_iff absolute, resolve_same_resolve_iff_walk absolute,
    ← foldl_enter_normalComponents, ← foldl_enter_normalComponents, normalComponents_shown,
    (isNormal_normalComponents path).foldl_enter_shown_eq_iff, map_shown_eq_self_iff]

end Path

end ShadowCheck
