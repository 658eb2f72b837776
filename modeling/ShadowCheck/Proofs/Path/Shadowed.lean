import ShadowCheck.Proofs.Path.Folders
import ShadowCheck.Proofs.Path.Names

/-!
Where outputs are placed. Below the root, the shadow directory mirrors what it stands for;
everything else is folded below the external directory. Neither leaves the shadow
directory, and in each part different outputs keep different places.
-/

namespace ShadowCheck

namespace Path

def IsBelow (path directory : Path) : Prop :=
  path.normalize.startsWith directory.normalize

instance (path directory : Path) : Decidable (path.IsBelow directory) :=
  inferInstanceAs (Decidable (path.normalize.startsWith directory.normalize = true))

theorem isBelow_iff (path directory : Path) :
    path.IsBelow directory ↔
      ∃ rest, path.normalComponents = directory.normalComponents ++ rest := by
  rw [IsBelow, startsWith_iff, components_normalize, components_normalize]

theorem isSome_relativeTo?_iff (root path : Path) :
    (relativeTo? root path).isSome ↔ path.IsBelow root := by
  rw [Option.isSome_iff_exists, isBelow_iff]
  constructor
  · rintro ⟨below, found⟩
    obtain ⟨rest, whole, -⟩ := relativeTo?_eq_some_iff.mp found
    exact ⟨rest, whole⟩
  · rintro ⟨rest, whole⟩
    exact ⟨_, relativeTo?_eq_some_iff.mpr ⟨rest, whole, rfl⟩⟩

theorem relativeTo?_eq_none_iff (root path : Path) :
    relativeTo? root path = none ↔ ¬ path.IsBelow root := by
  rw [← isSome_relativeTo?_iff, Bool.not_eq_true, Option.isSome_eq_false_iff,
    Option.isNone_iff_eq_none]

/-- An absolute path has nothing but the root before its names. -/
theorem filter_isName_normalComponents {path : Path} (absolute : path.isAbsolute) :
    .root :: path.normalComponents.filter Component.isName = path.normalComponents := by
  obtain ⟨names, normal, areNames⟩ := exists_normalComponents absolute
  have kept : names.filter Component.isName = names :=
    List.filter_eq_self.mpr fun name found => (areNames name found).1
  rw [normal, List.filter_cons_of_neg (by decide), kept]

section

variable {shadow root : Path}

theorem startsWith_external_shadowed {output : Path} (outside : ¬ output.IsBelow root) :
    (shadowed shadow root output).startsWith (shadow.join externalDirectory) := by
  rw [startsWith_iff]
  exact ⟨_, components_shadowed_of_none shadow ((relativeTo?_eq_none_iff _ _).mpr outside)⟩

/-- Outputs from outside the root that are absolute have their own places. -/
theorem shadowed_same_iff_of_outside {left right : Path} (leftOutside : ¬ left.IsBelow root)
    (rightOutside : ¬ right.IsBelow root) (leftAbsolute : left.isAbsolute)
    (rightAbsolute : right.isAbsolute) :
    (shadowed shadow root left).Same (shadowed shadow root right) ↔
      left.normalComponents = right.normalComponents := by
  rw [Same, components_shadowed_of_none shadow ((relativeTo?_eq_none_iff _ _).mpr leftOutside),
    components_shadowed_of_none shadow ((relativeTo?_eq_none_iff _ _).mpr rightOutside),
    List.append_cancel_left_eq]
  constructor
  · intro same
    rw [← filter_isName_normalComponents leftAbsolute, same,
      filter_isName_normalComponents rightAbsolute]
  · intro same
    rw [same]

/-- Outputs from below the root have their own places. -/
theorem shadowed_same_iff_of_isBelow (absolute : shadow.isAbsolute)
    (rootAbsolute : root.isAbsolute) {left right : Path} (leftBelow : left.IsBelow root)
    (rightBelow : right.IsBelow root) :
    (shadowed shadow root left).Same (shadowed shadow root right) ↔
      left.normalComponents = right.normalComponents := by
  obtain ⟨leftRest, leftWhole⟩ := (isBelow_iff _ _).mp leftBelow
  obtain ⟨rightRest, rightWhole⟩ := (isBelow_iff _ _).mp rightBelow
  rw [Same, components_shadowed_of_append absolute rootAbsolute leftWhole,
    components_shadowed_of_append absolute rootAbsolute rightWhole, leftWhole, rightWhole,
    List.append_cancel_left_eq, List.append_cancel_left_eq]

end

section

variable {shadow root : Path} (settled : shadow.Settled) (absolute : root.isAbsolute)

include settled absolute

/-- Seen from the shadow directory, an output from below the root is where it is seen from
the root. -/
theorem relativeTo?_shadowed {output : Path} (below : output.IsBelow root) :
    relativeTo? shadow (shadowed shadow root output) = relativeTo? root output := by
  obtain ⟨rest, whole⟩ := (isBelow_iff _ _).mp below
  have seen : relativeTo? root output = some (ofComponents rest) :=
    relativeTo?_eq_some_iff.mpr ⟨rest, whole, rfl⟩
  rw [seen, relativeTo?_eq_some_iff]
  refine ⟨rest, ?_, rfl⟩
  rw [normalComponents_of_settled (settled_shadowed settled absolute output),
    normalComponents_of_settled settled,
    components_shadowed_of_append settled.isAbsolute absolute whole]

/-- The place of an output is made of names below the shadow directory. It mirrors an
output from below the root, lies in the external directory otherwise, and in each part is
shared by outputs of one normal form only. -/
theorem shadowed_mirrors (output : Path) :
    let placed := shadowed shadow root output
    (∃ names : List Bytes, placed.components = shadow.components ++ names.map .name) ∧
    (output.IsBelow root →
      (relativeTo? root output).isSome ∧
      relativeTo? shadow placed = relativeTo? root output) ∧
    (¬ output.IsBelow root → placed.startsWith (shadow.join externalDirectory)) ∧
    ∀ other : Path,
      output.IsBelow root ∧ other.IsBelow root ∨
        (¬ output.IsBelow root ∧ output.isAbsolute) ∧ ¬ other.IsBelow root ∧ other.isAbsolute →
      (placed.Same (shadowed shadow root other) ↔ output.normalize = other.normalize) := by
  intro placed
  refine ⟨?_, fun below => ⟨?_, ?_⟩, fun outside => ?_, fun other together => ?_⟩
  · obtain ⟨rest, components, areNames⟩ :=
      components_shadowed settled.isAbsolute absolute output
    obtain ⟨names, rfl⟩ := exists_map_name areNames
    exact ⟨names, components⟩
  · exact (isSome_relativeTo?_iff root output).mpr below
  · exact relativeTo?_shadowed settled absolute below
  · exact startsWith_external_shadowed outside
  · rw [normalize_eq_iff_normalComponents]
    rcases together with ⟨below, otherBelow⟩ | ⟨⟨outside, isAbsolute⟩, otherOutside, otherAbsolute⟩
    · exact shadowed_same_iff_of_isBelow settled.isAbsolute absolute below otherBelow
    · exact shadowed_same_iff_of_outside outside otherOutside isAbsolute otherAbsolute

end

/-- Outputs that take detours: two from below a root that takes one itself, and two from
outside of it. -/
theorem shadowed_mirrors_detours :
    let shadow : Path := ⟨"/tmp/s0"⟩
    let root : Path := ⟨"/root/./q/../p"⟩
    let output : Path := ⟨"/root/p/a/../../p/./b.ts"⟩
    let outside : Path := ⟨"/root/p/../../x/b.ts"⟩
    shadow.Settled ∧ root.isAbsolute ∧
      (output.IsBelow root ∧ Path.IsBelow ⟨"/root/p/b.ts"⟩ root ∧
        (shadowed shadow root output).Same (shadowed shadow root ⟨"/root/p/b.ts"⟩) ∧
        relativeTo? shadow (shadowed shadow root output) = relativeTo? root output) ∧
      (¬ outside.IsBelow root ∧ outside.isAbsolute ∧
        ¬ (shadowed shadow root outside).Same (shadowed shadow root ⟨"/b.ts"⟩) ∧
        (shadowed shadow root outside).startsWith (shadow.join externalDirectory)) := by
  intro shadow root output outside
  have settled : shadow.Settled := ⟨[.name "tmp", .name "s0"], by decide, by decide⟩
  have absolute : root.isAbsolute := by decide
  have below : output.IsBelow root := by decide +kernel
  have plainBelow : Path.IsBelow ⟨"/root/p/b.ts"⟩ root := by decide +kernel
  have notBelow : ¬ outside.IsBelow root := by decide +kernel
  have rootNotBelow : ¬ Path.IsBelow ⟨"/b.ts"⟩ root := by decide +kernel
  obtain ⟨-, mirrored, -, together⟩ := shadowed_mirrors settled absolute output
  obtain ⟨-, -, external, apart⟩ := shadowed_mirrors settled absolute outside
  refine ⟨settled, absolute, ⟨below, plainBelow, ?_, (mirrored below).2⟩, notBelow, by decide, ?_,
    external notBelow⟩
  · exact (together ⟨"/root/p/b.ts"⟩ (.inl ⟨below, plainBelow⟩)).mpr (by decide +kernel)
  · rw [apart ⟨"/b.ts"⟩ (.inr ⟨⟨notBelow, by decide⟩, rootNotBelow, by decide⟩)]
    decide +kernel

end Path

end ShadowCheck
