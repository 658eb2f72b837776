import Mathlib.Data.List.TakeWhile
import ShadowCheck.Proofs.Path.Settled
import ShadowCheck.Proofs.Text.Bytes

/-!
The last name of a path, and the name that a suffix makes of it. A suffix keeps names
different that are shown differently, whatever dots are in them. So it keeps different files
different as long as their names are texts, and their places below a shadow directory too.
-/

namespace ShadowCheck

namespace Path

/-! The path without its last component. -/

theorem components_of_spelling {path : Path} {rest : Bytes} (text : path.bytes = slash :: rest) :
    path.components = .root :: (segments rest).filterMap Component.ofSegment? := by
  rw [components_of_isAbsolute ((isAbsolute_iff path).mpr ⟨rest, text⟩), below, text,
    segments_slash]
  rfl

theorem components_of_parent?_of_isAbsolute {path parent : Path} (absolute : path.isAbsolute)
    (found : path.parent? = some parent) : parent.components = path.components.dropLast := by
  obtain ⟨rest, text⟩ := (isAbsolute_iff path).mp absolute
  obtain ⟨kept, spelled, inside, components⟩ := exists_of_parent? text found
  have nonempty : (segments rest).filterMap Component.ofSegment? ≠ [] := by
    intro empty
    rw [(parent?_eq_none_iff text).mpr empty] at found
    cases found
  have whole : (segments (unsegment kept)).filterMap Component.ofSegment? =
      kept.filterMap Component.ofSegment? := by
    cases kept with
    | nil => rfl
    | cons part others =>
        rw [segments_unsegment (List.cons_ne_nil part others)]
        exact fun part left => slash_not_mem_segments rest part (inside part left)
  rw [components_of_spelling spelled, whole, components, components_of_spelling text,
    List.dropLast_cons_of_ne_nil nonempty]

theorem components_of_parent?_of_dotted {path parent : Path} {others : List Bytes}
    (text : segments path.bytes = [dot] :: others) (found : path.parent? = some parent) :
    parent.components = path.components.dropLast := by
  rw [components_of_dotted text]
  rcases parent?_of_dotted text with ⟨alone, bare⟩ | ⟨kept, left, inside, nonempty, components⟩
  · rw [alone] at found
    cases found
    rw [bare]
    rfl
  · rw [left] at found
    cases found
    have whole : ∀ part ∈ [dot] :: kept, slash ∉ part := by
      intro part here
      apply slash_not_mem_segments path.bytes
      rw [text]
      exact List.cons_subset_cons _ inside.subset here
    have spelled : segments (⟨unsegment ([dot] :: kept)⟩ : Path).bytes = [dot] :: kept :=
      segments_unsegment (List.cons_ne_nil _ _) whole
    rw [components_of_dotted spelled, components, List.dropLast_cons_of_ne_nil nonempty]

/-- What spells the first segments of a path begins as the path does. -/
theorem unsegment_front {kept parts : List Bytes} (inside : kept <+: parts)
    (nonempty : kept ≠ []) : unsegment kept <+: unsegment parts := by
  obtain ⟨more, rfl⟩ := inside
  by_cases last : more = []
  · exact ⟨[], by rw [last, List.append_nil, List.append_nil]⟩
  · rw [unsegment_append nonempty last]
    exact List.prefix_append _ _

theorem components_unsegment {path : Path} (relative : path.isAbsolute = false)
    (plain : path.isDotted = false) {kept : List Bytes} (inside : kept <+: segments path.bytes) :
    (⟨unsegment kept⟩ : Path).components = kept.filterMap Component.ofSegment? := by
  by_cases empty : kept = []
  · rw [empty]
    rfl
  · have spelled : segments (unsegment kept) = kept :=
      segments_unsegment empty fun part here =>
        slash_not_mem_segments _ part (inside.subset here)
    have front : unsegment kept <+: path.bytes := by
      have begins := unsegment_front inside empty
      rwa [unsegment_segments] at begins
    have keptRelative : (⟨unsegment kept⟩ : Path).isAbsolute = false := by
      rw [Bool.eq_false_iff, Ne, isAbsolute_iff]
      rintro ⟨rest, rooted⟩
      obtain ⟨more, text⟩ := front
      rw [show unsegment kept = slash :: rest from rooted] at text
      rw [(isAbsolute_iff path).mpr ⟨rest ++ more, text.symm⟩] at relative
      cases relative
    have keptPlain : (⟨unsegment kept⟩ : Path).isDotted = false := by
      rw [Bool.eq_false_iff, Ne, isDotted_iff]
      rintro ⟨others, dotted⟩
      rw [spelled] at dotted
      obtain ⟨more, text⟩ := inside
      rw [dotted] at text
      rw [(isDotted_iff path).mpr ⟨others ++ more, text.symm⟩] at plain
      cases plain
    rw [components_of_plain keptRelative keptPlain, below, spelled]

/-- The parent of a path has its components but the last one. -/
theorem components_of_parent? {path parent : Path} (found : path.parent? = some parent) :
    parent.components = path.components.dropLast := by
  by_cases absolute : path.isAbsolute
  · exact components_of_parent?_of_isAbsolute absolute found
  by_cases dotted : path.isDotted
  · obtain ⟨others, text⟩ := (isDotted_iff path).mp dotted
    exact components_of_parent?_of_dotted text found
  have relative := Bool.eq_false_iff.mpr absolute
  have plain := Bool.eq_false_iff.mpr dotted
  rcases parent?_of_plain relative plain with ⟨none, -⟩ | ⟨kept, left, inside, -, components⟩
  · rw [none] at found
    cases found
  · rw [left] at found
    cases found
    rw [components_unsegment relative plain inside, components_of_plain relative plain, components]

theorem parent?_eq_none_iff_components {path : Path} (absolute : path.isAbsolute) :
    path.parent? = none ↔ path.components = [.root] := by
  obtain ⟨rest, text⟩ := (isAbsolute_iff path).mp absolute
  rw [parent?_eq_none_iff text, components_of_spelling text, List.cons.injEq]
  exact (and_iff_right rfl).symm

theorem Settled.parent? {path parent : Path} (settled : path.Settled)
    (found : path.parent? = some parent) : parent.Settled := by
  have components := components_of_parent? found
  obtain ⟨names, whole, areNames⟩ := settled
  have nonempty : names ≠ [] := by
    rintro rfl
    rw [(parent?_eq_none_iff_components (isAbsolute_of_components whole)).mpr whole] at found
    cases found
  rw [whole, List.dropLast_cons_of_ne_nil nonempty] at components
  exact ⟨names.dropLast, components, fun name kept => areNames name (List.dropLast_subset names kept)⟩

/-! The last name. -/

theorem components_of_fileName? {path : Path} {name : Bytes} (named : path.fileName? = some name) :
    path.components = path.components.dropLast ++ [.name name] := by
  unfold fileName? at named
  split at named
  · rename_i last
    cases named
    obtain ⟨folder, components⟩ := List.getLast?_eq_some_iff.mp last
    rw [components, List.dropLast_concat]
  · cases named

theorem fileName?_of_components {path : Path} {folder : List Component} {name : Bytes}
    (components : path.components = folder ++ [.name name]) : path.fileName? = some name := by
  unfold fileName?
  rw [components, List.getLast?_concat]

/-- A settled path that lies below another one has a name. -/
theorem Settled.exists_fileName? {path directory : Path} (settled : path.Settled)
    (directorySettled : directory.Settled) {rest : List Component}
    (components : path.components = directory.components ++ rest) (nonempty : rest ≠ []) :
    ∃ name, path.fileName? = some name := by
  obtain ⟨names, whole, areNames⟩ := settled
  obtain ⟨directoryNames, folder, -⟩ := directorySettled
  obtain ⟨before, last, rfl⟩ := (List.eq_nil_or_concat rest).resolve_left nonempty
  rw [List.concat_eq_append] at components
  have inside : last ∈ names := by
    rw [whole, folder, List.cons_append, List.cons.injEq] at components
    rw [components.2]
    exact List.mem_append_right _ (List.mem_append_right before List.mem_cons_self)
  cases last with
  | name bytes =>
      rw [← List.append_assoc] at components
      exact ⟨bytes, fileName?_of_components components⟩
  | _ => cases areNames _ inside

/-- Only the root, the empty path and paths that end in `.` or `..` have no name. -/
theorem exists_parent? {path : Path} {name : Bytes} (named : path.fileName? = some name) :
    ∃ parent, path.parent? = some parent := by
  have whole := components_of_fileName? named
  cases found : path.parent? with
  | some parent => exact ⟨parent, rfl⟩
  | none =>
      by_cases absolute : path.isAbsolute
      · rw [(parent?_eq_none_iff_components absolute).mp found] at whole
        cases whole
      by_cases dotted : path.isDotted
      · obtain ⟨others, text⟩ := (isDotted_iff path).mp dotted
        rcases parent?_of_dotted text with ⟨left, -⟩ | ⟨kept, left, -⟩ <;>
          rw [left] at found <;> cases found
      have relative := Bool.eq_false_iff.mpr absolute
      have plain := Bool.eq_false_iff.mpr dotted
      rcases parent?_of_plain relative plain with ⟨-, bare⟩ | ⟨kept, left, -⟩
      · rw [components_of_plain relative plain, bare] at whole
        cases whole
      · rw [left] at found
        cases found

/-- Another name in the place of the last one. -/
theorem components_withFileName {path : Path} {old name : Bytes}
    (named : path.fileName? = some old) (proper : (Component.name name).Proper) :
    (path.withFileName name).components = path.components.dropLast ++ [.name name] := by
  obtain ⟨parent, found⟩ := exists_parent? named
  have joined := components_join_proper parent proper
  rw [components_of_parent? found] at joined
  rw [withFileName, named, found]
  exact joined

/-! Names with a suffix. -/

/-- How a name comes apart: at its last dot, or not at all if it has none but in front. -/
inductive Splits (name : Bytes) : Prop
  | dotted {stem extension : Bytes} (spelled : name = stem ++ dot :: extension)
      (nonempty : stem ≠ []) (bare : dot ∉ extension)
      (parts : splitExtension name = (stem, some extension))
  | whole (leading : ∀ {front back}, name = front ++ dot :: back → front = [])
      (parts : splitExtension name = (name, none))

theorem splits (name : Bytes) : Splits name := by
  by_cases dots : dot ∈ name.reverse
  · obtain ⟨before, after, reversed, letters⟩ := List.eq_append_cons_of_mem dots
    have spelled : name = after.reverse ++ dot :: before.reverse := by
      rw [← List.reverse_inj, reversed]
      simp
    have bare : dot ∉ before.reverse := mt List.mem_reverse.mp letters
    have others : ∀ c ∈ before, (c != dot) = true :=
      fun c found => bne_iff_ne.mpr fun same => letters (same ▸ found)
    have dropped : (dot :: after).dropWhile (· != dot) = dot :: after := rfl
    have taken : (dot :: after).takeWhile (· != dot) = [] := rfl
    cases after with
    | nil =>
        refine .whole ?_ ?_
        · intro front back spelledSo
          cases front with
          | nil => rfl
          | cons c front =>
              rw [spelled] at spelledSo
              injection spelledSo with _ rest
              rw [rest] at bare
              exact absurd (List.mem_append_right front List.mem_cons_self) bare
        · simp only [splitExtension, reversed, List.dropWhile_append_of_pos others, dropped]
    | cons c after =>
        refine .dotted spelled (by simp) bare ?_
        simp only [splitExtension, reversed, List.dropWhile_append_of_pos others,
          List.takeWhile_append_of_pos others, dropped, taken, List.append_nil]
  · refine .whole ?_ ?_
    · intro front back spelled
      rw [List.mem_reverse, spelled] at dots
      exact absurd (List.mem_append_right front List.mem_cons_self) dots
    · have others : ∀ c ∈ name.reverse, (c != dot) = true :=
        fun c found => bne_iff_ne.mpr fun same => dots (same ▸ found)
      have dropped := List.dropWhile_eq_nil_iff.mpr others
      simp only [splitExtension, dropped]

/-- A name that does not come apart is not shown as if it did. -/
theorem leading_shown {name : Bytes}
    (leading : ∀ {front back}, name = front ++ dot :: back → front = []) {front back : List Char}
    (shown : name.shown = front ++ '.' :: back) : front = [] := by
  have dots : dot ∈ name := by
    rw [← Bytes.isMark_dot.mem_shown_iff, shown]
    exact List.mem_append_right _ List.mem_cons_self
  obtain ⟨before, after, spelled, -⟩ := List.eq_append_cons_of_mem dots
  have first := leading spelled
  have bare : dot ∉ after := by
    intro found
    obtain ⟨more, rest, text⟩ := List.append_of_mem found
    rw [text, first] at spelled
    exact List.cons_ne_nil _ _ (@leading (dot :: more) rest spelled)
  rw [spelled, first, Bytes.isMark_dot.shown_append] at shown
  cases front with
  | nil => rfl
  | cons c front =>
      injection shown with _ text
      refine absurd ?_ (mt Bytes.isMark_dot.mem_shown_iff.mp bare)
      rw [text]
      exact List.mem_append_right _ List.mem_cons_self

theorem toList_suffixed_dotted {suffix : String} {name stem extension : Bytes}
    (parts : splitExtension name = (stem, some extension)) :
    (suffixed suffix name).toList =
      stem.shown ++ '.' :: suffix.toList ++ '.' :: extension.shown := by
  rw [suffixed, parts]
  simp [Bytes.text]

theorem toList_suffixed_whole {suffix : String} {name : Bytes}
    (parts : splitExtension name = (name, none)) :
    (suffixed suffix name).toList = name.shown ++ '.' :: suffix.toList := by
  rw [suffixed, parts]
  simp [Bytes.text]

/-- Only one of two texts that are the same can go on behind its last mark. -/
theorem eq_of_last_mark {α : Type} {mark : α} {first second firstEnd secondEnd : List α}
    (firstBare : mark ∉ firstEnd) (secondBare : mark ∉ secondEnd)
    (same : first ++ mark :: firstEnd = second ++ mark :: secondEnd) :
    first = second ∧ firstEnd = secondEnd := by
  rcases List.append_eq_append_iff.mp same with ⟨between, text, rest⟩ | ⟨between, text, rest⟩
  · cases between with
    | nil =>
        injection rest with _ rest
        exact ⟨by rw [text, List.append_nil], rest⟩
    | cons c between =>
        injection rest with _ rest
        rw [rest] at firstBare
        exact absurd (List.mem_append_right between List.mem_cons_self) firstBare
  · cases between with
    | nil =>
        injection rest with _ rest
        exact ⟨by rw [text, List.append_nil], rest.symm⟩
    | cons c between =>
        injection rest with _ rest
        rw [rest] at secondBare
        exact absurd (List.mem_append_right between List.mem_cons_self) secondBare

/-- A name that comes apart and a name that does not are different with a suffix too. -/
theorem dotted_ne_whole {stem extension suffix name : List Char} (nonempty : stem ≠ [])
    (leading : ∀ {front back}, name = front ++ '.' :: back → front = []) :
    stem ++ '.' :: suffix ++ '.' :: extension ≠ name ++ '.' :: suffix := by
  intro same
  rw [List.append_assoc, List.cons_append] at same
  rcases List.append_eq_append_iff.mp same with ⟨between, text, rest⟩ | ⟨between, text, rest⟩
  · cases between with
    | nil =>
        injection rest with _ rest
        have lengths := congrArg List.length rest
        simp only [List.length_append, List.length_cons] at lengths
        omega
    | cons c between =>
        injection rest with dot _
        rw [← dot] at text
        exact nonempty (leading text)
  · have lengths := congrArg List.length rest
    simp only [List.length_append, List.length_cons] at lengths
    omega

/-- A suffix keeps just those names apart that are shown differently. -/
theorem suffixed_eq_iff (suffix : String) (first second : Bytes) :
    suffixed suffix first = suffixed suffix second ↔ first.shown = second.shown := by
  rw [← String.toList_inj]
  cases splits first with
  | @dotted stem extension spelled nonempty bare parts =>
      have firstBare := mt Bytes.isMark_dot.mem_shown_iff.mp bare
      have firstNonempty := mt Bytes.shown_eq_nil_iff.mp nonempty
      have firstShown := Bytes.isMark_dot.shown_append stem extension
      rw [toList_suffixed_dotted parts]
      cases splits second with
      | @dotted otherStem otherExtension otherSpelled _ otherBare otherParts =>
          have secondBare := mt Bytes.isMark_dot.mem_shown_iff.mp otherBare
          rw [toList_suffixed_dotted otherParts, spelled, otherSpelled, firstShown,
            Bytes.isMark_dot.shown_append]
          constructor
          · intro same
            obtain ⟨fronts, extensions⟩ := eq_of_last_mark firstBare secondBare same
            rw [List.append_cancel_right fronts, extensions]
          · intro same
            obtain ⟨stems, extensions⟩ := eq_of_last_mark firstBare secondBare same
            rw [stems, extensions]
      | whole leading otherParts =>
          rw [toList_suffixed_whole otherParts]
          refine iff_of_false (dotted_ne_whole firstNonempty (leading_shown leading)) ?_
          intro same
          rw [spelled, firstShown] at same
          exact firstNonempty (leading_shown leading same.symm)
  | whole leading parts =>
      rw [toList_suffixed_whole parts]
      cases splits second with
      | @dotted stem extension spelled nonempty _ otherParts =>
          have secondNonempty := mt Bytes.shown_eq_nil_iff.mp nonempty
          rw [toList_suffixed_dotted otherParts]
          refine iff_of_false (dotted_ne_whole secondNonempty (leading_shown leading)).symm ?_
          intro same
          rw [spelled, Bytes.isMark_dot.shown_append] at same
          exact secondNonempty (leading_shown leading same)
      | whole _ otherParts =>
          rw [toList_suffixed_whole otherParts]
          exact List.append_left_inj _

theorem proper_of_long {bytes : Bytes} (long : 2 ≤ bytes.length)
    (notParent : bytes ≠ [dot, dot]) (whole : slash ∉ bytes) : (Component.name bytes).Proper := by
  refine ⟨?_, whole⟩
  have notShort : ¬ (bytes = [] ∨ bytes = [dot]) := by
    rintro (rfl | rfl) <;> exact absurd long (by decide)
  rw [Component.bytes, Component.ofSegment?, if_neg notShort, if_neg notParent]

theorem proper_of_fileName? {path : Path} {name : Bytes} (named : path.fileName? = some name) :
    (Component.name name).Proper := by
  have inside : .name name ∈ path.components := by
    rw [components_of_fileName? named]
    exact List.mem_append_right _ List.mem_cons_self
  rcases mem_components inside with ⟨root, -⟩ | current | below
  · cases root
  · cases current
  · exact proper_of_mem_below below

theorem proper_bytesOf {text : List Char} (long : 2 ≤ text.length)
    (notParent : text ≠ ['.', '.']) (whole : '/' ∉ text) :
    (Component.name (bytesOf text)).Proper := by
  apply proper_of_long (long.trans (Bytes.length_le_bytesOf text))
  · exact fun parent => notParent (Bytes.bytesOf_injective parent)
  · exact mt Bytes.isMark_slash.mem_bytesOf_iff.mp whole

/-- A name is not shown as a single dot, which is no name. -/
theorem shown_ne_dot {name : Bytes} (proper : (Component.name name).Proper) :
    name.shown ≠ ['.'] := by
  intro alone
  have read := proper.segment
  rw [Component.bytes, @Bytes.IsMark.eq_replicate _ _ Bytes.isMark_dot 1 name alone] at read
  cases read

theorem proper_suffixed {suffix : String} {name : Bytes} (proper : (Component.name name).Proper)
    (suffixWhole : '/' ∉ suffix.toList) : (Component.name (suffixed suffix name)).Proper := by
  have nonempty : name ≠ [] := proper.bytes_ne_nil
  have whole : '/' ∉ name.shown := mt Bytes.isMark_slash.mem_shown_iff.mp proper.whole
  cases splits name with
  | @dotted stem extension spelled stemNonempty _ parts =>
      have long := List.length_pos_iff.mpr (mt Bytes.shown_eq_nil_iff.mp stemNonempty)
      have text : (suffixed suffix name).toList = _ := toList_suffixed_dotted parts
      have length := congrArg List.length text
      simp only [List.length_append, List.length_cons] at length
      apply proper_bytesOf
      · omega
      · intro parent
        rw [parent] at length
        simp only [List.length_cons, List.length_nil] at length
        omega
      · rw [text]
        rw [spelled, Bytes.isMark_dot.shown_append] at whole
        simp_all
  | whole _ parts =>
      have long := List.length_pos_iff.mpr (mt Bytes.shown_eq_nil_iff.mp nonempty)
      have text : (suffixed suffix name).toList = _ := toList_suffixed_whole parts
      apply proper_bytesOf
      · rw [text]
        simp only [List.length_append, List.length_cons]
        omega
      · intro parent
        rw [text] at parent
        have lengths := congrArg List.length parent
        simp only [List.length_append, List.length_cons, List.length_nil] at lengths
        have single : name.shown.length = ['.'].length := by
          simp only [List.length_cons, List.length_nil]
          omega
        exact shown_ne_dot proper (List.append_inj_left (parent : _ = ['.'] ++ ['.']) single)
      · rw [text]
        simp_all

section

variable {path : Path} {name : Bytes} {suffix : String}

theorem components_withSuffix (named : path.fileName? = some name)
    (whole : '/' ∉ suffix.toList) :
    (path.withSuffix suffix).components =
      path.components.dropLast ++ [.name (suffixed suffix name)] := by
  rw [withSuffix, named, Option.getD_some]
  exact components_withFileName named (proper_suffixed (proper_of_fileName? named) whole)

theorem settled_withSuffix (settled : path.Settled) (named : path.fileName? = some name)
    (whole : '/' ∉ suffix.toList) : (path.withSuffix suffix).Settled := by
  have components := components_withSuffix named whole
  have before := components_of_fileName? named
  obtain ⟨names, spelled, areNames⟩ := settled
  rw [spelled] at components before
  cases names with
  | nil => cases before
  | cons first rest =>
      rw [List.dropLast_cons_of_ne_nil (List.cons_ne_nil _ _)] at components
      refine ⟨_, components, List.forall_mem_append.mpr ⟨?_, List.forall_mem_singleton.mpr rfl⟩⟩
      exact fun other found => areNames other (List.dropLast_subset _ found)

end

/-! Names that are shown alike. -/

/-- Whether two paths have one directory, and names that are shown as one text. -/
def ShownAlike (left right : Path) : Prop :=
  left.components.dropLast = right.components.dropLast ∧
    left.fileName?.map Bytes.shown = right.fileName?.map Bytes.shown

section

variable {path other : Path} {name otherName : Bytes} (named : path.fileName? = some name)
  (otherNamed : other.fileName? = some otherName)

include named otherNamed

/-- Files have the same path under a suffix just when their names are shown alike. -/
theorem withSuffix_same_iff_shownAlike {suffix : String} (whole : '/' ∉ suffix.toList) :
    (path.withSuffix suffix).Same (other.withSuffix suffix) ↔ path.ShownAlike other := by
  rw [Same, components_withSuffix named whole, components_withSuffix otherNamed whole, ShownAlike,
    named, otherNamed, Option.map_some, Option.map_some, Option.some.injEq,
    ← suffixed_eq_iff suffix]
  constructor
  · intro same
    obtain ⟨folders, names⟩ := List.append_inj' same rfl
    injection names with bytes _
    injection bytes with renamed
    exact ⟨folders, String.toList_inj.mp (Bytes.bytesOf_injective renamed)⟩
  · rintro ⟨folders, renamed⟩
    rw [folders, renamed]

/-- Names that are texts are shown alike only if they are the same. -/
theorem shownAlike_iff_of_isText (isText : name.IsText) (otherIsText : otherName.IsText) :
    path.ShownAlike other ↔ path.Same other := by
  rw [ShownAlike, Same, named, otherNamed, Option.map_some, Option.map_some, Option.some.injEq]
  constructor
  · rintro ⟨folders, shown⟩
    rw [components_of_fileName? named, components_of_fileName? otherNamed, folders,
      isText.eq_of_shown_eq otherIsText shown]
  · intro same
    have names : some name = some otherName := by
      rw [← named, ← otherNamed, fileName?, fileName?, same]
    rw [same, Option.some.inj names]
    exact ⟨rfl, rfl⟩

end

/-! Places of files below the root. -/

/-- A file below the root has its place just so below the shadow directory. -/
theorem components_shadowed_of_below {shadow root path : Path} (absolute : shadow.isAbsolute)
    (rootSettled : root.Settled) (settled : path.Settled) {rest : List Component}
    (components : path.components = root.components ++ rest) :
    (shadowed shadow root path).components = shadow.components ++ rest := by
  apply components_shadowed_of_append absolute rootSettled.isAbsolute
  rw [normalComponents_of_settled rootSettled, normalComponents_of_settled settled, components]

theorem same_of_same_shadowed {shadow root left right : Path} (absolute : shadow.isAbsolute)
    (rootSettled : root.Settled) (leftSettled : left.Settled) (rightSettled : right.Settled)
    (leftBelow : left.startsWith root) (rightBelow : right.startsWith root)
    (same : (shadowed shadow root left).Same (shadowed shadow root right)) :
    left.Same right := by
  obtain ⟨leftRest, leftComponents⟩ := (startsWith_iff left root).mp leftBelow
  obtain ⟨rightRest, rightComponents⟩ := (startsWith_iff right root).mp rightBelow
  unfold Same at same ⊢
  rw [components_shadowed_of_below absolute rootSettled leftSettled leftComponents,
    components_shadowed_of_below absolute rootSettled rightSettled rightComponents] at same
  rw [leftComponents, rightComponents, List.append_cancel_left same]

end Path

end ShadowCheck
