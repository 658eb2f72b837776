import ShadowCheck.Path.Normal

/-!
How spellings and component lists belong together. A joined path has the
components of both of its parts, and the plain spelling of a component list has
just these components.
-/

namespace ShadowCheck

/-- Whether a component is what its own bytes stand for as a segment. -/
structure Component.Proper (component : Component) : Prop where
  segment : ofSegment? component.bytes = some component
  whole : slash ∉ component.bytes

theorem Component.proper_of_ofSegment? {segment : Bytes} {component : Component}
    (read : ofSegment? segment = some component) (whole : slash ∉ segment) : component.Proper := by
  have kept := read
  unfold ofSegment? at read
  split at read
  · cases read
  · split at read
    · cases read
      exact ⟨rfl, by decide⟩
    · cases read
      exact ⟨kept, whole⟩

theorem Component.Proper.ne_root {component : Component} (proper : component.Proper) :
    component ≠ .root := by
  rintro rfl
  exact absurd proper.whole (by decide)

theorem Component.Proper.bytes_ne_nil {component : Component} (proper : component.Proper) :
    component.bytes ≠ [] := by
  intro empty
  have read := proper.segment
  rw [empty] at read
  cases read

namespace Path

theorem slash_not_mem_segments (bytes : Bytes) : ∀ part ∈ segments bytes, slash ∉ part := by
  fun_induction segments bytes with
  | case1 => simp
  | case2 rest ih => simpa using ih
  | case3 c rest other found => simp [Ne.symm other]
  | case4 c rest other first others found ih =>
      rw [found, List.forall_mem_cons] at ih
      rw [List.forall_mem_cons, List.mem_cons, not_or]
      exact ⟨⟨Ne.symm other, ih.1⟩, ih.2⟩

theorem segments_append_slash (front rest : Bytes) :
    segments (front ++ slash :: rest) = segments front ++ segments rest := by
  fun_induction segments front with
  | case1 => simp [segments]
  | case2 front ih => simp [segments, ih]
  | case3 c front other found => exact absurd found (segments_ne_nil front)
  | case4 c front other first others found ih =>
      rw [found] at ih
      simp [segments, other, ih]

theorem segments_of_whole {bytes : Bytes} (whole : slash ∉ bytes) : segments bytes = [bytes] := by
  induction bytes with
  | nil => rfl
  | cons c rest ih =>
      rw [List.mem_cons, not_or] at whole
      simp [segments, Ne.symm whole.1, ih whole.2]

theorem unsegment_cons (first : Bytes) {others : List Bytes} (nonempty : others ≠ []) :
    unsegment (first :: others) = first ++ slash :: unsegment others := by
  obtain ⟨second, others, rfl⟩ := List.exists_cons_of_ne_nil nonempty
  simp [unsegment]

theorem unsegment_append {front rest : List Bytes} (frontNonempty : front ≠ [])
    (restNonempty : rest ≠ []) :
    unsegment (front ++ rest) = unsegment front ++ slash :: unsegment rest := by
  induction front with
  | nil => exact absurd rfl frontNonempty
  | cons first others ih =>
      by_cases last : others = []
      · rw [last, List.singleton_append, unsegment_cons first restNonempty]
        simp [unsegment]
      · rw [List.cons_append, unsegment_cons first (List.append_ne_nil_of_left_ne_nil last rest),
          ih last, unsegment_cons first last, List.append_assoc]
        rfl

theorem segments_unsegment {parts : List Bytes} (nonempty : parts ≠ [])
    (whole : ∀ part ∈ parts, slash ∉ part) : segments (unsegment parts) = parts := by
  induction parts with
  | nil => exact absurd rfl nonempty
  | cons first others ih =>
      obtain ⟨wholeFirst, wholeOthers⟩ := List.forall_mem_cons.mp whole
      cases others with
      | nil => simpa [unsegment] using segments_of_whole wholeFirst
      | cons second others =>
          have more : second :: others ≠ [] := List.cons_ne_nil second others
          rw [unsegment_cons first more, segments_append_slash, ih more wholeOthers,
            segments_of_whole wholeFirst]
          rfl

theorem proper_of_mem_below {path : Path} {component : Component}
    (found : component ∈ path.below) : component.Proper := by
  obtain ⟨segment, inside, read⟩ := List.mem_filterMap.mp found
  exact Component.proper_of_ofSegment? read (slash_not_mem_segments _ segment inside)

theorem components_of_isAbsolute {path : Path} (absolute : path.isAbsolute) :
    path.components = .root :: path.below :=
  if_pos absolute

/-- A relative path has the components of its segments, but for a `.` in front. -/
theorem components_of_not_isAbsolute {path : Path} (relative : path.isAbsolute = false) :
    path.components = path.below ∨
      path.components = .current :: path.below ∧ [dot] ∈ segments path.bytes := by
  rw [components, relative, if_neg Bool.false_ne_true]
  split
  · rename_i dotted
    obtain ⟨others, text⟩ := (isDotted_iff path).mp dotted
    exact .inr ⟨rfl, by rw [text]; exact List.mem_cons_self⟩
  · exact .inl rfl

theorem components_of_dotted {path : Path} {others : List Bytes}
    (text : segments path.bytes = [dot] :: others) :
    path.components = .current :: others.filterMap Component.ofSegment? := by
  have dotted := (isDotted_iff path).mpr ⟨others, text⟩
  have relative : ¬ path.isAbsolute := fun absolute => by
    rw [isDotted_of_isAbsolute absolute] at dotted
    cases dotted
  rw [components, if_neg relative, if_pos dotted, below, text]
  rfl

theorem components_of_plain {path : Path} (relative : path.isAbsolute = false)
    (plain : path.isDotted = false) : path.components = path.below := by
  rw [components, relative, if_neg Bool.false_ne_true, plain, if_neg Bool.false_ne_true]

theorem mem_components {path : Path} {component : Component}
    (found : component ∈ path.components) :
    component = .root ∧ path.isAbsolute ∨ component = .current ∨ component ∈ path.below := by
  unfold components at found
  split at found
  · rename_i absolute
    rcases List.mem_cons.mp found with root | inside
    · exact .inl ⟨root, absolute⟩
    · exact .inr (.inr inside)
  split at found
  · exact .inr (List.mem_cons.mp found)
  · exact .inr (.inr found)

theorem isAbsolute_of_components {path : Path} {rest : List Component}
    (found : path.components = .root :: rest) : path.isAbsolute := by
  have first : .root ∈ path.components := by
    rw [found]
    exact List.mem_cons_self
  rcases mem_components first with ⟨-, absolute⟩ | current | inside
  · exact absolute
  · cases current
  · exact absurd rfl (proper_of_mem_below inside).ne_root

/-! Joining. -/

theorem isAbsolute_join {base : Path} (absolute : base.isAbsolute) (path : Path) :
    (base.join path).isAbsolute := by
  obtain ⟨rest, text⟩ := (isAbsolute_iff base).mp absolute
  unfold join
  split
  · assumption
  split
  · exact (isAbsolute_iff _).mpr ⟨rest ++ path.bytes, by simp [text]⟩
  · exact (isAbsolute_iff _).mpr ⟨rest ++ slash :: path.bytes, by simp [text]⟩

theorem below_join (base : Path) {path : Path} (relative : path.isAbsolute = false) :
    (base.join path).below = base.below ++ path.below := by
  unfold join
  rw [relative, if_neg Bool.false_ne_true]
  split
  · rename_i ended
    rcases List.eq_nil_or_concat base.bytes with empty | ⟨front, last, text⟩
    · simp [below, empty, segments, Component.ofSegment?]
    · rw [List.concat_eq_append] at text
      rw [text] at ended
      have same : last = slash := by simpa using ended
      have bare : [[]].filterMap Component.ofSegment? = [] := rfl
      simp only [below, text, same, List.append_assoc, List.singleton_append,
        segments_append_slash, List.filterMap_append, segments, bare, List.append_nil]
  · simp [below, segments_append_slash]

theorem components_join {base path : Path} (absolute : base.isAbsolute)
    (relative : path.isAbsolute = false) :
    (base.join path).components = base.components ++ path.below := by
  rw [components_of_isAbsolute (isAbsolute_join absolute path), components_of_isAbsolute absolute,
    below_join base relative]
  rfl

/-! Plain spellings. -/

theorem filterMap_bytes {components : List Component}
    (proper : ∀ component ∈ components, component.Proper) :
    (components.map (·.bytes)).filterMap Component.ofSegment? = components := by
  induction components with
  | nil => rfl
  | cons component rest ih =>
      obtain ⟨properFirst, properRest⟩ := List.forall_mem_cons.mp proper
      rw [List.map_cons, List.filterMap_cons_some properFirst.segment, ih properRest]

theorem filterMap_segments_unsegment {components : List Component}
    (proper : ∀ component ∈ components, component.Proper) :
    (segments (unsegment (components.map (·.bytes)))).filterMap Component.ofSegment? =
      components := by
  cases components with
  | nil => rfl
  | cons component rest =>
      have whole : ∀ part ∈ (component :: rest).map (·.bytes), slash ∉ part :=
        List.forall_mem_map.mpr fun part found => (proper part found).whole
      rw [segments_unsegment (by simp) whole]
      exact filterMap_bytes proper

theorem bytes_ofComponents {components : List Component}
    (proper : ∀ component ∈ components, component.Proper) :
    (ofComponents components).bytes = unsegment (components.map (·.bytes)) := by
  unfold ofComponents
  split
  · exact absurd rfl (proper _ List.mem_cons_self).ne_root
  · rfl

theorem below_ofComponents {components : List Component}
    (proper : ∀ component ∈ components, component.Proper) :
    (ofComponents components).below = components := by
  rw [below, bytes_ofComponents proper]
  exact filterMap_segments_unsegment proper

theorem isAbsolute_ofComponents {components : List Component}
    (proper : ∀ component ∈ components, component.Proper) :
    (ofComponents components).isAbsolute = false := by
  rw [isAbsolute, bytes_ofComponents proper]
  cases components with
  | nil => rfl
  | cons component rest =>
      have properFirst := proper component List.mem_cons_self
      obtain ⟨c, text, spelled⟩ := List.exists_cons_of_ne_nil properFirst.bytes_ne_nil
      have other : c ≠ slash := by
        rintro rfl
        exact properFirst.whole (spelled ▸ List.mem_cons_self)
      cases rest <;> simp [unsegment, spelled, other]

theorem components_ofComponents {components : List Component}
    (proper : ∀ component ∈ components, component.Proper) :
    (ofComponents components).components = components := by
  rcases components_of_not_isAbsolute (isAbsolute_ofComponents proper) with plain | ⟨-, dot⟩
  · rw [plain, below_ofComponents proper]
  · -- no segment of a plain spelling is a `.`
    rw [bytes_ofComponents proper] at dot
    cases components with
    | nil => simp [unsegment, segments] at dot
    | cons component rest =>
        have whole : ∀ part ∈ (component :: rest).map (·.bytes), slash ∉ part :=
          List.forall_mem_map.mpr fun part found => (proper part found).whole
        rw [segments_unsegment (by simp) whole] at dot
        obtain ⟨part, found, text⟩ := List.mem_map.mp dot
        have read := (proper part found).segment
        rw [text] at read
        cases read

theorem ofComponents_singleton {component : Component} (proper : component.Proper) :
    ofComponents [component] = ⟨component.bytes⟩ := by
  cases component with
  | root => exact absurd rfl proper.ne_root
  | _ => simp [ofComponents, unsegment]

theorem components_join_ofComponents {base : Path} (absolute : base.isAbsolute)
    {names : List Component} (proper : ∀ name ∈ names, name.Proper) :
    (base.join (ofComponents names)).components = base.components ++ names := by
  rw [components_join absolute (isAbsolute_ofComponents proper), below_ofComponents proper]

theorem isAbsolute_name {name : Component} (proper : name.Proper) :
    (⟨name.bytes⟩ : Path).isAbsolute = false := by
  rw [← ofComponents_singleton proper]
  exact isAbsolute_ofComponents (List.forall_mem_singleton.mpr proper)

theorem below_name {name : Component} (proper : name.Proper) :
    (⟨name.bytes⟩ : Path).below = [name] := by
  rw [← ofComponents_singleton proper]
  exact below_ofComponents (List.forall_mem_singleton.mpr proper)

theorem isAbsolute_join_eq {base path : Path} (nonempty : base.bytes ≠ [])
    (relative : path.isAbsolute = false) : (base.join path).isAbsolute = base.isAbsolute := by
  obtain ⟨c, rest, text⟩ := List.exists_cons_of_ne_nil nonempty
  unfold join
  rw [relative, if_neg Bool.false_ne_true]
  split <;> simp [isAbsolute, text]

theorem isDotted_join {base path : Path} (nonempty : base.bytes ≠ [])
    (relative : path.isAbsolute = false) : (base.join path).isDotted = base.isDotted := by
  have first (front rest : Bytes) :
      (segments (front ++ slash :: rest)).head? = (segments front).head? := by
    obtain ⟨part, others, parts⟩ := List.exists_cons_of_ne_nil (segments_ne_nil front)
    rw [segments_append_slash, parts]
    rfl
  unfold join isDotted
  rw [relative, if_neg Bool.false_ne_true]
  split
  · rename_i ended
    obtain ⟨front, last, text⟩ := (List.eq_nil_or_concat base.bytes).resolve_left nonempty
    rw [List.concat_eq_append] at text
    rw [text] at ended
    have same : last = slash := by simpa using ended
    rw [text, same, List.append_assoc, List.singleton_append, first, first]
  · rw [first]

/-- A base that is written down keeps its components, a leading `.` among them. -/
theorem components_join_of_nonempty {base path : Path} (nonempty : base.bytes ≠ [])
    (relative : path.isAbsolute = false) :
    (base.join path).components = base.components ++ path.below := by
  rw [components, components, isAbsolute_join_eq nonempty relative,
    isDotted_join nonempty relative, below_join base relative]
  repeat' split
  all_goals rfl

/-- Whatever the base, a name that is joined to it becomes its last component. -/
theorem components_join_proper (base : Path) {name : Component} (proper : name.Proper) :
    (base.join ⟨name.bytes⟩).components = base.components ++ [name] := by
  have relative := isAbsolute_name proper
  by_cases empty : base.bytes = []
  · -- the name stands alone, and no name is a `.`
    have alone : base.join ⟨name.bytes⟩ = ofComponents [name] := by
      rw [ofComponents_singleton proper]
      simp [join, relative, empty]
    have bare : base.components = [] := by
      simp [components, isAbsolute, isDotted, below, empty, segments, Component.ofSegment?]
    rw [alone, components_ofComponents (List.forall_mem_singleton.mpr proper), bare,
      List.nil_append]
  · rw [components_join_of_nonempty empty relative, below_name proper]

theorem components_ofComponents_root {components : List Component}
    (proper : ∀ component ∈ components, component.Proper) :
    (ofComponents (.root :: components)).components = .root :: components := by
  have absolute : (ofComponents (.root :: components)).isAbsolute := rfl
  have read : (ofComponents (.root :: components)).below = components := by
    rw [below, ofComponents, segments_slash]
    exact filterMap_segments_unsegment proper
  rw [components_of_isAbsolute absolute, read]

end Path

end ShadowCheck
