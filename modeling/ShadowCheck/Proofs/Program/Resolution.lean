import ShadowCheck.Proofs.Program.Unplaced

/-!
What the name of a reference stands for. First declarations that have no type of
their own and a reference for their value lead from name to name; the type is settled
where such a chain stops. Every chain stops, and `typeOf` is the type found there.
-/

namespace ShadowCheck

open Script

theorem Primitive.ofText?_eq_some_iff {text : String} {type : Primitive} :
    ofText? text = some type ↔ text = type.text := by
  constructor
  · intro known
    unfold ofText? at known
    split at known
    all_goals cases known
    all_goals rfl
  · rintro rfl
    cases type <;> rfl

namespace Script.Declaration

/-- Whether a declaration is annotated with one of the types that there are. -/
def Annotates (declaration : Declaration) (type : Primitive) : Prop :=
  ∃ name, declaration.type? = some name ∧ name.text = type.text

theorem annotated?_eq_some_iff {declaration : Declaration} {type : Primitive} :
    declaration.annotated? = some type ↔ declaration.Annotates type := by
  simp only [annotated?, Option.bind_eq_some_iff, Primitive.ofText?_eq_some_iff, Annotates]

theorem annotated?_eq_none_iff {declaration : Declaration} :
    declaration.annotated? = none ↔ ∀ type, ¬ declaration.Annotates type := by
  simp only [Option.eq_none_iff_forall_ne_some, ne_eq, annotated?_eq_some_iff]

/-- The type of a declaration that does not lead on to another name. -/
inductive Settles (declaration : Declaration) : Primitive → Prop
  | annotated {type : Primitive} (annotates : declaration.Annotates type) :
      Settles declaration type
  | literal {value : Value} {type : Primitive} (bare : ∀ type, ¬ declaration.Annotates type)
      (initialized : declaration.initializer? = some value)
      (literal : value.primitive? = some type) : Settles declaration type
  | missing (bare : ∀ type, ¬ declaration.Annotates type)
      (uninitialized : declaration.initializer? = none) : Settles declaration .any

/-- Whether a declaration has the type of whatever another name stands for. -/
structure LeadsTo (declaration : Declaration) (name : Name) : Prop where
  bare : ∀ type, ¬ declaration.Annotates type
  initialized : declaration.initializer? = some (.reference name)

theorem settles_or_leadsTo (declaration : Declaration) :
    (∃ type, declaration.Settles type) ∨ ∃ name, declaration.LeadsTo name := by
  cases annotated : declaration.annotated? with
  | some type => exact .inl ⟨type, .annotated (annotated?_eq_some_iff.mp annotated)⟩
  | none =>
      have bare := annotated?_eq_none_iff.mp annotated
      cases initialized : declaration.initializer? with
      | none => exact .inl ⟨.any, .missing bare initialized⟩
      | some value =>
          cases value with
          | reference name => exact .inr ⟨name, bare, initialized⟩
          | _ => exact .inl ⟨_, .literal bare initialized rfl⟩

end Script.Declaration

namespace Program

/-- Whether a declaration is the first one of a name. -/
def IsFirst (scope : List Declaration) (name : String) (declaration : Declaration) : Prop :=
  ∃ before after, scope = before ++ declaration :: after ∧
    declaration.name.text = name ∧ ∀ other ∈ before, other.name.text ≠ name

/-- Names that lead from one to the next, and the name to which the last of them leads. -/
inductive Chain (scope : List Declaration) : String → List String → String → Prop
  | stop (name : String) : Chain scope name [] name
  | step {name last : String} {next : Name} {passed : List String} {declaration : Declaration}
      (first : IsFirst scope name declaration) (leads : declaration.LeadsTo next)
      (rest : Chain scope next.text passed last) : Chain scope name (name :: passed) last

/-- What is found where a chain stops: a name that it met before, a name that nothing
declares, or a declaration that settles the type. -/
inductive Stops (scope : List Declaration) (met : List String) (last : String) : Primitive → Prop
  | met (again : last ∈ met) : Stops scope met last .any
  | undeclared (undeclared : ∀ declaration ∈ scope, declaration.name.text ≠ last) :
      Stops scope met last .any
  | settled {declaration : Declaration} {type : Primitive} (fresh : last ∉ met)
      (first : IsFirst scope last declaration) (settles : declaration.Settles type) :
      Stops scope met last type

/-- The type of a name in the value of a declaration of the name `own`. -/
def Resolves (scope : List Declaration) (own name : String) (type : Primitive) : Prop :=
  ∃ passed last, Chain scope name passed last ∧ (own :: passed).Nodup ∧
    Stops scope (own :: passed) last type

theorem firstOf?_eq_some_iff {scope : List Declaration} {name : String}
    {declaration : Declaration} :
    firstOf? scope name = some declaration ↔ IsFirst scope name declaration := by
  simp only [firstOf?, IsFirst, List.find?_eq_some_iff_append, decide_eq_true_eq,
    Bool.not_eq_true', decide_eq_false_iff_not]
  constructor
  · rintro ⟨named, before, after, parts, others⟩
    exact ⟨before, after, parts, named, others⟩
  · rintro ⟨before, after, parts, named, others⟩
    exact ⟨named, before, after, parts, others⟩

theorem firstOf?_eq_none_iff {scope : List Declaration} {name : String} :
    firstOf? scope name = none ↔ ∀ declaration ∈ scope, declaration.name.text ≠ name := by
  simp [firstOf?]

/-! Names out of scope. -/

def withoutNames (scope : List Declaration) (names : List String) : List Declaration :=
  scope.filter fun declaration => declaration.name.text ∉ names

theorem withoutNames_append_singleton (scope : List Declaration) (names : List String)
    (name : String) :
    withoutNames scope (names ++ [name]) = withoutName (withoutNames scope names) name := by
  simp only [withoutNames, withoutName, List.filter_filter, List.mem_append, List.mem_singleton,
    not_or, Bool.decide_and, Bool.and_comm]

theorem firstOf?_withoutNames_of_mem {scope : List Declaration} {names : List String}
    {name : String} (found : name ∈ names) : firstOf? (withoutNames scope names) name = none := by
  rw [firstOf?_eq_none_iff]
  rintro declaration inside rfl
  exact of_decide_eq_true (List.mem_filter.mp inside).2 found

theorem firstOf?_withoutNames {scope : List Declaration} {names : List String} {name : String}
    (fresh : name ∉ names) :
    firstOf? (withoutNames scope names) name = firstOf? scope name := by
  rw [firstOf?, withoutNames, List.find?_filter, firstOf?]
  congr 1
  funext declaration
  by_cases named : declaration.name.text = name <;> simp [named, fresh]

theorem typeOf_of_settles {scope : List Declaration} {name : String} {declaration : Declaration}
    (found : firstOf? scope name = some declaration) {type : Primitive}
    (settles : declaration.Settles type) : typeOf scope name = type := by
  rw [typeOf_of_some found]
  cases settles with
  | annotated annotates => rw [Declaration.annotated?_eq_some_iff.mpr annotates]
  | @literal value type bare initialized literal =>
      rw [Declaration.annotated?_eq_none_iff.mpr bare, initialized]
      cases value with
      | reference next => cases literal
      | _ => cases literal; rfl
  | missing bare uninitialized =>
      rw [Declaration.annotated?_eq_none_iff.mpr bare, uninitialized]

theorem typeOf_of_leadsTo {scope : List Declaration} {name : String} {declaration : Declaration}
    (found : firstOf? scope name = some declaration) {next : Name}
    (leads : declaration.LeadsTo next) :
    typeOf scope name = typeOf (withoutName scope name) next.text := by
  rw [typeOf_of_some found, Declaration.annotated?_eq_none_iff.mpr leads.bare, leads.initialized]

/-- Two scopes agree on the type of a name if they have the same first declaration of it, and
remain alike for the name to which that declaration leads. -/
theorem typeOf_congr (Alike : List Declaration → List Declaration → String → Prop)
    (first : ∀ {scope other name}, Alike scope other name →
      firstOf? other name = firstOf? scope name)
    (onward : ∀ {scope other name declaration next}, Alike scope other name →
      firstOf? scope name = some declaration → declaration.LeadsTo next →
        Alike (withoutName scope name) (withoutName other name) next.text)
    {scope other : List Declaration} {name : String} (alike : Alike scope other name) :
    typeOf scope name = typeOf other name := by
  have same := first alike
  cases found : firstOf? scope name with
  | none => rw [typeOf_of_none found, typeOf_of_none (same.trans found)]
  | some declaration =>
      have foundToo := same.trans found
      rcases declaration.settles_or_leadsTo with ⟨type, settles⟩ | ⟨next, leads⟩
      · rw [typeOf_of_settles found settles, typeOf_of_settles foundToo settles]
      · have smaller := length_withoutName_lt found
        rw [typeOf_of_leadsTo found leads, typeOf_of_leadsTo foundToo leads]
        exact typeOf_congr Alike first onward (onward alike found leads)
termination_by scope.length

/-! Chains and types. -/

/-- The names that a chain has met are out of scope for the rest of it. -/
theorem Chain.typeOf_eq {scope : List Declaration} {name last : String}
    {passed : List String} (met : List String) (chain : Chain scope name passed last)
    (distinct : (met ++ passed).Nodup) {type : Primitive}
    (stops : Stops scope (met ++ passed) last type) :
    typeOf (withoutNames scope met) name = type := by
  induction chain generalizing met with
  | stop name =>
      rw [List.append_nil] at stops
      cases stops with
      | met again => exact typeOf_of_none (firstOf?_withoutNames_of_mem again)
      | undeclared undeclared =>
          apply typeOf_of_none
          rw [firstOf?_eq_none_iff]
          exact fun declaration inside => undeclared declaration (List.mem_filter.mp inside).1
      | settled fresh first settles =>
          have found := (firstOf?_withoutNames fresh).trans (firstOf?_eq_some_iff.mpr first)
          exact typeOf_of_settles found settles
  | @step name last next passed declaration first leads rest ih =>
      have fresh : name ∉ met := fun again =>
        (List.nodup_append.mp distinct).2.2 name again name List.mem_cons_self rfl
      have found := (firstOf?_withoutNames fresh).trans (firstOf?_eq_some_iff.mpr first)
      rw [List.append_cons] at distinct stops
      rw [typeOf_of_leadsTo found leads, ← withoutNames_append_singleton]
      exact ih (met ++ [name]) distinct stops

theorem exists_chain (scope : List Declaration) {met : List String} (distinct : met.Nodup)
    (name : String) :
    ∃ passed last, Chain scope name passed last ∧ (met ++ passed).Nodup ∧
      Stops scope (met ++ passed) last (typeOf (withoutNames scope met) name) := by
  have here : (met ++ []).Nodup := (List.append_nil met).symm ▸ distinct
  by_cases again : name ∈ met
  · rw [typeOf_of_none (firstOf?_withoutNames_of_mem again)]
    exact ⟨[], name, .stop name, here, .met (List.mem_append_left [] again)⟩
  cases first : firstOf? scope name with
  | none =>
      rw [typeOf_of_none ((firstOf?_withoutNames again).trans first)]
      exact ⟨[], name, .stop name, here, .undeclared (firstOf?_eq_none_iff.mp first)⟩
  | some declaration =>
      have found := (firstOf?_withoutNames again).trans first
      have isFirst := firstOf?_eq_some_iff.mp first
      rcases declaration.settles_or_leadsTo with ⟨type, settles⟩ | ⟨next, leads⟩
      · rw [typeOf_of_settles found settles]
        refine ⟨[], name, .stop name, here, .settled ?_ isFirst settles⟩
        rwa [List.append_nil]
      · -- The name just met leaves the scope, so the scope bounds the length of the chain.
        have longer : (met ++ [name]).Nodup := by
          rw [List.nodup_append]
          refine ⟨distinct, List.pairwise_singleton _ name, ?_⟩
          rintro other inside last here rfl
          exact again (List.mem_singleton.mp here ▸ inside)
        have smaller : (withoutNames scope (met ++ [name])).length <
            (withoutNames scope met).length := by
          rw [withoutNames_append_singleton]
          exact length_withoutName_lt found
        obtain ⟨passed, last, chain, distinct, stops⟩ := exists_chain scope longer next.text
        rw [typeOf_of_leadsTo found leads, ← withoutNames_append_singleton]
        rw [← List.append_cons] at distinct stops
        exact ⟨name :: passed, last, .step isFirst leads chain, distinct, stops⟩
termination_by (withoutNames scope met).length

theorem withoutNames_singleton (scope : List Declaration) (name : String) :
    withoutNames scope [name] = withoutName scope name := by
  simp [withoutNames, withoutName]

/-- A reference resolves to one type, the one that `typeOf` gives. -/
theorem typeOf_eq_iff {scope : List Declaration} {own name : String} {type : Primitive} :
    typeOf (withoutName scope own) name = type ↔ Resolves scope own name type := by
  rw [← withoutNames_singleton]
  constructor
  · rintro rfl
    exact exists_chain scope (List.pairwise_singleton _ own) name
  · rintro ⟨passed, last, chain, distinct, stops⟩
    exact Chain.typeOf_eq [own] chain distinct stops

end Program

end ShadowCheck
