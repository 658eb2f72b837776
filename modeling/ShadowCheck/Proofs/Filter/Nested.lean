import ShadowCheck.Proofs.Filter.Levels

/-!
How deep a pattern can be nested. Braces around a name are one level each, and no list can
be made of rules of which one has too many levels.
-/

namespace ShadowCheck.Filter

namespace Rule

section

variable {init : List Char} {last : Char}

theorem trimLine_of_not_isBlank (unblank : Text.isBlank last = false) :
    trimLine (init ++ [last]) = init ++ [last] := by
  unfold trimLine
  split
  · rfl
  · unfold Text.trimRight
    rw [List.reverse_concat, List.dropWhile_cons_of_neg (by simp [unblank]),
      ← List.reverse_concat, List.reverse_reverse]

theorem readBack_of_ne_slash (other : last ≠ '/') :
    readBack (init ++ [last]) = (false, init ++ [last]) := by
  unfold readBack
  rw [List.reverse_concat]
  split <;> simp_all

theorem globText_of_not_mem (slash : '/' ∉ init ++ [last]) (star : last ≠ '*') :
    globText false (init ++ [last]) = '*' :: '*' :: '/' :: (init ++ [last]) := by
  have stars : init ++ [last] ≠ ['*', '*'] := fun same =>
    star (List.singleton_inj.mp (List.append_inj' (show init ++ [last] = ['*'] ++ ['*'] from same)
      rfl).2)
  have anywhere : (!false && !(init ++ [last]).contains '/' && init ++ [last] != ['*', '*']) =
      true := by simp [slash, stars]
  unfold globText
  simp only [anywhere, if_true]
  split
  · rename_i ending
    obtain ⟨front, whole⟩ := List.isSuffixOf_iff_suffix.mp ending
    have same := congrArg List.getLast? whole
    rw [List.getLast?_append, ← List.cons_append, ← List.cons_append, ← List.cons_append,
      List.getLast?_concat] at same
    cases same
    exact absurd rfl star
  · rfl

end

/-- A line without special characters is a name that is looked for at any depth. -/
theorem ofLine?_of_ordinary {line : String} {text : List Char} (spelled : line.toList = text)
    (nonempty : text ≠ []) (ordinary : ∀ c ∈ text, c ∉ ['#', '!', '/', '\\', '*'])
    (unblank : ∀ c ∈ text, Text.isBlank c = false) :
    ofLine? line =
      (Glob.read? ('*' :: '*' :: '/' :: text)).map fun parts => ⟨false, false, parts⟩ := by
  have notComment : text.head? ≠ some '#' := fun front =>
    ordinary '#' (List.mem_of_head? front) (by simp)
  have front : readFront text = (false, false, text) := by
    clear spelled unblank nonempty notComment
    fun_cases readFront text <;> simp_all
  obtain ⟨init, last, rfl⟩ := (List.eq_nil_or_concat text).resolve_left nonempty
  rw [List.concat_eq_append] at *
  have special := ordinary last (by simp)
  have trimmed : trimLine (init ++ [last]) = init ++ [last] :=
    trimLine_of_not_isBlank (unblank last (by simp))
  have back : readBack (init ++ [last]) = (false, init ++ [last]) :=
    readBack_of_ne_slash (by rintro rfl; simp at special)
  have glob : globText false (init ++ [last]) = '*' :: '*' :: '/' :: (init ++ [last]) :=
    globText_of_not_mem (fun found => ordinary '/' found (by simp))
      (by rintro rfl; simp at special)
  unfold ofLine?
  rw [spelled, if_neg (by simpa using notComment), trimmed]
  dsimp only
  rw [if_neg (by simp), front]
  dsimp only
  rw [back]
  dsimp only
  rw [glob]

end Rule

/-- A name between so many pairs of braces. -/
def braced (count : Nat) : String :=
  String.ofList (List.replicate count '{' ++ 'a' :: List.replicate count '}')

theorem toList_braced (count : Nat) :
    (braced count).toList = List.replicate count '{' ++ 'a' :: List.replicate count '}' :=
  String.toList_ofList

theorem eq_of_mem_braced {count : Nat} {c : Char} (found : c ∈ (braced count).toList) :
    c = '{' ∨ c = 'a' ∨ c = '}' := by
  rw [toList_braced, List.mem_append, List.mem_cons, List.mem_replicate,
    List.mem_replicate] at found
  rcases found with ⟨-, rfl⟩ | rfl | ⟨-, rfl⟩ <;> simp

theorem plain_braced (count : Nat) : Plain [braced count] := by
  unfold Plain
  rw [List.forall_mem_singleton]
  intro front
  rcases eq_of_mem_braced (List.mem_of_head? front) with mark | mark | mark <;> cases mark

namespace Glob

/-- What is read from a name between braces. -/
def grouped : Nat → Glob
  | 0 => .char 'a'
  | count + 1 => .group (.seq (grouped count) .empty)

theorem isEmpty_grouped (count : Nat) : (grouped count).isEmpty = false := by
  cases count <;> rfl

theorem width_grouped (count : Nat) : (grouped count).width = 1 := by
  cases count <;> rfl

theorem levels_grouped (count : Nat) : (grouped count).levels = count := by
  induction count with
  | zero => rfl
  | succ count ih =>
      change rowLevels ((grouped count).width + 0) (max (grouped count).levels 0) + 1 = count + 1
      rw [width_grouped, ih]
      simp [rowLevels]

theorem readParts_braced (count : Nat) (reading : Reading) (rest : List Char) :
    ∃ last, readParts reading
        (List.replicate count '{' ++ 'a' :: (List.replicate count '}' ++ rest)) =
      readParts (reading.push (grouped count) last) rest := by
  induction count generalizing reading rest with
  | zero =>
      refine ⟨'a', ?_⟩
      conv_lhs => rw [readParts.eq_def]
      rfl
  | succ count ih =>
      refine ⟨'}', ?_⟩
      obtain ⟨last, inner⟩ := ih reading.openBrace ('}' :: rest)
      have opened : readParts reading (List.replicate (count + 1) '{' ++
            'a' :: (List.replicate (count + 1) '}' ++ rest)) =
          readParts reading.openBrace
            (List.replicate count '{' ++ 'a' :: (List.replicate count '}' ++ '}' :: rest)) := by
        rw [List.replicate_succ, List.replicate_succ', List.append_assoc, List.cons_append,
          readParts.eq_def]
        rfl
      have closed : (reading.openBrace.push (grouped count) last).closeBrace? =
          some (reading.push (grouped (count + 1)) '}') := by
        simp [Reading.closeBrace?, Reading.openBrace, Reading.push, grouped, choice, sequence,
          isEmpty_grouped, Glob.isEmpty]
      rw [opened, inner]
      conv_lhs => rw [readParts.eq_def]
      dsimp only
      rw [closed]
      rfl

end Glob

theorem ofLine?_braced (count : Nat) :
    Rule.ofLine? (braced count) = some ⟨false, false, [.anyFront, Glob.grouped count]⟩ := by
  rw [Rule.ofLine?_of_ordinary rfl (by simp [toList_braced])]
  · obtain ⟨last, inner⟩ := Glob.readParts_braced count (Glob.Reading.begin.push .anyFront '/') []
    have front (text : List Char) : Glob.read? ('*' :: '*' :: '/' :: text) =
        Glob.readParts (Glob.Reading.begin.push .anyFront '/') text := by
      unfold Glob.read?
      rw [Glob.readParts.eq_def]
      rfl
    rw [toList_braced, front, ← List.append_nil (List.replicate count '}'), inner,
      Glob.readParts.eq_def]
    rfl
  · intro c found
    rcases eq_of_mem_braced found with rfl | rfl | rfl <;> decide
  · intro c found
    rcases eq_of_mem_braced found with rfl | rfl | rfl <;> decide

/-- A name can stand between 249 pairs of braces, not more. -/
theorem usable_braced_iff (count : Nat) : Usable [braced count] ↔ count < Glob.mostLevels := by
  have rules : [braced count].filterMap Rule.ofLine? =
      [⟨false, false, [.anyFront, Glob.grouped count]⟩] :=
    List.filterMap_cons_some (ofLine?_braced count)
  unfold Usable RuleList.canBuild
  rw [rules]
  have levels : (Glob.sequence [.anyFront, Glob.grouped count]).levels = max 4 count := by
    change max 4 (max (Glob.grouped count).levels 0) = max 4 count
    rw [Glob.levels_grouped, Nat.max_zero]
  simp only [List.any_cons, List.any_nil, Bool.or_false, Bool.not_eq_true', Glob.isTooDeep,
    levels, decide_eq_false_iff_not]
  unfold Glob.mostLevels
  omega

theorem not_usable_of_braced_mem {count : Nat} (deep : Glob.mostLevels ≤ count)
    {lines : List String} (found : braced count ∈ lines) : ¬ Usable lines := by
  intro usable
  have alone : Usable [braced count] := usable.of_subset (by simpa using found)
  exact Nat.not_lt.mpr deep ((usable_braced_iff count).mp alone)

end ShadowCheck.Filter
