import ShadowCheck.Text.Bytes

/-!
How bytes are shown. The bytes of a text are shown as that text, so texts are told apart by
their bytes. A byte of ASCII is shown as itself wherever it stands, and what is before it and
what is behind it are shown apart from each other.
-/

namespace ShadowCheck

namespace Bytes

/-! Characters at the front. -/

theorem char?_eq_some_iff {bytes : Bytes} {c : Char} :
    char? bytes = some c ↔ String.utf8EncodeChar c <+: bytes := by
  unfold char?
  constructor
  · intro read
    obtain ⟨others, whole⟩ := ByteArray.exists_of_utf8DecodeChar?_eq_some read
    have spelled := congrArg (·.data.toList) whole
    simp only [ByteArray.data_append, Array.toList_append, List.toList_data_toByteArray]
      at spelled
    have begins : String.utf8EncodeChar c <+: bytes.take 4 := ⟨_, spelled.symm⟩
    exact begins.trans (List.take_prefix 4 bytes)
  · rintro ⟨rest, rfl⟩
    have short : (String.utf8EncodeChar c).length ≤ 4 := by
      rw [String.length_utf8EncodeChar]
      exact c.utf8Size_le_four
    rw [List.take_append, List.take_of_length_le short, List.toByteArray_append]
    exact ByteArray.utf8DecodeChar?_utf8EncodeChar_append

/-- Only characters of ASCII have bytes of ASCII. -/
theorem utf8EncodeChar_of_mem {c : Char} {byte : UInt8} (ascii : byte < 0x80)
    (found : byte ∈ String.utf8EncodeChar c) : String.utf8EncodeChar c = [byte] := by
  have low : byte.toNat < 128 := UInt8.lt_iff_toNat_lt.mp ascii
  unfold String.utf8EncodeChar at found ⊢
  dsimp only at found ⊢
  split at found
  · rw [if_pos ‹_›, List.mem_singleton.mp found]
  -- every other byte has its highest bit set
  all_goals
    exfalso
    repeat' split at found
    all_goals
      simp only [List.mem_cons, List.not_mem_nil, or_false, ← UInt8.toNat_inj,
        UInt8.toNat_ofNat'] at found
      omega

theorem not_canBegin_of_ascii {byte : UInt8} (ascii : byte < 0x80) (lead : UInt8) :
    canBegin lead byte = false := by
  have low : byte.toNat < 128 := UInt8.lt_iff_toNat_lt.mp ascii
  have above : ∀ bound : UInt8, 128 ≤ bound.toNat → decide (bound ≤ byte) = false := by
    intro bound high
    rw [decide_eq_false_iff_not, UInt8.le_iff_toNat_le]
    omega
  unfold canBegin continues
  repeat' split
  all_goals simp [above]

theorem not_continues_of_ascii {byte : UInt8} (ascii : byte < 0x80) : continues byte = false := by
  have low : byte.toNat < 128 := UInt8.lt_iff_toNat_lt.mp ascii
  have below : ¬ (0x80 : UInt8) ≤ byte := by
    rw [UInt8.le_iff_toNat_le]
    exact Nat.not_le_of_lt low
  simp [continues, below]

theorem brokenOff_le (lead : UInt8) (rest : Bytes) : brokenOff lead rest ≤ rest.length := by
  fun_cases brokenOff lead rest <;> simp

/-- A byte of ASCII ends what was begun before it. -/
theorem brokenOff_append {byte : UInt8} (ascii : byte < 0x80) (lead : UInt8)
    (front rest : Bytes) : brokenOff lead (front ++ byte :: rest) = brokenOff lead front := by
  have apart := not_canBegin_of_ascii ascii lead
  match front with
  | [] => cases rest <;> simp [brokenOff, apart]
  | [second] => simp [brokenOff, not_continues_of_ascii ascii]
  | _ :: _ :: _ => rfl

/-- A character that begins before a byte of ASCII ends before it. -/
theorem char?_append {byte : UInt8} (ascii : byte < 0x80) (lead : UInt8) (front rest : Bytes) :
    char? (lead :: (front ++ byte :: rest)) = char? (lead :: front) := by
  apply Option.ext
  intro c
  rw [char?_eq_some_iff, char?_eq_some_iff, ← List.cons_append]
  constructor
  · intro begins
    have inside : lead :: front <+: lead :: front ++ byte :: rest := List.prefix_append _ _
    rcases List.prefix_or_prefix_of_prefix begins inside with within | ⟨more, spelled⟩
    · exact within
    cases more with
    | nil => exact ⟨[], by rw [List.append_nil, ← spelled, List.append_nil]⟩
    | cons first more =>
        rw [← spelled, List.prefix_append_right_inj, List.cons_prefix_cons] at begins
        have found : byte ∈ String.utf8EncodeChar c := by
          rw [← spelled, begins.1]
          exact List.mem_append_right _ List.mem_cons_self
        have lengths := congrArg List.length (spelled.trans (utf8EncodeChar_of_mem ascii found))
        simp only [List.length_append, List.length_cons, List.length_nil] at lengths
        omega
  · intro begins
    exact begins.trans (List.prefix_append _ _)

theorem readChar_of_utf8EncodeChar {c : Char} {lead : UInt8} {more : Bytes}
    (spelled : String.utf8EncodeChar c = lead :: more) (rest : Bytes) :
    readChar lead (more ++ rest) = (c, more.length) := by
  have read : char? (lead :: (more ++ rest)) = some c :=
    char?_eq_some_iff.mpr ⟨rest, by rw [spelled, List.cons_append]⟩
  have size := String.length_utf8EncodeChar c
  rw [spelled, List.length_cons] at size
  simp only [readChar, read]
  rw [← size, Nat.add_sub_cancel]

theorem readChar_le (lead : UInt8) (rest : Bytes) : (readChar lead rest).2 ≤ rest.length := by
  unfold readChar
  split
  · rename_i c read
    have short := (char?_eq_some_iff.mp read).length_le
    rw [String.length_utf8EncodeChar, List.length_cons] at short
    exact Nat.sub_le_of_le_add short
  · exact brokenOff_le lead rest

theorem readChar_append {byte : UInt8} (ascii : byte < 0x80) (lead : UInt8)
    (front rest : Bytes) : readChar lead (front ++ byte :: rest) = readChar lead front := by
  rw [readChar, readChar, char?_append ascii, brokenOff_append ascii]

/-! Shown texts. -/

@[simp] theorem shown_nil : shown [] = [] := rfl

theorem shown_cons (lead : UInt8) (rest : Bytes) :
    shown (lead :: rest) =
      (readChar lead rest).1 :: shownFrom (readChar lead rest).2 rest := rfl

theorem shown_eq_nil_iff {bytes : Bytes} : bytes.shown = [] ↔ bytes = [] := by
  cases bytes with
  | nil => exact iff_of_true rfl rfl
  | cons lead rest => exact iff_of_false (List.cons_ne_nil _ _) (List.cons_ne_nil _ _)

theorem shownFrom_length_append (read rest : Bytes) :
    shownFrom read.length (read ++ rest) = shown rest := by
  induction read with
  | nil => rfl
  | cons _ more ih => exact ih

/-- A text is shown as it is, whatever comes after it. -/
theorem shown_bytesOf_append (text : List Char) (rest : Bytes) :
    shown (bytesOf text ++ rest) = text ++ shown rest := by
  induction text with
  | nil => rfl
  | cons c text ih =>
      obtain ⟨lead, more, spelled⟩ :=
        List.exists_cons_of_ne_nil (@String.utf8EncodeChar_ne_nil c)
      have read := readChar_of_utf8EncodeChar spelled (bytesOf text ++ rest)
      have whole : bytesOf (c :: text) ++ rest = lead :: (more ++ (bytesOf text ++ rest)) := by
        rw [bytesOf, List.flatMap_cons, spelled, List.cons_append, List.cons_append,
          List.append_assoc]
        rfl
      rw [whole, shown_cons, read, shownFrom_length_append, ih]
      rfl

@[simp] theorem shown_bytesOf (text : List Char) : shown (bytesOf text) = text := by
  have whole := shown_bytesOf_append text []
  rwa [List.append_nil, shown_nil, List.append_nil] at whole

theorem bytesOf_injective : Function.Injective bytesOf :=
  Function.LeftInverse.injective shown_bytesOf

theorem isText_bytesOf (text : List Char) : IsText (bytesOf text) := by
  rw [IsText, shown_bytesOf]

theorem isText_iff (bytes : Bytes) : bytes.IsText ↔ ∃ text, bytesOf text = bytes := by
  constructor
  · exact fun isText => ⟨_, isText⟩
  · rintro ⟨text, rfl⟩
    exact isText_bytesOf text

theorem IsText.eq_of_shown_eq {left right : Bytes} (leftText : left.IsText)
    (rightText : right.IsText) (same : left.shown = right.shown) : left = right := by
  rw [← leftText, ← rightText, same]

theorem bytesOf_append (front text : List Char) :
    bytesOf (front ++ text) = bytesOf front ++ bytesOf text :=
  List.flatMap_append

theorem length_le_bytesOf (text : List Char) : text.length ≤ (bytesOf text).length := by
  induction text with
  | nil => exact Nat.zero_le _
  | cons c text ih =>
      have positive := c.utf8Size_pos
      rw [bytesOf, List.flatMap_cons, List.length_append, String.length_utf8EncodeChar,
        List.length_cons]
      change _ ≤ _ + (bytesOf text).length
      omega

/-! Marks. -/

/-- A character of ASCII and its byte. -/
structure IsMark (mark : Char) (byte : UInt8) : Prop where
  spelled : String.utf8EncodeChar mark = [byte]
  ascii : byte < 0x80

theorem isMark_slash : IsMark '/' slash := ⟨by decide, by decide⟩

theorem isMark_dot : IsMark '.' dot := ⟨by decide, by decide⟩

section

variable {mark : Char} {byte : UInt8} (isMark : IsMark mark byte)

include isMark

theorem IsMark.bytesOf_cons (text : List Char) :
    bytesOf (mark :: text) = byte :: bytesOf text := by
  rw [bytesOf, List.flatMap_cons, isMark.spelled]
  rfl

theorem IsMark.bytesOf_replicate (count : Nat) :
    bytesOf (List.replicate count mark) = List.replicate count byte := by
  induction count with
  | zero => rfl
  | succ count ih => rw [List.replicate_succ, isMark.bytesOf_cons, ih, List.replicate_succ]

theorem IsMark.shownFrom_append {front : Bytes} {skipped : Nat}
    (inside : skipped ≤ front.length) (rest : Bytes) :
    shownFrom skipped (front ++ byte :: rest) =
      shownFrom skipped front ++ mark :: shown rest := by
  induction front generalizing skipped with
  | nil =>
      cases Nat.le_zero.mp inside
      have read := readChar_of_utf8EncodeChar isMark.spelled rest
      rw [List.nil_append] at read
      change shown (byte :: rest) = _
      rw [shown_cons, read]
      rfl
  | cons lead front ih =>
      cases skipped with
      | succ skipped => exact ih (Nat.le_of_succ_le_succ inside)
      | zero =>
          change shown (lead :: (front ++ byte :: rest)) = shown (lead :: front) ++ _
          rw [shown_cons, shown_cons, readChar_append isMark.ascii,
            ih (readChar_le lead front)]
          rfl

/-- What is before a mark and what is behind it are shown apart from each other. -/
theorem IsMark.shown_append (front rest : Bytes) :
    shown (front ++ byte :: rest) = shown front ++ mark :: shown rest :=
  isMark.shownFrom_append (Nat.zero_le _) rest

theorem IsMark.ne_replacement : mark ≠ replacement := by
  intro same
  have short : (String.utf8EncodeChar mark).length = 1 := by rw [isMark.spelled]; rfl
  rw [same] at short
  exact absurd short (by decide)

theorem IsMark.mem_of_mem_shownFrom {bytes : Bytes} {skipped : Nat}
    (found : mark ∈ shownFrom skipped bytes) : byte ∈ bytes := by
  induction bytes generalizing skipped with
  | nil => cases found
  | cons lead rest ih =>
      cases skipped with
      | succ skipped => exact List.mem_cons_of_mem lead (ih found)
      | zero =>
          change mark ∈ (readChar lead rest).1 :: shownFrom (readChar lead rest).2 rest at found
          rcases List.mem_cons.mp found with here | later
          · unfold readChar at here
            split at here
            · rename_i c read
              have begins := char?_eq_some_iff.mp read
              rw [← show mark = c from here, isMark.spelled, List.cons_prefix_cons] at begins
              rw [begins.1]
              exact List.mem_cons_self
            · exact absurd here isMark.ne_replacement
          · exact List.mem_cons_of_mem lead (ih later)

theorem IsMark.mem_shown_iff {bytes : Bytes} : mark ∈ bytes.shown ↔ byte ∈ bytes := by
  constructor
  · exact isMark.mem_of_mem_shownFrom
  · intro found
    obtain ⟨front, rest, rfl⟩ := List.append_of_mem found
    rw [isMark.shown_append]
    exact List.mem_append_right _ List.mem_cons_self

theorem IsMark.mem_bytesOf_iff {text : List Char} : byte ∈ bytesOf text ↔ mark ∈ text := by
  rw [← isMark.mem_shown_iff, shown_bytesOf]

theorem IsMark.exists_of_bytesOf_eq {text : List Char} {front rest : Bytes}
    (spelled : bytesOf text = front ++ byte :: rest) :
    (∃ before, bytesOf before = front) ∧ ∃ behind, bytesOf behind = rest := by
  induction text generalizing front with
  | nil => exact absurd spelled.symm (List.append_ne_nil_of_right_ne_nil _ (List.cons_ne_nil _ _))
  | cons c text ih =>
      change String.utf8EncodeChar c ++ bytesOf text = _ at spelled
      rcases List.append_eq_append_iff.mp spelled with
        ⟨between, inFront, later⟩ | ⟨between, encoded, later⟩
      · obtain ⟨⟨before, same⟩, behind⟩ := ih later
        exact ⟨⟨c :: before, by rw [inFront, ← same]; rfl⟩, behind⟩
      · cases between with
        | nil =>
            obtain ⟨-, behind⟩ := @ih [] later.symm
            exact ⟨⟨[c], by rw [List.append_nil] at encoded; simp [bytesOf, encoded]⟩, behind⟩
        | cons first between =>
            rw [List.cons_append, List.cons.injEq] at later
            have found : byte ∈ String.utf8EncodeChar c := by
              rw [encoded, ← later.1]
              exact List.mem_append_right _ List.mem_cons_self
            rw [utf8EncodeChar_of_mem isMark.ascii found] at encoded
            have lengths := congrArg List.length encoded
            simp only [List.length_append, List.length_cons, List.length_nil] at lengths
            have noFront : front = [] := List.eq_nil_of_length_eq_zero (by omega)
            have noMore : between = [] := List.eq_nil_of_length_eq_zero (by omega)
            refine ⟨⟨[], noFront.symm⟩, ⟨text, ?_⟩⟩
            rw [later.2, noMore, List.nil_append]

/-- A mark ends one text and begins another. -/
theorem IsMark.isText_append_iff {front rest : Bytes} :
    IsText (front ++ byte :: rest) ↔ IsText front ∧ IsText rest := by
  simp only [isText_iff]
  constructor
  · rintro ⟨text, spelled⟩
    exact isMark.exists_of_bytesOf_eq spelled
  · rintro ⟨⟨before, rfl⟩, behind, rfl⟩
    exact ⟨before ++ mark :: behind, by rw [bytesOf_append, isMark.bytesOf_cons]⟩

/-- Only marks are shown as marks alone. -/
theorem IsMark.eq_replicate {count : Nat} {bytes : Bytes}
    (marks : bytes.shown = List.replicate count mark) : bytes = List.replicate count byte := by
  induction count generalizing bytes with
  | zero => exact shown_eq_nil_iff.mp marks
  | succ count ih =>
      rw [List.replicate_succ] at marks ⊢
      have found : mark ∈ bytes.shown := by
        rw [marks]
        exact List.mem_cons_self
      obtain ⟨front, rest, rfl, first⟩ :=
        List.eq_append_cons_of_mem (isMark.mem_shown_iff.mp found)
      rw [isMark.shown_append] at marks
      cases shownFront : shown front with
      | nil =>
          rw [shownFront] at marks
          rw [shown_eq_nil_iff.mp shownFront, ih (List.tail_eq_of_cons_eq marks)]
          rfl
      | cons c more =>
          rw [shownFront, List.cons_append, List.cons.injEq] at marks
          refine absurd (isMark.mem_shown_iff.mp ?_) first
          rw [shownFront, marks.1]
          exact List.mem_cons_self

/-- Only marks are read back as marks from what they are shown as. -/
theorem IsMark.bytesOf_shown_eq_replicate_iff {count : Nat} {bytes : Bytes} :
    bytesOf bytes.shown = List.replicate count byte ↔ bytes = List.replicate count byte := by
  constructor
  · intro same
    rw [← isMark.bytesOf_replicate] at same
    exact isMark.eq_replicate (bytesOf_injective same)
  · rintro rfl
    rw [← isMark.bytesOf_replicate, shown_bytesOf]

end

end Bytes

end ShadowCheck
