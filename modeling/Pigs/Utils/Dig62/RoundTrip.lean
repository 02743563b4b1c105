import Pigs.Utils.Dig62.Groups

/-! `de` gives back the digits that `en` was given. -/

namespace Pigs.Utils.Dig62

open Pigs.Lib

/-- The characters `en` writes for a group. -/
def groupCode (val : Nat) : List Char :=
  (if val / 52 > 0 then [dDic.getD (val / 52) '0'] else []) ++ [aDic.getD (val % 52) 'q']

/-- The bits of decimal digits, four for each. -/
def digitBits (digits : List Nat) : List Nat :=
  digits.flatMap (fixedDigits 2 4)

/-- The zeroes `en` puts in front of `count` bits. -/
def padLen (count : Nat) : Nat :=
  if count % 9 ≠ 0 then 9 - count % 9 else 0

def padded (bits : List Nat) : List Nat :=
  List.replicate (padLen bits.length) 0 ++ bits

section Texts

theorem digit_char_of_is_digit (ch : Char) (digit : ch.isDigit) : ∃ d < 10, ch = d.digitChar := by
  have table : ∀ ch ∈ dDic, ∃ d < 10, ch = d.digitChar := by
    rw [← List.all_iff_forall_prop]
    decide
  exact table ch ((d_dic_digits ch).mpr digit)

theorem digits_of_text (text : List Char) (numeric : ∀ ch ∈ text, ch.isDigit) :
    ∃ digits : List Nat, (∀ digit ∈ digits, digit < 10) ∧ text = digits.map Nat.digitChar := by
  induction text with
  | nil => exact ⟨[], by simp, rfl⟩
  | cons ch text ih =>
      rw [List.forall_mem_cons] at numeric
      obtain ⟨digit, small, rfl⟩ := digit_char_of_is_digit ch numeric.1
      obtain ⟨digits, all, rfl⟩ := ih numeric.2
      exact ⟨digit :: digits, by simpa using ⟨small, all⟩, rfl⟩

theorem to_digit_not_digit (ch : Char) (other : ¬ ch.isDigit) : toDigit 10 ch = none := by
  simp only [Char.isDigit, ge_iff_le, Bool.and_eq_true, decide_eq_true_eq] at other
  simp only [toDigit, digitOf, Char.le_def]
  rw [if_neg other]
  split
  · simp
  · split
    · simp
    · rfl

theorem digit_char_code (digit : Nat) (small : digit < 10) : digit.digitChar.toNat - 48 = digit := by
  have table : ∀ digit < 10, digit.digitChar.toNat - 48 = digit := by decide
  exact table digit small

theorem push_digit_eq (tmpKey0 : List Char) (ch : Char) :
    pushDigit tmpKey0 ch =
      if ch.isDigit then .ok (tmpKey0 ++ formatRadix 2 4 (ch.toNat - 48))
      else .error (.sysError "Invalid digit_str") := by
  by_cases digit : ch.isDigit
  · obtain ⟨d, small, rfl⟩ := digit_char_of_is_digit ch digit
    rw [if_pos digit, digit_char_code d small]
    simp only [pushDigit, to_digit_digit_char 10 d (by omega) small, okOrElse]
    rfl
  · rw [if_neg digit]
    simp only [pushDigit, to_digit_not_digit ch digit, okOrElse]
    rfl

theorem push_digits_numeric (text : List Char) (numeric : ∀ ch ∈ text, ch.isDigit) :
    text.foldlM pushDigit [] = .ok (text.flatMap fun ch => formatRadix 2 4 (ch.toNat - 48)) := by
  rw [foldlM_append pushDigit _ _ _ text (fun ch _ done => push_digit_eq done ch), if_pos numeric]
  rfl

theorem push_digits_refused (text : List Char) (ch : Char) (present : ch ∈ text) (other : ¬ ch.isDigit) :
    text.foldlM pushDigit [] = .error (.sysError "Invalid digit_str") := by
  rw [foldlM_append pushDigit _ _ _ text (fun ch _ done => push_digit_eq done ch),
    if_neg (fun numeric => other (numeric ch present))]

theorem push_digits_map (digits : List Nat) (small : ∀ digit ∈ digits, digit < 10) :
    (digits.map Nat.digitChar).foldlM pushDigit [] = .ok ((digitBits digits).map Nat.digitChar) := by
  have numeric : ∀ ch ∈ digits.map Nat.digitChar, ch.isDigit := by
    intro ch member
    obtain ⟨digit, present, rfl⟩ := List.mem_map.mp member
    rw [Nat.isDigit_digitChar]
    exact decide_eq_true (small digit present)
  rw [push_digits_numeric _ numeric, List.flatMap_map, digitBits, List.map_flatMap]
  congr 1
  apply List.flatMap_congr
  intro digit present
  have below := small digit present
  rw [digit_char_code digit below, format_radix_eq 2 4 digit (by omega) (by omega) (by omega)]

end Texts

section Padding

theorem digit_bits_lt (digits : List Nat) : ∀ bit ∈ digitBits digits, bit < 2 := by
  intro bit member
  obtain ⟨digit, -, within⟩ := List.mem_flatMap.mp member
  exact fixed_digits_lt 2 4 digit (by omega) bit within

theorem padded_lt (bits : List Nat) (small : ∀ bit ∈ bits, bit < 2) : ∀ bit ∈ padded bits, bit < 2 := by
  intro bit member
  rcases List.mem_append.mp member with zero | given
  · rw [(List.mem_replicate.mp zero).2]
    omega
  · exact small bit given

theorem padded_length (bits : List Nat) : 9 ∣ (padded bits).length := by
  simp only [padded, List.length_append, List.length_replicate, padLen]
  split <;> omega

theorem drop_padded (bits : List Nat) : (padded bits).drop (padLen bits.length) = bits :=
  List.drop_left' (by simp)

theorem pad_len_lt (count : Nat) : padLen count < 52 := by
  simp only [padLen]
  split <;> omega

end Padding

section Groups

theorem getD_of_lt (dic : List Char) (i : Nat) (other : Char) (bound : i < dic.length) :
    dic[i]? = some (dic.getD i other) := by
  rw [List.getD_eq_getElem?_getD, List.getElem?_eq_getElem bound]
  rfl

theorem letter_at (val : Nat) : aDic[val % 52]? = some (aDic.getD (val % 52) 'q') :=
  getD_of_lt aDic _ 'q' (Nat.mod_lt _ (by decide))

theorem circle_at (val : Nat) (small : val < 520) : dDic[val / 52]? = some (dDic.getD (val / 52) '0') :=
  getD_of_lt dDic _ '0' (Nat.div_lt_of_lt_mul small)

theorem group_code_spells (val : Nat) (small : val < 520) {rest : List Char} {vals : List Nat}
    (later : Spells rest vals) : Spells (groupCode val ++ rest) (val :: vals) := by
  by_cases high : val / 52 > 0
  · have spelt := Spells.digit (circle_at val small) (letter_at val) later
    rw [Nat.div_add_mod'] at spelt
    rw [groupCode, if_pos high]
    exact spelt
  · have low : val % 52 = val := Nat.mod_eq_of_lt (by omega)
    have spelt := Spells.letter (letter_at val) later
    rw [groupCode, if_neg high]
    rw [low] at spelt ⊢
    exact spelt

theorem group_codes_spell (vals : List Nat) (small : ∀ val ∈ vals, val < 520) :
    Spells (vals.flatMap groupCode) vals := by
  induction vals with
  | nil => exact .done
  | cons val vals ih =>
      rw [List.forall_mem_cons] at small
      exact group_code_spells val small.1 (ih small.2)

theorem dic_at (dic : List Char) (i : Nat) (ch : Char) (known : dic[i]? = some ch) :
    dicAt dic i = .ok ch := by
  simp only [dicAt, known, expect]

theorem push_group_eq (dstKey : List Char) (bits : List Nat) (nine : bits.length = 9)
    (small : ∀ bit ∈ bits, bit < 2) :
    pushGroup dstKey (bits.map Nat.digitChar) = .ok (dstKey ++ groupCode (value 2 bits)) := by
  have some : bits ≠ [] := by
    rintro rfl
    simp at nine
  have below := value_lt 2 bits small
  rw [nine] at below
  have parsed := from_str_radix_map (2 ^ 64) 2 (by omega) bits some small (by rw [nine]; omega)
  have letters := dic_at aDic _ _ (letter_at (value 2 bits))
  have circles := dic_at dDic _ _ (circle_at (value 2 bits) (by omega))
  simp only [pushGroup, parsed, expect, bind, Except.bind, groupCode]
  by_cases high : value 2 bits / 52 > 0
  · simp only [if_pos high, circles, letters, pure, Except.pure, List.append_assoc]
  · simp only [if_neg high, letters, pure, Except.pure, List.nil_append]

/-- Nine bits write a number below 512. -/
theorem group_value_lt (bits : List Nat) (small : ∀ bit ∈ bits, bit < 2) (whole : 9 ∣ bits.length) :
    ∀ chunk ∈ chunks 9 bits, value 2 chunk < 512 := by
  intro chunk member
  have below := value_lt 2 chunk (forall_mem_chunks 9 (by omega) bits small chunk member)
  rwa [length_of_mem_chunks_dvd 9 (by omega) bits chunk whole member] at below

/-- The groups of nine bits are written one after the other. -/
theorem push_groups_eq (bits : List Nat) (small : ∀ bit ∈ bits, bit < 2) (whole : 9 ∣ bits.length)
    (header : Char) :
    (chunks 9 (bits.map Nat.digitChar)).foldlM pushGroup [header] =
      .ok (header :: ((chunks 9 bits).map (value 2)).flatMap groupCode) := by
  have turn : ∀ chunk ∈ chunks 9 bits, ∀ dstKey,
      pushGroup dstKey (chunk.map Nat.digitChar) = .ok (dstKey ++ groupCode (value 2 chunk)) := by
    intro chunk member dstKey
    apply push_group_eq
    · exact length_of_mem_chunks_dvd 9 (by omega) bits chunk whole member
    · exact forall_mem_chunks 9 (by omega) bits small chunk member
  rw [chunks_map 9 (by omega), List.foldlM_map]
  rw [foldlM_append _ (fun chunk => groupCode (value 2 chunk)) (fun _ => True) (.sysError "") _
    (fun chunk member dstKey => (turn chunk member dstKey).trans (if_pos trivial).symm)]
  rw [if_pos (fun _ _ => trivial), List.flatMap_map]
  rfl

/-- The values of the groups give their bits back. -/
theorem group_bits_values (bits : List Nat) (small : ∀ bit ∈ bits, bit < 2) (whole : 9 ∣ bits.length) :
    ((chunks 9 bits).map (value 2)).flatMap groupBits = bits := by
  have each : ∀ chunk ∈ chunks 9 bits, groupBits (value 2 chunk) = chunk := by
    intro chunk member
    have nine := length_of_mem_chunks_dvd 9 (by omega) bits chunk whole member
    rw [groupBits, if_pos (group_value_lt bits small whole chunk member), ← nine]
    exact fixed_digits_value 2 chunk (forall_mem_chunks 9 (by omega) bits small chunk member)
  calc
    _ = (chunks 9 bits).flatMap (fun chunk => groupBits (value 2 chunk)) := List.flatMap_map ..
    _ = (chunks 9 bits).flatMap id := List.flatMap_congr each
    _ = bits := by
      rw [List.flatMap_id, flatten_chunks 9 (by omega)]

end Groups

section Numbers

theorem push_number_eq (result : List Char) (bits : List Nat) (some : bits ≠ [])
    (four : bits.length ≤ 4) (small : ∀ bit ∈ bits, bit < 2) :
    pushNumber result (bits.map Nat.digitChar) =
      if value 2 bits ≤ 9 then .ok (result ++ [(value 2 bits).digitChar])
      else .error (.panicked "Invalid number") := by
  have room : 2 ^ bits.length ≤ 2 ^ 32 := Nat.pow_le_pow_right (by omega) (by omega)
  have parsed := from_str_radix_map (2 ^ 32) 2 (by omega) bits some small room
  simp only [pushNumber, parsed, expect, bind, Except.bind, fromDigit]
  by_cases decimal : value 2 bits ≤ 9
  · rw [if_pos decimal, if_pos (by omega)]
    rfl
  · rw [if_neg decimal, if_neg (by omega)]

/-- The loop of `de` over the bits that are left, four at a time. -/
theorem push_numbers_eq (bits : List Nat) (small : ∀ bit ∈ bits, bit < 2) :
    (chunks 4 (bits.map Nat.digitChar)).foldlM pushNumber [] =
      if ∀ chunk ∈ chunks 4 bits, value 2 chunk ≤ 9 then
        .ok ((chunks 4 bits).map fun chunk => (value 2 chunk).digitChar)
      else
        .error (.panicked "Invalid number") := by
  rw [chunks_map 4 (by omega), List.foldlM_map]
  rw [foldlM_append _ (fun chunk => [(value 2 chunk).digitChar]) (fun chunk => value 2 chunk ≤ 9)
    (.panicked "Invalid number")]
  · rw [List.nil_append, List.map_eq_flatMap]
  · intro chunk member result
    have size := length_of_mem_chunks 4 (by omega) bits chunk member
    apply push_number_eq
    · exact List.length_pos_iff.mp size.1
    · exact size.2
    · exact forall_mem_chunks 4 (by omega) bits small chunk member

theorem group_bits_lt (vals : List Nat) : ∀ bit ∈ vals.flatMap groupBits, bit < 2 := by
  intro bit member
  obtain ⟨val, -, within⟩ := List.mem_flatMap.mp member
  exact fixed_digits_lt 2 _ val (by omega) bit within

theorem dropped_bits_lt (vals : List Nat) (pad : Nat) :
    ∀ bit ∈ (vals.flatMap groupBits).drop pad, bit < 2 :=
  fun bit member => group_bits_lt vals bit (List.mem_of_mem_drop member)

/-- What `de` does with a text of the grammar. -/
theorem de_spells (num62 : String) (header : Char) (body : List Char) (pad : Nat) (vals : List Nat)
    (text : num62.toList = header :: body) (known : aDic[pad]? = some header)
    (spells : Spells body vals) :
    de num62 =
      if ∀ chunk ∈ chunks 4 ((vals.flatMap groupBits).drop pad), value 2 chunk ≤ 9 then
        .ok (String.ofList ((chunks 4 ((vals.flatMap groupBits).drop pad)).map
          fun chunk => (value 2 chunk).digitChar))
      else
        .error (.panicked "Invalid number") := by
  have lookup := (dic_map_eq_some aDic a_dic_nodup _ _).mpr known
  simp only [de, text, lookup, okOrElse, bind, Except.bind, read_groups_spells spells,
    List.nil_append, format_groups vals spells.small]
  rw [← List.map_drop, push_numbers_eq _ (dropped_bits_lt vals pad)]
  by_cases decimal : ∀ chunk ∈ chunks 4 ((vals.flatMap groupBits).drop pad), value 2 chunk ≤ 9
  · rw [if_pos decimal, if_pos decimal]
    rfl
  · rw [if_neg decimal, if_neg decimal]

end Numbers

/-- The text `en` writes for decimal digits. -/
theorem en_digits (digitStr : String) (digits : List Nat) (small : ∀ digit ∈ digits, digit < 10)
    (text : digitStr.toList = digits.map Nat.digitChar) :
    ∃ header, aDic[padLen (digitBits digits).length]? = some header ∧
      en digitStr = .ok (String.ofList (header ::
        ((chunks 9 (padded (digitBits digits))).map (value 2)).flatMap groupCode)) := by
  have binary := padded_lt _ (digit_bits_lt digits)
  have whole := padded_length (digitBits digits)
  have place : (if (digitBits digits).length % 9 ≠ 0 then 9 - (digitBits digits).length % 9 else 0) =
      padLen (digitBits digits).length := rfl
  have filled : (if (digitBits digits).length % 9 ≠ 0 then
        List.replicate (9 - (digitBits digits).length % 9) '0' ++ (digitBits digits).map Nat.digitChar
      else (digitBits digits).map Nat.digitChar) = (padded (digitBits digits)).map Nat.digitChar := by
    simp only [padded, padLen, List.map_append, List.map_replicate]
    split <;> rfl
  have letter : aDic[padLen (digitBits digits).length]? =
      some (aDic.getD (padLen (digitBits digits).length) 'q') :=
    getD_of_lt aDic _ 'q' (pad_len_lt _)
  refine ⟨_, letter, ?_⟩
  simp only [en, text, push_digits_map digits small, bind, Except.bind, List.length_map, filled, place,
    dic_at aDic _ _ letter, push_groups_eq _ binary whole]
  rfl

theorem de_en_digits (digitStr : String) (digits : List Nat) (small : ∀ digit ∈ digits, digit < 10)
    (text : digitStr.toList = digits.map Nat.digitChar) :
    ∃ header body, en digitStr = .ok (String.ofList (header :: body)) ∧ header.isAlpha ∧
      de (String.ofList (header :: body)) = .ok digitStr := by
  obtain ⟨header, known, encoded⟩ := en_digits digitStr digits small text
  refine ⟨header, _, encoded, (a_dic_letters _ (List.mem_of_getElem? known)).1, ?_⟩
  have binary := padded_lt _ (digit_bits_lt digits)
  have whole := padded_length (digitBits digits)
  have below : ∀ val ∈ (chunks 9 (padded (digitBits digits))).map (value 2), val < 520 := by
    intro val member
    obtain ⟨chunk, present, rfl⟩ := List.mem_map.mp member
    have bound := group_value_lt _ binary whole chunk present
    omega
  have cut : chunks 4 (digitBits digits) = digits.map (fixedDigits 2 4) := by
    rw [digitBits, List.flatMap_def, chunks_flatten 4 (by omega)]
    intro chunk member
    obtain ⟨digit, -, rfl⟩ := List.mem_map.mp member
    exact length_fixed_digits 2 4 digit
  have back : ∀ digit ∈ digits, value 2 (fixedDigits 2 4 digit) = digit := by
    intro digit member
    have := small digit member
    exact value_fixed_digits 2 4 digit (by omega)
  rw [de_spells _ header _ _ _ String.toList_ofList known (group_codes_spell _ below),
    group_bits_values _ binary whole, drop_padded, cut]
  have decimal : ∀ chunk ∈ digits.map (fixedDigits 2 4), value 2 chunk ≤ 9 := by
    intro chunk member
    obtain ⟨digit, present, rfl⟩ := List.mem_map.mp member
    have := small digit present
    rw [back digit present]
    omega
  have again : (digits.map (fixedDigits 2 4)).map (fun chunk => (value 2 chunk).digitChar) =
      digits.map Nat.digitChar := by
    rw [List.map_map]
    apply List.map_congr_left
    intro digit present
    exact congrArg Nat.digitChar (back digit present)
  rw [if_pos decimal, again, ← text, String.ofList_toList]

/-- Every text of decimal digits is encoded, behind a letter, and decoded again; a text with any other
character is refused. -/
theorem en_de_round_trip (digitStr : String) :
    ((∀ ch ∈ digitStr.toList, ch.isDigit) →
      ∃ header body, en digitStr = .ok (String.ofList (header :: body)) ∧ header.isAlpha ∧
        de (String.ofList (header :: body)) = .ok digitStr) ∧
    ((∃ msg, en digitStr = .error (.sysError msg)) ↔ ∃ ch ∈ digitStr.toList, ¬ ch.isDigit) := by
  have encodes : (∀ ch ∈ digitStr.toList, ch.isDigit) →
      ∃ header body, en digitStr = .ok (String.ofList (header :: body)) ∧ header.isAlpha ∧
        de (String.ofList (header :: body)) = .ok digitStr := by
    intro numeric
    obtain ⟨digits, small, text⟩ := digits_of_text digitStr.toList numeric
    exact de_en_digits digitStr digits small text
  refine ⟨encodes, ?_, ?_⟩
  · rintro ⟨msg, refused⟩
    by_contra none
    simp only [not_exists, not_and, not_not] at none
    obtain ⟨header, body, encoded, -⟩ := encodes none
    rw [encoded] at refused
    cases refused
  · rintro ⟨ch, present, other⟩
    refine ⟨"Invalid digit_str", ?_⟩
    simp only [en, push_digits_refused _ ch present other]
    rfl

end Pigs.Utils.Dig62
