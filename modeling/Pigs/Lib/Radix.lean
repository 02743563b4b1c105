import Mathlib.Data.List.Induction
import Mathlib.Data.Nat.Basic
import Mathlib.Tactic.Ring

/-! Numbers written with a fixed count of digits in a radix, the texts a program prints and parses
for them, and lists cut into chunks of one size. -/

namespace Pigs.Lib

section Chunks

variable {α : Type}

def chunksAux (size : Nat) : Nat → List α → List (List α)
  | 0, _ => []
  | _ + 1, [] => []
  | fuel + 1, item :: items =>
      (item :: items).take size :: chunksAux size fuel ((item :: items).drop size)

/-- Pieces of `size` items, the last one shorter when `size` does not divide the length. -/
def chunks (size : Nat) (items : List α) : List (List α) :=
  chunksAux size items.length items

theorem chunks_aux_fuel (size : Nat) (positive : 0 < size) (fuel : Nat) (items : List α)
    (enough : items.length ≤ fuel) : chunksAux size fuel items = chunks size items := by
  induction fuel using Nat.strong_induction_on generalizing items with
  | _ fuel ih =>
      cases items with
      | nil => cases fuel <;> rfl
      | cons item items =>
          simp only [List.length_cons] at enough
          obtain ⟨fuel, rfl⟩ : ∃ k, fuel = k + 1 := ⟨fuel - 1, by omega⟩
          have left : ((item :: items).drop size).length ≤ items.length := by
            simp only [List.length_drop, List.length_cons]
            omega
          simp only [chunks, chunksAux, List.length_cons]
          rw [ih fuel (by omega) _ (by omega)]
          by_cases last : items.length = fuel
          · rw [last, ih fuel (by omega) _ (by omega)]
          · rw [ih items.length (by omega) _ left]

@[simp] theorem chunks_nil (size : Nat) : chunks size ([] : List α) = [] := rfl

theorem chunks_take_drop (size : Nat) (positive : 0 < size) (items : List α) (some : items ≠ []) :
    chunks size items = items.take size :: chunks size (items.drop size) := by
  cases items with
  | nil => exact absurd rfl some
  | cons item items =>
      have left : ((item :: items).drop size).length ≤ items.length := by
        simp only [List.length_drop, List.length_cons]
        omega
      rw [← chunks_aux_fuel size positive items.length _ left]
      rfl

theorem chunks_append (size : Nat) (positive : 0 < size) (chunk rest : List α)
    (full : chunk.length = size) : chunks size (chunk ++ rest) = chunk :: chunks size rest := by
  have some : chunk ++ rest ≠ [] := by
    intro empty
    have none := congrArg List.length empty
    simp only [List.length_append, List.length_nil] at none
    omega
  rw [chunks_take_drop size positive _ some, List.take_left' full, List.drop_left' full]

/-- Full pieces are cut apart again. -/
theorem chunks_flatten (size : Nat) (positive : 0 < size) (pieces : List (List α))
    (full : ∀ chunk ∈ pieces, chunk.length = size) : chunks size pieces.flatten = pieces := by
  induction pieces with
  | nil => rfl
  | cons chunk pieces ih =>
      rw [List.flatten_cons, chunks_append size positive _ _ (full chunk (List.mem_cons_self ..)),
        ih (fun other member => full other (List.mem_cons_of_mem _ member))]

theorem flatten_chunks (size : Nat) (positive : 0 < size) (items : List α) :
    (chunks size items).flatten = items := by
  induction count : items.length using Nat.strong_induction_on generalizing items with
  | _ count ih =>
      by_cases empty : items = []
      · rw [empty]
        rfl
      · have shorter : (items.drop size).length < items.length := by
          have := List.length_pos_iff.mpr empty
          rw [List.length_drop]
          omega
        rw [chunks_take_drop size positive items empty, List.flatten_cons,
          ih _ (count ▸ shorter) _ rfl, List.take_append_drop]

/-- Chunk `k` starts at item `k * size`. -/
theorem mem_chunks (size : Nat) (positive : 0 < size) (items chunk : List α) :
    chunk ∈ chunks size items ↔
      ∃ k, size * k < items.length ∧ chunk = (items.drop (size * k)).take size := by
  induction count : items.length using Nat.strong_induction_on generalizing items with
  | _ count ih =>
      subst count
      by_cases empty : items = []
      · simp [empty]
      · have longer := List.length_pos_iff.mpr empty
        have shorter : (items.drop size).length < items.length := by
          rw [List.length_drop]
          omega
        rw [chunks_take_drop size positive items empty, List.mem_cons, ih _ shorter _ rfl]
        simp only [List.length_drop, List.drop_drop]
        constructor
        · rintro (first | ⟨k, bound, later⟩)
          · exact ⟨0, by omega, by simpa using first⟩
          · exact ⟨k + 1, by rw [Nat.mul_succ]; omega, by rw [Nat.mul_succ, Nat.add_comm]; exact later⟩
        · rintro ⟨k, bound, here⟩
          cases k with
          | zero => exact .inl (by simpa using here)
          | succ k =>
              rw [Nat.mul_succ] at bound here
              exact .inr ⟨k, by omega, by rw [Nat.add_comm]; exact here⟩

theorem length_of_mem_chunks (size : Nat) (positive : 0 < size) (items chunk : List α)
    (member : chunk ∈ chunks size items) : 0 < chunk.length ∧ chunk.length ≤ size := by
  obtain ⟨k, bound, rfl⟩ := (mem_chunks size positive items chunk).mp member
  simp only [List.length_take, List.length_drop]
  omega

theorem length_of_mem_chunks_dvd (size : Nat) (positive : 0 < size) (items chunk : List α)
    (whole : size ∣ items.length) (member : chunk ∈ chunks size items) : chunk.length = size := by
  obtain ⟨k, bound, rfl⟩ := (mem_chunks size positive items chunk).mp member
  obtain ⟨total, whole⟩ := whole
  have room : size * (k + 1) ≤ size * total := by
    apply Nat.mul_le_mul_left
    rw [whole] at bound
    exact Nat.lt_of_mul_lt_mul_left bound
  rw [Nat.mul_succ] at room
  simp only [List.length_take, List.length_drop]
  omega

/-- What holds of every item holds of those of every piece. -/
theorem forall_mem_chunks (size : Nat) (positive : 0 < size) (items : List α) {good : α → Prop}
    (all : ∀ item ∈ items, good item) : ∀ chunk ∈ chunks size items, ∀ item ∈ chunk, good item := by
  intro chunk member item within
  apply all
  rw [← flatten_chunks size positive items]
  exact List.mem_flatten.mpr ⟨chunk, member, within⟩

theorem chunks_map {β : Type} (size : Nat) (positive : 0 < size) (f : α → β) (items : List α) :
    chunks size (items.map f) = (chunks size items).map (List.map f) := by
  induction count : items.length using Nat.strong_induction_on generalizing items with
  | _ count ih =>
      subst count
      by_cases empty : items = []
      · rw [empty]
        rfl
      · have shorter : (items.drop size).length < items.length := by
          have := List.length_pos_iff.mpr empty
          rw [List.length_drop]
          omega
        rw [chunks_take_drop size positive items empty, List.map_cons, ← ih _ shorter _ rfl,
          chunks_take_drop size positive (items.map f) (by simpa using empty), List.map_take,
          List.map_drop]

end Chunks

/-- A loop that appends the output of each item, and fails in one way at the first bad one. -/
theorem foldlM_append {α β ε : Type} (step : List β → α → Except ε (List β)) (out : α → List β)
    (good : α → Prop) [DecidablePred good] (failure : ε) (items : List α)
    (turn : ∀ item ∈ items, ∀ done, step done item =
      if good item then .ok (done ++ out item) else .error failure) (done : List β) :
    items.foldlM step done =
      if ∀ item ∈ items, good item then .ok (done ++ items.flatMap out) else .error failure := by
  induction items generalizing done with
  | nil => simp [pure, Except.pure]
  | cons item items ih =>
      rw [List.foldlM_cons, turn item (List.mem_cons_self ..)]
      by_cases fine : good item
      · have rest := ih (fun other member => turn other (List.mem_cons_of_mem _ member)) (done ++ out item)
        rw [if_pos fine]
        simp only [bind, Except.bind, rest, List.flatMap_cons, List.append_assoc,
          List.forall_mem_cons, fine, true_and]
      · rw [if_neg fine, if_neg (fun every => fine (every item (List.mem_cons_self ..)))]
        rfl

/-- The number that `digits` write, the most significant first. -/
def value (radix : Nat) (digits : List Nat) : Nat :=
  digits.foldl (fun number digit => number * radix + digit) 0

/-- The last `width` digits of `number`, the most significant first. -/
def fixedDigits (radix : Nat) : Nat → Nat → List Nat
  | 0, _ => []
  | width + 1, number => fixedDigits radix width (number / radix) ++ [number % radix]

theorem value_append (radix : Nat) (digits : List Nat) (digit : Nat) :
    value radix (digits ++ [digit]) = value radix digits * radix + digit := by
  simp [value]

@[simp] theorem length_fixed_digits (radix width number : Nat) :
    (fixedDigits radix width number).length = width := by
  induction width generalizing number with
  | zero => rfl
  | succ width ih => simp [fixedDigits, ih]

theorem fixed_digits_lt (radix width number : Nat) (positive : 0 < radix) :
    ∀ digit ∈ fixedDigits radix width number, digit < radix := by
  induction width generalizing number with
  | zero => simp [fixedDigits]
  | succ width ih =>
      intro digit member
      simp only [fixedDigits, List.mem_append, List.mem_singleton] at member
      rcases member with earlier | rfl
      · exact ih _ digit earlier
      · exact Nat.mod_lt _ positive

theorem fixed_digits_zero (radix width : Nat) :
    fixedDigits radix width 0 = List.replicate width 0 := by
  induction width with
  | zero => rfl
  | succ width ih => simp [fixedDigits, ih, List.replicate_succ']

theorem value_fixed_digits (radix width number : Nat) (small : number < radix ^ width) :
    value radix (fixedDigits radix width number) = number := by
  induction width generalizing number with
  | zero =>
      have zero : number = 0 := by simpa using small
      rw [zero]
      rfl
  | succ width ih =>
      rw [fixedDigits, value_append, ih _ (Nat.div_lt_of_lt_mul (by rwa [Nat.pow_succ'] at small))]
      exact Nat.div_add_mod' number radix

theorem fixed_digits_value (radix : Nat) (digits : List Nat) (small : ∀ digit ∈ digits, digit < radix) :
    fixedDigits radix digits.length (value radix digits) = digits := by
  induction digits using List.reverseRecOn with
  | nil => rfl
  | append_singleton digits digit ih =>
      have last : digit < radix := small digit (by simp)
      have earlier := ih (fun other member => small other (by simp [member]))
      have quotient : (value radix digits * radix + digit) / radix = value radix digits := by
        rw [Nat.add_comm, Nat.add_mul_div_right _ _ (by omega), Nat.div_eq_of_lt last, Nat.zero_add]
      have remainder : (value radix digits * radix + digit) % radix = digit := by
        rw [Nat.add_comm, Nat.add_mul_mod_self_right, Nat.mod_eq_of_lt last]
      rw [List.length_append, List.length_singleton, fixedDigits, value_append, quotient, remainder,
        earlier]

theorem value_lt (radix : Nat) (digits : List Nat) (small : ∀ digit ∈ digits, digit < radix) :
    value radix digits < radix ^ digits.length := by
  induction digits using List.reverseRecOn with
  | nil => simp [value]
  | append_singleton digits digit ih =>
      have last : digit < radix := small digit (by simp)
      have earlier := ih (fun other member => small other (by simp [member]))
      rw [value_append, List.length_append, List.length_singleton, Nat.pow_succ]
      calc
        _ < value radix digits * radix + radix := by omega
        _ = (value radix digits + 1) * radix := by ring
        _ ≤ radix ^ digits.length * radix := Nat.mul_le_mul_right _ earlier

section Texts

/-- The text of `number` in `radix`, filled up with zeroes on the left. -/
def formatRadix (radix width number : Nat) : List Char :=
  (Nat.toDigits radix number).leftpad width '0'

def digitOf (ch : Char) : Option Nat :=
  if '0' ≤ ch ∧ ch ≤ '9' then
    some (ch.toNat - '0'.toNat)
  else if 'a' ≤ ch ∧ ch ≤ 'z' then
    some (ch.toNat - 'a'.toNat + 10)
  else if 'A' ≤ ch ∧ ch ≤ 'Z' then
    some (ch.toNat - 'A'.toNat + 10)
  else
    none

def toDigit (radix : Nat) (ch : Char) : Option Nat :=
  (digitOf ch).filter (· < radix)

/-- For a radix up to 16. -/
def fromDigit (radix number : Nat) : Option Char :=
  if number < radix then some number.digitChar else none

def parseDigits (limit radix : Nat) (number : Nat) : List Char → Option Nat
  | [] => some number
  | ch :: text => do
      let digit ← toDigit radix ch
      if number * radix + digit < limit then
        parseDigits limit radix (number * radix + digit) text
      else
        none

/-- Parsing of an unsigned integer below `limit`, after an optional plus sign. -/
def fromStrRadix (limit radix : Nat) (text : List Char) : Option Nat :=
  match text with
  | [] => none
  | ch :: rest =>
      if ch = '+' then
        if rest = [] then none else parseDigits limit radix 0 rest
      else
        parseDigits limit radix 0 (ch :: rest)

theorem digit_of_digit_char (digit : Nat) (small : digit < 16) :
    digitOf digit.digitChar = some digit := by
  have table : ∀ digit < 16, digitOf digit.digitChar = some digit := by decide
  exact table digit small

theorem to_digit_digit_char (radix digit : Nat) (known : radix ≤ 16) (small : digit < radix) :
    toDigit radix digit.digitChar = some digit := by
  rw [toDigit, digit_of_digit_char digit (by omega)]
  simpa using small

theorem parse_digits_map (limit radix : Nat) (known : radix ≤ 16) (digits : List Nat) (number : Nat)
    (small : ∀ digit ∈ digits, digit < radix)
    (room : (number + 1) * radix ^ digits.length ≤ limit) :
    parseDigits limit radix number (digits.map Nat.digitChar) =
      some (digits.foldl (fun number digit => number * radix + digit) number) := by
  induction digits generalizing number with
  | nil => rfl
  | cons digit digits ih =>
      have first := small digit (List.mem_cons_self ..)
      have next : (number * radix + digit + 1) * radix ^ digits.length ≤ limit := by
        calc
          _ ≤ ((number + 1) * radix) * radix ^ digits.length := by
            apply Nat.mul_le_mul_right
            rw [Nat.succ_mul]
            omega
          _ = (number + 1) * radix ^ (digits.length + 1) := by ring
          _ ≤ limit := room
      have positive : 0 < radix ^ digits.length := Nat.pow_pos (by omega)
      have below : number * radix + digit < limit := by
        calc
          _ < (number * radix + digit + 1) * 1 := by omega
          _ ≤ (number * radix + digit + 1) * radix ^ digits.length :=
            Nat.mul_le_mul_left _ positive
          _ ≤ limit := next
      simp only [List.map_cons, parseDigits, to_digit_digit_char radix digit known first,
        Option.bind_eq_bind, Option.bind_some, if_pos below, List.foldl_cons]
      exact ih _ (fun other member => small other (List.mem_cons_of_mem _ member)) next

theorem from_str_radix_map (limit radix : Nat) (known : radix ≤ 16) (digits : List Nat)
    (some : digits ≠ []) (small : ∀ digit ∈ digits, digit < radix)
    (room : radix ^ digits.length ≤ limit) :
    fromStrRadix limit radix (digits.map Nat.digitChar) = .some (value radix digits) := by
  cases digits with
  | nil => exact absurd rfl some
  | cons digit digits =>
      have unsigned : digit.digitChar ≠ '+' := Nat.digitChar_ne '+' (by decide)
      simp only [List.map_cons, fromStrRadix, if_neg unsigned]
      exact parse_digits_map limit radix known (digit :: digits) 0 small (by simpa using room)

theorem leftpad_append (width : Nat) (text : List Char) (last : Char) :
    (text ++ [last]).leftpad (width + 1) '0' = text.leftpad width '0' ++ [last] := by
  simp [List.leftpad]

/-- A number that fits is printed with exactly `width` digits. -/
theorem format_radix_eq (radix width number : Nat) (proper : 1 < radix) (positive : 0 < width)
    (small : number < radix ^ width) :
    formatRadix radix width number = (fixedDigits radix width number).map Nat.digitChar := by
  induction width generalizing number with
  | zero => omega
  | succ width ih =>
      simp only [formatRadix, fixedDigits, List.map_append, List.map_cons, List.map_nil]
      rw [Nat.toDigits_eq_if proper]
      by_cases single : number < radix
      · rw [if_pos single, Nat.div_eq_of_lt single, Nat.mod_eq_of_lt single, fixed_digits_zero]
        have zero : Nat.digitChar 0 = '0' := rfl
        rw [List.map_replicate, zero]
        simp [List.leftpad]
      · have more : 0 < width := by
          rcases Nat.eq_zero_or_pos width with rfl | more
          · simp only [Nat.zero_add, Nat.pow_one] at small
            omega
          · exact more
        rw [if_neg single, leftpad_append]
        rw [← ih (number / radix) more (Nat.div_lt_of_lt_mul (by rwa [Nat.pow_succ'] at small))]
        rfl

/-- A number with one digit more than `width` is printed without a zero in front. -/
theorem format_radix_wide (radix width number : Nat) (proper : 1 < radix) (positive : 0 < width)
    (large : radix ^ width ≤ number) (small : number < radix ^ (width + 1)) :
    formatRadix radix width number = (fixedDigits radix (width + 1) number).map Nat.digitChar := by
  rw [← format_radix_eq radix (width + 1) number proper (by omega) small]
  have long : ¬ (Nat.toDigits radix number).length ≤ width := by
    rw [Nat.length_toDigits_le_iff proper positive]
    omega
  have fill : width - (Nat.toDigits radix number).length = 0 := by omega
  have fill' : width + 1 - (Nat.toDigits radix number).length = 0 := by omega
  simp only [formatRadix, List.leftpad, fill, fill']

/-- A printed number is read back, where the limit leaves room for its digits. -/
theorem from_str_radix_to_digits (limit radix width number : Nat) (proper : 1 < radix) (known : radix ≤ 16)
    (positive : 0 < width) (small : number < radix ^ width) (room : radix ^ width ≤ limit) :
    fromStrRadix limit radix (Nat.toDigits radix number) = some number := by
  let length := (Nat.toDigits radix number).length
  have some : 0 < length := List.length_pos_iff.mpr Nat.toDigits_ne_nil
  have short : length ≤ width := (Nat.length_toDigits_le_iff proper positive).mpr small
  have fits : number < radix ^ length := (Nat.length_toDigits_le_iff proper some).mp (Nat.le_refl _)
  have printed := format_radix_eq radix length number proper some fits
  have unpadded : formatRadix radix length number = Nat.toDigits radix number := by
    simp [formatRadix, List.leftpad, length]
  rw [unpadded] at printed
  rw [printed, from_str_radix_map limit radix known, value_fixed_digits radix length number fits]
  · intro none
    have counted := length_fixed_digits radix length number
    rw [none, List.length_nil] at counted
    omega
  · exact fixed_digits_lt radix length number (by omega)
  · rw [length_fixed_digits]
    exact (Nat.pow_le_pow_right (by omega) short).trans room

end Texts

end Pigs.Lib
