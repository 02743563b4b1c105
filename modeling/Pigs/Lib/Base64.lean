import Mathlib.Data.List.DropRight
import Mathlib.Data.List.Nodup

/-! Base64 with and without padding: bytes as groups of six bits, and the strict decoding that takes back
only what is written for them. -/

namespace Pigs.Lib.Base64

structure Alphabet where
  symbols : List Char
  size : symbols.length = 64
  distinct : symbols.Nodup
  unpadded : '=' ∉ symbols

def standard : Alphabet where
  symbols := "ABCDEFGHIJKLMNOPQRSTUVWXYZabcdefghijklmnopqrstuvwxyz0123456789+/".toList
  size := rfl
  distinct := by decide +kernel
  unpadded := by decide +kernel

def urlSafe : Alphabet where
  symbols := "ABCDEFGHIJKLMNOPQRSTUVWXYZabcdefghijklmnopqrstuvwxyz0123456789-_".toList
  size := rfl
  distinct := by decide +kernel
  unpadded := by decide +kernel

def sextets : List Nat → List Nat
  | [] => []
  | [a] => [a / 4, a % 4 * 16]
  | [a, b] => [a / 4, a % 4 * 16 + b / 16, b % 16 * 4]
  | a :: b :: c :: rest =>
      a / 4 :: (a % 4 * 16 + b / 16) :: (b % 16 * 4 + c / 64) :: c % 64 :: sextets rest

/-- A last group of one symbol, or with bits that no byte takes, is refused. -/
def octets : List Nat → Option (List Nat)
  | [] => some []
  | [_] => none
  | [w, x] => if x % 16 = 0 then some [w * 4 + x / 16] else none
  | [w, x, y] =>
      if y % 4 = 0 then some [w * 4 + x / 16, x % 16 * 16 + y / 4] else none
  | w :: x :: y :: z :: rest => do
      let bytes ← octets rest
      return (w * 4 + x / 16) :: (x % 16 * 16 + y / 4) :: (y % 4 * 64 + z) :: bytes

/-- A whole number of groups of four symbols. -/
def pad (symbols : List Char) : List Char := symbols ++ List.replicate ((4 - symbols.length % 4) % 4) '='

namespace Alphabet

def encode (alphabet : Alphabet) (bytes : List UInt8) : String :=
  String.ofList ((sextets (bytes.map UInt8.toNat)).map fun sextet => alphabet.symbols.getD sextet 'A')

def decode (alphabet : Alphabet) (text : String) : Option (List UInt8) := do
  let values ← text.toList.mapM fun symbol => alphabet.symbols.idxOf? symbol
  let bytes ← octets values
  return bytes.map UInt8.ofNat

def encodePadded (alphabet : Alphabet) (bytes : List UInt8) : String :=
  String.ofList (pad (alphabet.encode bytes).toList)

/-- The padding is the one that is written. -/
def decodePadded (alphabet : Alphabet) (text : String) : Option (List UInt8) :=
  let body := text.toList.rdropWhile (· = '=')
  if pad body = text.toList then alphabet.decode (String.ofList body) else none

end Alphabet

theorem sextets_lt (bytes : List Nat) (small : ∀ byte ∈ bytes, byte < 256) :
    ∀ sextet ∈ sextets bytes, sextet < 64 := by
  fun_induction sextets bytes with
  | case1 => simp
  | case2 a =>
      simp only [List.forall_mem_cons] at small ⊢
      exact ⟨by omega, by omega, by simp⟩
  | case3 a b =>
      simp only [List.forall_mem_cons] at small ⊢
      exact ⟨by omega, by omega, by omega, by simp⟩
  | case4 a b c rest ih =>
      simp only [List.forall_mem_cons] at small ⊢
      exact ⟨by omega, by omega, by omega, by omega, ih small.2.2.2⟩

theorem octets_sextets (bytes : List Nat) (small : ∀ byte ∈ bytes, byte < 256) :
    octets (sextets bytes) = some bytes := by
  fun_induction sextets bytes with
  | case1 => rfl
  | case2 a =>
      simp only [List.forall_mem_cons] at small
      simp only [octets]
      rw [if_pos (by omega)]
      congr 2
      omega
  | case3 a b =>
      simp only [List.forall_mem_cons] at small
      simp only [octets]
      rw [if_pos (by omega)]
      congr 2
      · omega
      · congr 1
        omega
  | case4 a b c rest ih =>
      simp only [List.forall_mem_cons] at small
      simp only [octets, ih small.2.2.2, Option.bind_eq_bind, Option.bind_some, Option.pure_def,
        Option.some.injEq, List.cons.injEq, and_true]
      exact ⟨by omega, by omega, by omega⟩

section Engine

variable (alphabet : Alphabet)

theorem getD_symbol (value : Nat) (inside : value < alphabet.symbols.length) :
    alphabet.symbols.getD value 'A' = alphabet.symbols[value] := by
  rw [List.getD_eq_getElem?_getD, List.getElem?_eq_getElem inside, Option.getD_some]

theorem idxOf_symbol (value : Nat) (small : value < 64) :
    alphabet.symbols.idxOf? (alphabet.symbols.getD value 'A') = some value := by
  have inside : value < alphabet.symbols.length := by rw [alphabet.size]; exact small
  rw [getD_symbol alphabet value inside, List.idxOf?_eq_some_iff]
  refine ⟨inside, rfl, ?_⟩
  intro earlier before same
  have equal := alphabet.distinct.getElem_inj_iff.mp same
  omega

theorem symbols_read (values : List Nat) (small : ∀ value ∈ values, value < 64) :
    (values.map fun sextet => alphabet.symbols.getD sextet 'A').mapM
      (fun symbol => alphabet.symbols.idxOf? symbol) = some values := by
  induction values with
  | nil => rfl
  | cons value values ih =>
      rw [List.forall_mem_cons] at small
      simp only [List.map_cons, List.mapM_cons, idxOf_symbol alphabet value small.1, ih small.2,
        Option.bind_eq_bind, Option.bind_some, Option.pure_def]

theorem toNat_small (bytes : List UInt8) : ∀ byte ∈ bytes.map UInt8.toNat, byte < 256 := by
  intro byte member
  obtain ⟨given, -, rfl⟩ := List.mem_map.mp member
  exact given.toNat_lt

theorem decode_encode (bytes : List UInt8) : alphabet.decode (alphabet.encode bytes) = some bytes := by
  have small := toNat_small bytes
  have same : (bytes.map UInt8.toNat).map UInt8.ofNat = bytes := by
    rw [List.map_map]
    calc
      _ = bytes.map id := List.map_congr_left fun byte _ => UInt8.ofNat_toNat
      _ = bytes := List.map_id bytes
  simp only [Alphabet.decode, Alphabet.encode, String.toList_ofList, symbols_read alphabet _ (sextets_lt _ small),
    octets_sextets _ small, same, Option.bind_eq_bind, Option.bind_some, Option.pure_def]

/-- No symbol of a written text is padding. -/
theorem unpadded_encode (bytes : List UInt8) : '=' ∉ (alphabet.encode bytes).toList := by
  intro padding
  rw [Alphabet.encode, String.toList_ofList] at padding
  obtain ⟨value, member, same⟩ := List.mem_map.mp padding
  have inside : value < alphabet.symbols.length := by
    rw [alphabet.size]
    exact sextets_lt _ (toNat_small bytes) value member
  rw [getD_symbol alphabet value inside] at same
  exact alphabet.unpadded (same ▸ List.getElem_mem _)

theorem rdropWhile_pad (symbols : List Char) (unpadded : '=' ∉ symbols) :
    (pad symbols).rdropWhile (· = '=') = symbols := by
  have kept : symbols.rdropWhile (· = '=') = symbols := by
    rw [List.rdropWhile_eq_self_iff]
    intro some last
    exact unpadded (of_decide_eq_true last ▸ List.getLast_mem some)
  rw [pad]
  induction (4 - symbols.length % 4) % 4 with
  | zero => rw [List.replicate_zero, List.append_nil, kept]
  | succ count ih =>
      rw [List.replicate_succ', ← List.append_assoc, List.rdropWhile_concat_pos _ _ _ (by decide), ih]

theorem decodePadded_encodePadded (bytes : List UInt8) :
    alphabet.decodePadded (alphabet.encodePadded bytes) = some bytes := by
  have body := rdropWhile_pad (alphabet.encode bytes).toList (unpadded_encode alphabet bytes)
  simp only [Alphabet.decodePadded, Alphabet.encodePadded, String.toList_ofList, body, if_true,
    String.ofList_toList]
  exact decode_encode alphabet bytes

end Engine

theorem sextets_octets {values bytes : List Nat} (small : ∀ value ∈ values, value < 64)
    (read : octets values = some bytes) : sextets bytes = values := by
  fun_induction octets values generalizing bytes with
  | case1 =>
      cases read
      rfl
  | case2 => cases read
  | case3 w x clear =>
      cases read
      simp only [List.forall_mem_cons] at small
      simp only [sextets, List.cons.injEq, and_true]
      exact ⟨by omega, by omega⟩
  | case4 => cases read
  | case5 w x y clear =>
      cases read
      simp only [List.forall_mem_cons] at small
      simp only [sextets, List.cons.injEq, and_true]
      exact ⟨by omega, by omega, by omega⟩
  | case6 => cases read
  | case7 w x y z rest ih =>
      cases tail : octets rest with
      | none => simp [tail] at read
      | some front =>
          simp only [tail, Option.bind_eq_bind, Option.bind_some, Option.pure_def, Option.some.injEq] at read
          subst read
          simp only [List.forall_mem_cons] at small
          simp only [sextets, ih small.2.2.2.2 tail, List.cons.injEq, and_true]
          exact ⟨by omega, by omega, by omega, by omega⟩

theorem symbols_written {alphabet : Alphabet} {symbols : List Char} {values : List Nat}
    (read : symbols.mapM (fun symbol => alphabet.symbols.idxOf? symbol) = some values) :
    (∀ value ∈ values, value < 64) ∧ values.map (fun sextet => alphabet.symbols.getD sextet 'A') = symbols := by
  induction symbols generalizing values with
  | nil =>
      cases read
      exact ⟨nofun, rfl⟩
  | cons symbol symbols ih =>
      cases head : alphabet.symbols.idxOf? symbol with
      | none => simp [List.mapM_cons, head] at read
      | some value =>
          cases tail : symbols.mapM fun symbol => alphabet.symbols.idxOf? symbol with
          | none => simp [List.mapM_cons, head, tail] at read
          | some rest =>
              simp only [List.mapM_cons, head, tail, Option.bind_eq_bind, Option.bind_some, Option.pure_def,
                Option.some.injEq] at read
              subst read
              have below := ih tail
              obtain ⟨inside, found, -⟩ := List.idxOf?_eq_some_iff.mp head
              constructor
              · rw [List.forall_mem_cons]
                exact ⟨by rwa [alphabet.size] at inside, below.1⟩
              · rw [List.map_cons, below.2, List.getD_eq_getElem?_getD, List.getElem?_eq_getElem inside,
                  Option.getD_some, found]

theorem octets_lt {values bytes : List Nat} (small : ∀ value ∈ values, value < 64)
    (read : octets values = some bytes) : ∀ byte ∈ bytes, byte < 256 := by
  fun_induction octets values generalizing bytes with
  | case1 =>
      cases read
      exact nofun
  | case2 => cases read
  | case3 w x clear =>
      cases read
      simp only [List.forall_mem_cons] at small ⊢
      exact ⟨by omega, by simp⟩
  | case4 => cases read
  | case5 w x y clear =>
      cases read
      simp only [List.forall_mem_cons] at small ⊢
      exact ⟨by omega, by omega, by simp⟩
  | case6 => cases read
  | case7 w x y z rest ih =>
      cases tail : octets rest with
      | none => simp [tail] at read
      | some front =>
          simp only [tail, Option.bind_eq_bind, Option.bind_some, Option.pure_def, Option.some.injEq] at read
          subst read
          simp only [List.forall_mem_cons] at small ⊢
          exact ⟨by omega, by omega, by omega, ih small.2.2.2.2 tail⟩

/-- The decoding is strict: a text that decodes is the one that is written for its bytes. -/
theorem encode_decode {alphabet : Alphabet} {text : String} {bytes : List UInt8}
    (read : alphabet.decode text = some bytes) : alphabet.encode bytes = text := by
  cases symbols : text.toList.mapM fun symbol => alphabet.symbols.idxOf? symbol with
  | none => simp [Alphabet.decode, symbols] at read
  | some values =>
      cases groups : octets values with
      | none => simp [Alphabet.decode, symbols, groups] at read
      | some numbers =>
          simp only [Alphabet.decode, symbols, groups, Option.bind_eq_bind, Option.bind_some, Option.pure_def,
            Option.some.injEq] at read
          have written := symbols_written symbols
          have small := octets_lt written.1 groups
          have same : bytes.map UInt8.toNat = numbers := by
            rw [← read, List.map_map]
            calc
              _ = numbers.map id := List.map_congr_left fun number member =>
                UInt8.toNat_ofNat_of_lt' (small number member)
              _ = numbers := List.map_id numbers
          rw [Alphabet.encode, same, sextets_octets written.1 groups, written.2, String.ofList_toList]

end Pigs.Lib.Base64
