import Pigs.Lib.Radix
import Pigs.Lib.Base64

/-! `encode_token` and `verify_token` of `token.rs`. -/

namespace Pigs.Utils.Token

open Pigs.Lib

/-- The base64 engine `URL_SAFE_NO_PAD`, whose decoding takes back what it encodes. -/
structure Engine where
  encode : List UInt8 → String
  decode : String → Option (List UInt8)
  decode_encode : ∀ bytes, decode (encode bytes) = some bytes

def urlSafeNoPad : Engine := ⟨Base64.urlSafe.encode, Base64.urlSafe.decode, Base64.decode_encode Base64.urlSafe⟩

/-- `into_bytes`, `bytes` -/
def intoBytes (s : String) : List UInt8 := s.toByteArray.data.toList

def fromUtf8 (bytes : List UInt8) : Option String := String.fromUTF8? ⟨bytes.toArray⟩

/-- `s[..count]`, which panics where `count` bytes are not the start of `s`. -/
def sliceTo (s : String) (count : Nat) : Option String :=
  if count ≤ s.utf8ByteSize then fromUtf8 ((intoBytes s).take count) else none

def rsplitn2 (s : String) (pat : Char) : List String :=
  let last := (s.toList.reverse.takeWhile (· ≠ pat)).reverse
  if last.length = s.toList.length then
    [s]
  else
    [String.ofList last, String.ofList (s.toList.take (s.toList.length - last.length - 1))]

def obfuscate (data : List UInt8) (mask : UInt8) : List UInt8 :=
  data.reverse.map (· ^^^ mask)

def deobfuscate (data : List UInt8) (mask : UInt8) : List UInt8 :=
  (data.map (· ^^^ mask)).reverse

/-- DJB2 -/
def simpleHash (s : String) : UInt64 :=
  (intoBytes s).foldl (fun hash b => ((hash <<< 5) + hash) + b.toUInt64) 5381

/-- `{sig:016x}` -/
def hex16 (sig : UInt64) : String := String.ofList (formatRadix 16 16 sig.toNat)

/-- The nanoseconds of `clock` since the Unix epoch; before it there is no duration. -/
def durationSinceEpoch (clock : Int) : Option Nat :=
  if 0 ≤ clock then some clock.toNat else none

/-- No token where the `unwrap` of the duration panics. -/
def encodeToken (engine : Engine) (clock : Int) (pid : UInt32) (id sec noc : String) : Option String := do
  let now ← durationSinceEpoch clock
  let raw := s!"{id}.{sec}.{now}.{pid}"
  let sig := simpleHash (raw ++ noc)
  let tokenRaw := intoBytes s!"{id}.{sec}.{now}.{pid}.{hex16 sig}"
  let obf := obfuscate tokenRaw 0x5A
  return engine.encode obf

/-- `none` where the slice of the text panics. -/
def verifyToken (engine : Engine) (token key : String) : Option Bool :=
  match engine.decode token with
  | none => some false
  | some obf =>
      match fromUtf8 (deobfuscate obf 0x5A) with
      | none => some false
      | some raw =>
          match rsplitn2 raw '.' with
          | [sig, _] => do
              let rawStr ← sliceTo raw (raw.utf8ByteSize - sig.utf8ByteSize - 1)
              let expected := hex16 (simpleHash (rawStr ++ key))
              return sig == expected
          | _ => some false

section Bytes

theorem from_utf8_into_bytes (s : String) : fromUtf8 (intoBytes s) = some s := by
  have whole : (⟨(intoBytes s).toArray⟩ : ByteArray) = s.toByteArray := rfl
  simp only [fromUtf8, whole, String.fromUTF8?]
  rw [dif_pos s.isValidUTF8]
  rfl

theorem into_bytes_append (s t : String) : intoBytes (s ++ t) = intoBytes s ++ intoBytes t := by
  simp [intoBytes]

theorem length_into_bytes (s : String) : (intoBytes s).length = s.utf8ByteSize := rfl

theorem slice_to_append (s t : String) : sliceTo (s ++ t) s.utf8ByteSize = some s := by
  have within : s.utf8ByteSize ≤ (s ++ t).utf8ByteSize := by
    rw [String.utf8ByteSize_append]
    omega
  rw [sliceTo, if_pos within, into_bytes_append, ← length_into_bytes, List.take_left, from_utf8_into_bytes]

theorem deobfuscate_obfuscate (data : List UInt8) (mask : UInt8) :
    deobfuscate (obfuscate data mask) mask = data := by
  have twice : ((· ^^^ mask) ∘ (· ^^^ mask)) = (id : UInt8 → UInt8) := by
    funext b
    rw [Function.comp_apply, UInt8.xor_assoc, UInt8.xor_self, UInt8.xor_zero, id]
  rw [deobfuscate, obfuscate, List.map_map, twice, List.map_id, List.reverse_reverse]

end Bytes

section Parts

/-- The last part has no dot; the text before it may have some. -/
theorem rsplitn2_last (rest last : String) (plain : ∀ ch ∈ last.toList, ch ≠ '.') :
    rsplitn2 (rest ++ "." ++ last) '.' = [last, rest] := by
  have chars : (rest ++ "." ++ last).toList = rest.toList ++ '.' :: last.toList := by
    simp
  have tail : ((rest.toList ++ '.' :: last.toList).reverse.takeWhile (· ≠ '.')).reverse =
      last.toList := by
    rw [List.reverse_append, List.reverse_cons, List.append_assoc,
      List.takeWhile_append_of_pos (by simpa using plain)]
    simp
  have some : last.toList.length ≠ (rest.toList ++ '.' :: last.toList).length := by
    simp only [List.length_append, List.length_cons]
    omega
  have before : (rest.toList ++ '.' :: last.toList).length - last.toList.length - 1 =
      rest.toList.length := by
    simp only [List.length_append, List.length_cons]
    omega
  simp only [rsplitn2, chars, tail]
  rw [if_neg some, before, List.take_left, String.ofList_toList, String.ofList_toList]

end Parts

theorem hex16_plain (sig : UInt64) : ∀ ch ∈ (hex16 sig).toList, ch ≠ '.' := by
  intro ch member
  have small : sig.toNat < 16 ^ 16 := sig.toNat_lt
  rw [hex16, String.toList_ofList, format_radix_eq 16 16 _ (by omega) (by omega) small] at member
  obtain ⟨digit, -, rfl⟩ := List.mem_map.mp member
  exact Nat.digitChar_ne '.' (by decide)

/-- The bytes of a text behind the signature's dot are cut off where the text ends. -/
theorem slice_before_last (rest last : String) :
    sliceTo (rest ++ "." ++ last) ((rest ++ "." ++ last).utf8ByteSize - last.utf8ByteSize - 1) =
      some rest := by
  have count : (rest ++ "." ++ last).utf8ByteSize - last.utf8ByteSize - 1 = rest.utf8ByteSize := by
    have dot : ".".utf8ByteSize = 1 := by decide
    rw [String.utf8ByteSize_append, String.utf8ByteSize_append, dot]
    omega
  rw [count, String.append_assoc, slice_to_append]

/-- The token of a text and a signature. -/
def signed (engine : Engine) (raw : String) (sig : UInt64) : String :=
  engine.encode (obfuscate (intoBytes (raw ++ "." ++ hex16 sig)) 0x5A)

/-- A token is accepted when its signature is printed as the hash of its text with the key is. -/
theorem verify_signed (engine : Engine) (raw key : String) (sig : UInt64) :
    verifyToken engine (signed engine raw sig) key =
      some (hex16 sig == hex16 (simpleHash (raw ++ key))) := by
  simp only [verifyToken, signed, engine.decode_encode, deobfuscate_obfuscate, from_utf8_into_bytes,
    rsplitn2_last _ _ (hex16_plain sig), slice_before_last, Option.bind_eq_bind, Option.bind_some,
    Option.pure_def]

/-- A token that `encode_token` makes is accepted with its own nonce, and it makes one exactly when the
clock is not before the Unix epoch. -/
theorem encode_token_verifies (engine : Engine) (clock : Int) (pid : UInt32) (id sec noc : String) :
    (∃ token, encodeToken engine clock pid id sec noc = some token ∧
      verifyToken engine token noc = some true) ↔ 0 ≤ clock := by
  constructor
  · rintro ⟨token, made, -⟩
    by_contra early
    simp only [encodeToken, durationSinceEpoch, if_neg early] at made
    cases made
  · intro late
    have made : encodeToken engine clock pid id sec noc =
        some (signed engine s!"{id}.{sec}.{clock.toNat}.{pid}"
          (simpleHash (s!"{id}.{sec}.{clock.toNat}.{pid}" ++ noc))) := by
      simp only [encodeToken, durationSinceEpoch, if_pos late, signed]
      rfl
    exact ⟨_, made, by rw [verify_signed, beq_self_eq_true]⟩

/-- One nanosecond before the epoch the `unwrap` panics. -/
theorem encode_token_before_epoch :
    ¬ ∀ (engine : Engine) (clock : Int) (pid : UInt32) (id sec noc : String),
      ∃ token, encodeToken engine clock pid id sec noc = some token ∧
        verifyToken engine token noc = some true := by
  intro fresh
  obtain ⟨token, made, -⟩ := fresh urlSafeNoPad (-1) 1 "alice" "gmv" "Gmv123..."
  cases made

end Pigs.Utils.Token
