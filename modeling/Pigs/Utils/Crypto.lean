import Pigs.Utils.Token.Verify

/-! The two decryptions of `crypto.rs`. A call gives nothing where it panics. -/

namespace Pigs.Utils.Crypto

open Pigs.Lib
open Pigs.Utils.Token (intoBytes fromUtf8)

/-- The base64 engines and the ciphers; whatever fails there is reported. -/
structure Primitives where
  standard : String → Option (List UInt8)
  standardNoPad : String → Option (List UInt8)
  AesCbc : Type
  newFromSlices : List UInt8 → List UInt8 → Option AesCbc
  decryptVec : AesCbc → List UInt8 → Option (List UInt8)
  Aes256Gcm : Type
  newFromSlice : List UInt8 → Option Aes256Gcm
  gcmDecrypt : Aes256Gcm → List UInt8 → List UInt8 → Option (List UInt8)

/-- `logged` is an error of another crate that `hand_log` passes on. -/
inductive GlobalError where
  | logged
  | sys (message : String)
  deriving DecidableEq

abbrev GlobalResult (A : Type) := Except GlobalError A

/-- `bytes[start..stop]` -/
def slice (bytes : List UInt8) (start stop : Nat) : Option (List UInt8) :=
  if start ≤ stop ∧ stop ≤ bytes.length then some ((bytes.take stop).drop start) else none

/-- `bytes[start..]` -/
def sliceFrom (bytes : List UInt8) (start : Nat) : Option (List UInt8) :=
  if start ≤ bytes.length then some (bytes.drop start) else none

/-- `target.copy_from_slice(source)` -/
def copyFromSlice (target source : List UInt8) : Option (List UInt8) :=
  if target.length = source.length then some source else none

/-- `String::from_utf8` with `hand_log`. -/
def utf8Text (bytes : List UInt8) : GlobalResult String :=
  match fromUtf8 bytes with
  | none => .error .logged
  | some text => .ok text

def DEFAULT_KEY : String := "1234567890All in Rust 1234567890"

variable (prims : Primitives)

def decrypt (key data : String) : Option (GlobalResult String) :=
  match prims.standard data with
  | none => some (.error .logged)
  | some bytes => do
      let iv ← slice bytes 0 16
      match prims.newFromSlices (intoBytes key) iv with
      | none => return .error .logged
      | some cipher =>
          let payload ← sliceFrom bytes 16
          match prims.decryptVec cipher payload with
          | none => return .error .logged
          | some plain => return utf8Text plain

def defaultDecrypt (data : String) : Option (GlobalResult String) := decrypt prims DEFAULT_KEY data

/-- `made` is the way every cipher comes about. -/
structure Aes256GcmCipher where
  cipher : prims.Aes256Gcm
  made : ∃ key, key.length = 32 ∧ prims.newFromSlice key = some cipher

def fromBase64KeyNoPad (encoded : String) : GlobalResult (Aes256GcmCipher prims) :=
  match prims.standardNoPad encoded with
  | none => .error .logged
  | some key =>
      if size : key.length = 32 then
        match made : prims.newFromSlice key with
        | none => .error (.sys "invalid AES-256-GCM key")
        | some cipher => .ok ⟨cipher, key, size, made⟩
      else
        .error (.sys "AES-256-GCM key must decode to 32 bytes")

variable {prims}

def decryptFromBase64NoPad (self : Aes256GcmCipher prims) (encoded : String) :
    Option (GlobalResult String) :=
  match prims.standardNoPad encoded with
  | none => some (.error .logged)
  | some payload =>
      if payload.length < 1 + 12 + 16 then
        some (.error (.sys "invalid AES-256-GCM payload"))
      else do
        let version ← payload[0]?
        if version ≠ 1 then
          return .error (.sys "invalid AES-256-GCM payload")
        let nonce ← copyFromSlice (List.replicate 12 0) (← slice payload 1 13)
        match prims.gcmDecrypt self.cipher nonce (← sliceFrom payload 13) with
        | none => return .error (.sys "AES-256-GCM decrypt failed")
        | some plaintext => return utf8Text plaintext

/-- The guard leaves enough bytes for the version, the nonce and the tag. -/
theorem decryptFromBase64NoPad_returns (self : Aes256GcmCipher prims) (encoded : String) :
    (decryptFromBase64NoPad self encoded).isSome := by
  rw [decryptFromBase64NoPad]
  cases prims.standardNoPad encoded with
  | none => rfl
  | some payload =>
      simp only
      split
      case isTrue => rfl
      case isFalse long =>
        have first : ∃ version, payload[0]? = some version :=
          ⟨payload[0], List.getElem?_eq_getElem (by omega)⟩
        obtain ⟨version, first⟩ := first
        have nonce : slice payload 1 13 = some ((payload.take 13).drop 1) := if_pos ⟨by omega, by omega⟩
        have copied : copyFromSlice (List.replicate 12 0) ((payload.take 13).drop 1) =
            some ((payload.take 13).drop 1) := by
          apply if_pos
          simp only [List.length_replicate, List.length_drop, List.length_take]
          omega
        have rest : sliceFrom payload 13 = some (payload.drop 13) := if_pos (by omega)
        simp only [first, nonce, copied, rest, Option.bind_eq_bind, Option.bind_some]
        split
        · rfl
        · split <;> rfl

/-- `decrypt` takes its vector from the front of the bytes without a look at their number. -/
theorem decrypt_returns_iff (key data : String) :
    (decrypt prims key data).isSome ↔ ∀ bytes, prims.standard data = some bytes → 16 ≤ bytes.length := by
  rw [decrypt]
  cases decoded : prims.standard data with
  | none => simp
  | some bytes =>
      by_cases long : 16 ≤ bytes.length
      · have vector : slice bytes 0 16 = some ((bytes.take 16).drop 0) := if_pos ⟨by omega, long⟩
        have rest : sliceFrom bytes 16 = some (bytes.drop 16) := if_pos long
        refine iff_of_true ?_ ?_
        · simp only [vector, rest, Option.bind_eq_bind, Option.bind_some]
          split
          · rfl
          · split <;> rfl
        · rintro _ ⟨⟩
          exact long
      · have short : slice bytes 0 16 = none := if_neg fun inside => long inside.2
        refine iff_of_false ?_ ?_
        · simp [short]
        · intro always
          exact long (always bytes rfl)

/-- No decryption panics exactly when the text does not decode to fewer bytes than a vector has. -/
theorem decryption_returns_iff (prims : Primitives) (cipher : Aes256GcmCipher prims) (key data : String) :
    ((decrypt prims key data).isSome ∧ (defaultDecrypt prims data).isSome ∧
        (decryptFromBase64NoPad cipher data).isSome) ↔
      ∀ bytes, prims.standard data = some bytes → 16 ≤ bytes.length := by
  rw [defaultDecrypt, decrypt_returns_iff, decrypt_returns_iff]
  constructor
  · rintro ⟨long, -, -⟩
    exact long
  · intro long
    exact ⟨long, long, decryptFromBase64NoPad_returns cipher data⟩

/-- The base64 engines, and ciphers that refuse every text. -/
def refusing : Primitives where
  standard := Base64.standard.decodePadded
  standardNoPad := Base64.standard.decode
  AesCbc := Unit
  newFromSlices key iv := if key.length = 32 ∧ iv.length = 16 then some () else none
  decryptVec _ _ := none
  Aes256Gcm := Unit
  newFromSlice key := if key.length = 32 then some () else none
  gcmDecrypt _ _ _ := none

/-- The empty text decodes to no bytes at all. -/
theorem decrypt_empty_panics :
    ¬∀ (prims : Primitives) (cipher : Aes256GcmCipher prims) (key data : String),
      (decrypt prims key data).isSome ∧ (defaultDecrypt prims data).isSome ∧
        (decryptFromBase64NoPad cipher data).isSome := by
  intro always
  have cipher : Aes256GcmCipher refusing := ⟨(), List.replicate 32 0, rfl, rfl⟩
  have returned := (always refusing cipher DEFAULT_KEY "").2.1
  revert returned
  decide

end Pigs.Utils.Crypto
