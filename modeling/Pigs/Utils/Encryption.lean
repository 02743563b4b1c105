import Pigs.Utils.Crypto

/-! The two encryptions of `crypto.rs`, and that each text they write is read back. -/

namespace Pigs.Utils.Crypto

open Pigs.Lib
open Pigs.Utils.Token (intoBytes fromUtf8 from_utf8_into_bytes into_bytes_append)

/-- The way back of the engines and the ciphers: `STANDARD_NO_PAD` refuses what it does not write itself,
and up to the longest text that AES-GCM takes its ciphertext is a function of the key, the nonce and the
text. -/
structure Engines extends Primitives where
  standardEncode : List UInt8 → String
  standardNoPadEncode : List UInt8 → String
  encryptVec : AesCbc → List UInt8 → List UInt8
  gcmEncrypt : Aes256Gcm → List UInt8 → List UInt8 → Option (List UInt8)
  standard_encode (bytes : List UInt8) : standard (standardEncode bytes) = some bytes
  standardNoPad_encode (bytes : List UInt8) : standardNoPad (standardNoPadEncode bytes) = some bytes
  standardNoPad_strict (text : String) (bytes : List UInt8) :
    standardNoPad text = some bytes → standardNoPadEncode bytes = text
  newFromSlices_size (key iv : List UInt8) :
    (newFromSlices key iv).isSome ↔ key.length = 32 ∧ iv.length = 16
  decryptVec_encryptVec (cipher : AesCbc) (plain : List UInt8) :
    decryptVec cipher (encryptVec cipher plain) = some plain
  newFromSlice_size (key : List UInt8) : (newFromSlice key).isSome ↔ key.length = 32
  gcm_limit (cipher : Aes256Gcm) (nonce plain : List UInt8) :
    (gcmEncrypt cipher nonce plain).isSome ↔ plain.length ≤ 2 ^ 36
  gcm_length (cipher : Aes256Gcm) (nonce plain ciphertext : List UInt8) :
    gcmEncrypt cipher nonce plain = some ciphertext → ciphertext.length = plain.length + 16
  gcm_iff (cipher : Aes256Gcm) (nonce plain ciphertext : List UInt8) : plain.length ≤ 2 ^ 36 →
    (gcmDecrypt cipher nonce ciphertext = some plain ↔ gcmEncrypt cipher nonce plain = some ciphertext)

def BASE_STR : String := "ABCDEFGHIJKLMNOPQRSTUVWXYZabcdefghijklmnopqrstuvwxyz0123456789"

/-- What `choose_multiple` draws from the bytes of `BASE_STR`: the front of some order of them. -/
structure Drawn (size : Nat) where
  bytes : List UInt8
  drawn : ∃ order : List UInt8, order.Perm (intoBytes BASE_STR) ∧ bytes = order.take size

def genAsciiChars {size : Nat} (drawn : Drawn size) : GlobalResult String := utf8Text drawn.bytes

section Cbc

variable (engines : Engines)

def encrypt (drawn : Drawn 16) (key data : String) : GlobalResult String := do
  let ivStr ← genAsciiChars drawn
  match engines.newFromSlices (intoBytes key) (intoBytes ivStr) with
  | none => .error .logged
  | some cipher =>
      .ok (engines.standardEncode (intoBytes ivStr ++ engines.encryptVec cipher (intoBytes data)))

def defaultEncrypt (drawn : Drawn 16) (data : String) : GlobalResult String :=
  encrypt engines drawn DEFAULT_KEY data

end Cbc

/-- `Nonce<U12>` -/
abbrev Nonce := { bytes : List UInt8 // bytes.length = 12 }

variable {engines : Engines}

def encryptToBase64NoPad (self : Aes256GcmCipher engines.toPrimitives) (nonce : Nonce)
    (plaintext : String) : GlobalResult String :=
  match engines.gcmEncrypt self.cipher nonce.1 (intoBytes plaintext) with
  | none => .error (.sys "AES-256-GCM encrypt failed")
  | some ciphertext => .ok (engines.standardNoPadEncode (1 :: nonce.1 ++ ciphertext))

/-! The bytes of a text. -/

theorem utf8Text_intoBytes (text : String) : utf8Text (intoBytes text) = .ok text := by
  rw [utf8Text, from_utf8_into_bytes]

theorem intoBytes_of_utf8Text {bytes : List UInt8} {text : String} (read : utf8Text bytes = .ok text) :
    intoBytes text = bytes := by
  rw [utf8Text] at read
  cases whole : fromUtf8 bytes with
  | none => simp [whole] at read
  | some found =>
      simp only [whole, Except.ok.injEq] at read
      subst read
      rw [fromUtf8, String.fromUTF8?] at whole
      split at whole
      case isTrue valid =>
        cases whole
        rfl
      case isFalse => cases whole

/-- Every letter and every digit is a byte of its own. -/
theorem ascii_text (bytes : List UInt8) (inside : bytes ⊆ intoBytes BASE_STR) :
    ∃ text, intoBytes text = bytes := by
  have each : ∀ byte ∈ intoBytes BASE_STR,
      intoBytes (String.singleton (Char.ofNat byte.toNat)) = [byte] := by
    decide +kernel
  induction bytes with
  | nil => exact ⟨"", rfl⟩
  | cons byte bytes ih =>
      rw [List.cons_subset] at inside
      obtain ⟨text, same⟩ := ih inside.2
      refine ⟨String.singleton (Char.ofNat byte.toNat) ++ text, ?_⟩
      calc
        _ = intoBytes (String.singleton (Char.ofNat byte.toNat)) ++ intoBytes text := into_bytes_append _ _
        _ = [byte] ++ bytes := congrArg₂ (· ++ ·) (each byte inside.1) same

theorem Drawn.length {size : Nat} (drawn : Drawn size) : drawn.bytes.length = min size 62 := by
  obtain ⟨order, perm, same⟩ := drawn.drawn
  have letters : (intoBytes BASE_STR).length = 62 := by decide +kernel
  rw [same, List.length_take, perm.length_eq, letters]

theorem gen_ascii_chars {size : Nat} (drawn : Drawn size) :
    ∃ text, genAsciiChars drawn = .ok text ∧ intoBytes text = drawn.bytes := by
  obtain ⟨order, perm, same⟩ := drawn.drawn
  have inside : drawn.bytes ⊆ intoBytes BASE_STR := by
    rw [same]
    exact fun byte member => perm.subset (List.mem_of_mem_take member)
  obtain ⟨text, bytes⟩ := ascii_text drawn.bytes inside
  exists text
  rw [genAsciiChars, ← bytes, utf8Text_intoBytes]
  exact ⟨rfl, rfl⟩

theorem slice_append (front middle rest : List UInt8) (start stop : Nat) (starts : front.length = start)
    (stops : (front ++ middle).length = stop) : slice (front ++ middle ++ rest) start stop = some middle := by
  subst starts stops
  have within : front.length ≤ (front ++ middle).length ∧
      (front ++ middle).length ≤ (front ++ middle ++ rest).length := by
    simp only [List.length_append]
    omega
  rw [slice, if_pos within, List.take_left, List.drop_left]

theorem sliceFrom_append (front rest : List UInt8) {start : Nat} (starts : front.length = start) :
    sliceFrom (front ++ rest) start = some rest := by
  subst starts
  have within : front.length ≤ (front ++ rest).length := by
    rw [List.length_append]
    omega
  rw [sliceFrom, if_pos within, List.drop_left]

section Cbc

/-- The drawn letters go in front of the ciphertext, where `decrypt` looks for its vector. -/
theorem encrypt_eq (drawn : Drawn 16) (key data : String) :
    encrypt engines drawn key data =
      match engines.newFromSlices (intoBytes key) drawn.bytes with
      | none => .error .logged
      | some cipher =>
          .ok (engines.standardEncode (drawn.bytes ++ engines.encryptVec cipher (intoBytes data))) := by
  obtain ⟨text, generated, bytes⟩ := gen_ascii_chars drawn
  rw [encrypt, generated, ← bytes]
  rfl

theorem encrypt_ok {drawn : Drawn 16} {key data written : String}
    (encrypted : encrypt engines drawn key data = .ok written) :
    ∃ cipher, engines.newFromSlices (intoBytes key) drawn.bytes = some cipher ∧
      engines.standardEncode (drawn.bytes ++ engines.encryptVec cipher (intoBytes data)) = written := by
  rw [encrypt_eq] at encrypted
  cases made : engines.newFromSlices (intoBytes key) drawn.bytes with
  | none => simp [made] at encrypted
  | some cipher =>
      simp only [made, Except.ok.injEq] at encrypted
      exact ⟨cipher, rfl, encrypted⟩

theorem encrypt_ok_iff (engines : Engines) (drawn : Drawn 16) (key data : String) :
    (∃ written, encrypt engines drawn key data = .ok written) ↔ (intoBytes key).length = 32 := by
  have vector : drawn.bytes.length = 16 := drawn.length
  have size := engines.newFromSlices_size (intoBytes key) drawn.bytes
  rw [encrypt_eq]
  cases made : engines.newFromSlices (intoBytes key) drawn.bytes with
  | none =>
      simp only [made, Option.isSome_none, Bool.false_eq_true, false_iff, not_and] at size
      simp only [reduceCtorEq, exists_false, false_iff]
      exact fun long => size long vector
  | some cipher =>
      simp only [made, Option.isSome_some, true_iff] at size
      simp only [Except.ok.injEq, exists_eq', true_iff]
      exact size.1

theorem decrypt_encrypt {drawn : Drawn 16} {key data written : String}
    (encrypted : encrypt engines drawn key data = .ok written) :
    decrypt engines.toPrimitives key written = some (.ok data) := by
  obtain ⟨cipher, made, same⟩ := encrypt_ok encrypted
  have vector : drawn.bytes.length = 16 := drawn.length
  subst same
  have front := slice_append [] drawn.bytes (engines.encryptVec cipher (intoBytes data)) 0 16 rfl vector
  have rest := sliceFrom_append drawn.bytes (engines.encryptVec cipher (intoBytes data)) vector
  rw [List.nil_append] at front
  simp only [decrypt, engines.standard_encode, front, made, rest, engines.decryptVec_encryptVec,
    utf8Text_intoBytes, Option.bind_eq_bind, Option.bind_some, Option.pure_def]

/-- What is written tells the vector and the text it is written for. -/
theorem encrypt_injective {first second : Drawn 16} {key data other written : String}
    (encrypted : encrypt engines first key data = .ok written)
    (again : encrypt engines second key other = .ok written) : first.bytes = second.bytes ∧ data = other := by
  constructor
  · obtain ⟨cipher, -, same⟩ := encrypt_ok encrypted
    obtain ⟨cipher', -, same'⟩ := encrypt_ok again
    have decoded := engines.standard_encode (first.bytes ++ engines.encryptVec cipher (intoBytes data))
    rw [same, ← same', engines.standard_encode] at decoded
    have sizes : second.bytes.length = first.bytes.length := second.length.trans first.length.symm
    exact (List.append_inj_left (Option.some.inj decoded) sizes).symm
  · have read := decrypt_encrypt encrypted
    rw [decrypt_encrypt again] at read
    cases read
    rfl

end Cbc

section Gcm

variable {self : Aes256GcmCipher engines.toPrimitives}

theorem fromBase64KeyNoPad_ok_iff (encoded : String) :
    (∃ cipher, fromBase64KeyNoPad engines.toPrimitives encoded = .ok cipher) ↔
      ∃ key : List UInt8, key.length = 32 ∧ encoded = engines.standardNoPadEncode key := by
  rw [fromBase64KeyNoPad]
  cases decoded : engines.standardNoPad encoded with
  | none =>
      simp only [reduceCtorEq, exists_false, false_iff, not_exists, not_and]
      intro key _ same
      rw [same, engines.standardNoPad_encode] at decoded
      cases decoded
  | some key =>
      have strict := engines.standardNoPad_strict encoded key decoded
      by_cases size : key.length = 32
      · have made := (engines.newFromSlice_size key).mpr size
        refine iff_of_true ?_ ⟨key, size, strict.symm⟩
        simp only [size, dif_pos]
        split
        case h_1 absent =>
          rw [absent] at made
          cases made
        case h_2 cipher _ => exact ⟨_, rfl⟩
      · refine iff_of_false ?_ ?_
        · simp only [size, dif_neg, not_false_eq_true, reduceCtorEq, exists_false]
        · rintro ⟨key', size', same⟩
          rw [same, engines.standardNoPad_encode] at decoded
          cases decoded
          exact size size'

theorem encryptToBase64NoPad_ok {nonce : Nonce} {plaintext encoded : String}
    (encrypted : encryptToBase64NoPad self nonce plaintext = .ok encoded) :
    ∃ ciphertext, engines.gcmEncrypt self.cipher nonce.1 (intoBytes plaintext) = some ciphertext ∧
      engines.standardNoPadEncode (1 :: nonce.1 ++ ciphertext) = encoded := by
  rw [encryptToBase64NoPad] at encrypted
  cases sealed : engines.gcmEncrypt self.cipher nonce.1 (intoBytes plaintext) with
  | none => simp [sealed] at encrypted
  | some ciphertext =>
      simp only [sealed, Except.ok.injEq] at encrypted
      exact ⟨ciphertext, rfl, encrypted⟩

/-- The three parts of a payload. -/
theorem decryptFromBase64NoPad_payload (version : UInt8) (nonce : Nonce) (ciphertext : List UInt8)
    (tagged : 16 ≤ ciphertext.length) {encoded : String}
    (decoded : engines.standardNoPad encoded = some (version :: nonce.1 ++ ciphertext)) :
    decryptFromBase64NoPad self encoded =
      if version ≠ 1 then
        some (.error (.sys "invalid AES-256-GCM payload"))
      else
        match engines.gcmDecrypt self.cipher nonce.1 ciphertext with
        | none => some (.error (.sys "AES-256-GCM decrypt failed"))
        | some plaintext => some (utf8Text plaintext) := by
  obtain ⟨nonce, size⟩ := nonce
  have header : (version :: nonce).length = 13 := by rw [List.length_cons, size]
  have long : ¬ (version :: nonce ++ ciphertext).length < 1 + 12 + 16 := by
    rw [List.length_append, header]
    omega
  have first : (version :: nonce ++ ciphertext)[0]? = some version := rfl
  have middle := slice_append [version] nonce ciphertext 1 13 rfl header
  have copied : copyFromSlice (List.replicate 12 0) nonce = some nonce :=
    if_pos (by rw [List.length_replicate, size])
  have rest := sliceFrom_append (version :: nonce) ciphertext header
  rw [List.singleton_append] at middle
  cases opened : engines.gcmDecrypt self.cipher nonce ciphertext <;>
    simp only [decryptFromBase64NoPad, decoded, long, first, middle, copied, rest, opened, if_false, ne_eq,
      Option.bind_eq_bind, Option.bind_some, Option.pure_def]

/-- A payload that decrypts is one the cipher writes for the text with some nonce. -/
theorem decrypted_was_encrypted {encoded plaintext : String} (small : (intoBytes plaintext).length ≤ 2 ^ 36)
    (decrypted : decryptFromBase64NoPad self encoded = some (.ok plaintext)) :
    ∃ nonce, encryptToBase64NoPad self nonce plaintext = .ok encoded := by
  cases decoded : engines.standardNoPad encoded with
  | none => simp [decryptFromBase64NoPad, decoded] at decrypted
  | some payload =>
      by_cases short : payload.length < 1 + 12 + 16
      · simp [decryptFromBase64NoPad, decoded, short] at decrypted
      · cases payload with
        | nil => exact absurd (by decide) short
        | cons version body =>
            rw [List.length_cons] at short
            have size : (body.take 12).length = 12 := by
              rw [List.length_take]
              omega
            have tagged : 16 ≤ (body.drop 12).length := by
              rw [List.length_drop]
              omega
            have strict := engines.standardNoPad_strict encoded (version :: body) decoded
            have whole : version :: body = version :: body.take 12 ++ body.drop 12 := by
              rw [List.cons_append, List.take_append_drop]
            rw [whole] at decoded strict
            rw [decryptFromBase64NoPad_payload version ⟨body.take 12, size⟩ (body.drop 12) tagged decoded]
              at decrypted
            by_cases current : version = 1
            · subst current
              cases opened : engines.gcmDecrypt self.cipher (body.take 12) (body.drop 12) with
              | none => simp [opened] at decrypted
              | some plain =>
                  simp only [opened, ne_eq, not_true_eq_false, if_false, Option.some.injEq] at decrypted
                  have bytes := intoBytes_of_utf8Text decrypted
                  rw [bytes] at small
                  exists ⟨body.take 12, size⟩
                  rw [encryptToBase64NoPad, bytes, (engines.gcm_iff _ _ _ _ small).mp opened]
                  exact congrArg _ strict
            · simp [current] at decrypted

theorem decrypt_encryptToBase64NoPad {nonce : Nonce} {plaintext encoded : String}
    (encrypted : encryptToBase64NoPad self nonce plaintext = .ok encoded) :
    decryptFromBase64NoPad self encoded = some (.ok plaintext) := by
  obtain ⟨ciphertext, sealed, same⟩ := encryptToBase64NoPad_ok encrypted
  have tagged : 16 ≤ ciphertext.length := by
    rw [engines.gcm_length _ _ _ _ sealed]
    omega
  have small := (engines.gcm_limit self.cipher nonce.1 (intoBytes plaintext)).mp (by rw [sealed]; rfl)
  have decoded : engines.standardNoPad encoded = some (1 :: nonce.1 ++ ciphertext) := by
    rw [← same, engines.standardNoPad_encode]
  rw [decryptFromBase64NoPad_payload 1 nonce ciphertext tagged decoded,
    (engines.gcm_iff _ _ _ _ small).mpr sealed]
  simp only [ne_eq, not_true_eq_false, if_false, utf8Text_intoBytes]

theorem encryptToBase64NoPad_ok_iff (nonce : Nonce) (plaintext : String) :
    (∃ encoded, encryptToBase64NoPad self nonce plaintext = .ok encoded) ↔
      (intoBytes plaintext).length ≤ 2 ^ 36 := by
  rw [← engines.gcm_limit self.cipher nonce.1, encryptToBase64NoPad]
  cases engines.gcmEncrypt self.cipher nonce.1 (intoBytes plaintext) <;> simp

theorem encryptToBase64NoPad_injective {first second : Nonce} {plaintext other encoded : String}
    (encrypted : encryptToBase64NoPad self first plaintext = .ok encoded)
    (again : encryptToBase64NoPad self second other = .ok encoded) : first = second ∧ plaintext = other := by
  constructor
  · obtain ⟨ciphertext, -, same⟩ := encryptToBase64NoPad_ok encrypted
    obtain ⟨ciphertext', -, same'⟩ := encryptToBase64NoPad_ok again
    have decoded := engines.standardNoPad_encode (1 :: first.1 ++ ciphertext)
    rw [same, ← same', engines.standardNoPad_encode] at decoded
    have bodies := List.tail_eq_of_cons_eq (Option.some.inj decoded)
    exact (Subtype.ext (List.append_inj_left bodies (second.2.trans first.2.symm))).symm
  · have read := decrypt_encryptToBase64NoPad encrypted
    rw [decrypt_encryptToBase64NoPad again] at read
    cases read
    rfl

end Gcm

/-- What `encrypt` writes is read back under the same key, and tells the text and the vector it is for. What
a cipher of AES-GCM writes is read back, tells the text and the nonce, and is all that decrypts to a text
that is not too long. -/
theorem ciphertexts_are_read_back (engines : Engines) :
    (∀ (drawn : Drawn 16) (key data : String),
      ((∃ written, encrypt engines drawn key data = .ok written) ↔ (intoBytes key).length = 32) ∧
        ∀ written, encrypt engines drawn key data = .ok written →
          decrypt engines.toPrimitives key written = some (.ok data) ∧
            ∀ (again : Drawn 16) (other : String), encrypt engines again key other = .ok written →
              drawn.bytes = again.bytes ∧ data = other) ∧
      (∀ (drawn : Drawn 16) (data : String), ∃ written,
        defaultEncrypt engines drawn data = .ok written ∧
          defaultDecrypt engines.toPrimitives written = some (.ok data)) ∧
      (∀ encoded, (∃ cipher, fromBase64KeyNoPad engines.toPrimitives encoded = .ok cipher) ↔
        ∃ key : List UInt8, key.length = 32 ∧ encoded = engines.standardNoPadEncode key) ∧
      ∀ (self : Aes256GcmCipher engines.toPrimitives) (plaintext : String),
        (∀ nonce, (∃ encoded, encryptToBase64NoPad self nonce plaintext = .ok encoded) ↔
          (intoBytes plaintext).length ≤ 2 ^ 36) ∧
        ∀ encoded,
          (∀ nonce, encryptToBase64NoPad self nonce plaintext = .ok encoded →
            decryptFromBase64NoPad self encoded = some (.ok plaintext)) ∧
          ((intoBytes plaintext).length ≤ 2 ^ 36 → decryptFromBase64NoPad self encoded = some (.ok plaintext) →
            ∃ nonce, encryptToBase64NoPad self nonce plaintext = .ok encoded) ∧
          ∀ (first second : Nonce) (other : String),
            encryptToBase64NoPad self first plaintext = .ok encoded →
              encryptToBase64NoPad self second other = .ok encoded → first = second ∧ plaintext = other := by
  have keys : (intoBytes DEFAULT_KEY).length = 32 := by decide +kernel
  refine ⟨fun drawn key data => ⟨encrypt_ok_iff engines drawn key data, fun written encrypted =>
    ⟨decrypt_encrypt encrypted, fun again other twice => encrypt_injective encrypted twice⟩⟩, ?_, ?_, ?_⟩
  · intro drawn data
    obtain ⟨written, encrypted⟩ := (encrypt_ok_iff engines drawn DEFAULT_KEY data).mpr keys
    exact ⟨written, encrypted, decrypt_encrypt encrypted⟩
  · exact fromBase64KeyNoPad_ok_iff
  · intro self plaintext
    refine ⟨fun nonce => encryptToBase64NoPad_ok_iff nonce plaintext, fun encoded => ⟨?_, ?_, ?_⟩⟩
    · exact fun nonce encrypted => decrypt_encryptToBase64NoPad encrypted
    · exact fun small decrypted => decrypted_was_encrypted small decrypted
    · exact fun first second other encrypted again => encryptToBase64NoPad_injective encrypted again

/-! The ciphers at two known texts. -/

/-- A ciphertext that is known. -/
structure Known where
  key : List UInt8
  nonce : List UInt8
  plain : List UInt8
  ciphertext : List UInt8
  tagged : ciphertext.length = plain.length + 16
  marked : ciphertext.getLast? ≠ some 0
  small : plain.length ≤ 2 ^ 36

/-- The known ciphertext, and a tag of zeros behind every other text. -/
def Known.gcmEncrypt (known : Known) (key nonce plain : List UInt8) : Option (List UInt8) :=
  if plain.length ≤ 2 ^ 36 then
    if key = known.key ∧ nonce = known.nonce ∧ plain = known.plain then
      some known.ciphertext
    else
      some (plain ++ List.replicate 16 0)
  else
    none

def Known.gcmDecrypt (known : Known) (key nonce ciphertext : List UInt8) : Option (List UInt8) :=
  if key = known.key ∧ nonce = known.nonce ∧ ciphertext = known.ciphertext then
    some known.plain
  else
    let plain := ciphertext.take (ciphertext.length - 16)
    if known.gcmEncrypt key nonce plain = some ciphertext then some plain else none

theorem Known.gcm_iff (known : Known) (key nonce plain ciphertext : List UInt8) :
    known.gcmDecrypt key nonce ciphertext = some plain ↔ known.gcmEncrypt key nonce plain = some ciphertext := by
  rw [gcmDecrypt]
  split
  · rename_i here
    obtain ⟨rfl, rfl, rfl⟩ := here
    constructor
    · rintro ⟨⟩
      rw [gcmEncrypt, if_pos known.small, if_pos ⟨rfl, rfl, rfl⟩]
    · intro sealed
      rw [gcmEncrypt] at sealed
      split_ifs at sealed with _ same
      · rw [same.2.2]
      · have last : (plain ++ List.replicate 16 (0 : UInt8)).getLast? = some 0 := by
          simp [List.getLast?_append]
        rw [Option.some.inj sealed] at last
        exact absurd last known.marked
  · rename_i other
    simp only
    constructor
    · intro opened
      split at opened
      · rename_i sealed
        rwa [← Option.some.inj opened]
      · cases opened
    · intro sealed
      have front : ciphertext.take (ciphertext.length - 16) = plain := by
        rw [gcmEncrypt] at sealed
        split_ifs at sealed with _ same
        · exact absurd ⟨same.1, same.2.1, (Option.some.inj sealed).symm⟩ other
        · rw [← Option.some.inj sealed, List.length_append, List.length_replicate, Nat.add_sub_cancel,
            List.take_left]
      rw [front, if_pos sealed]

/-- AES-256-CBC of "Ms@2023%Kht" under `DEFAULT_KEY` and the vector `fw2onAuaYBHqgrGI`. -/
def vector : List UInt8 := intoBytes "fw2onAuaYBHqgrGI"

def block : List UInt8 := [63, 248, 183, 115, 13, 228, 211, 22, 53, 148, 247, 29, 88, 205, 197, 22]

/-- AES-256-GCM of "mqtt-password" under the key of 32 bytes 7 and the nonce 1, 2, .., 12. -/
def password : Known where
  key := List.replicate 32 7
  nonce := [1, 2, 3, 4, 5, 6, 7, 8, 9, 10, 11, 12]
  plain := intoBytes "mqtt-password"
  ciphertext := [214, 13, 156, 234, 71, 154, 131, 95, 150, 73, 109, 108, 241, 101, 32, 63, 8, 166, 211, 38, 220, 8,
    200, 188, 182, 236, 3, 148, 83]
  tagged := by decide +kernel
  marked := by decide +kernel
  small := by decide +kernel

/-- The base64 engines, and ciphers that are right about these two texts. -/
def tabled : Engines where
  standard := Base64.standard.decodePadded
  standardNoPad := Base64.standard.decode
  AesCbc := List UInt8 × List UInt8
  newFromSlices key iv := if key.length = 32 ∧ iv.length = 16 then some (key, iv) else none
  decryptVec cipher ciphertext :=
    if cipher = (intoBytes DEFAULT_KEY, vector) ∧ ciphertext = block then
      some (intoBytes "Ms@2023%Kht")
    else
      ciphertext.tail?
  Aes256Gcm := List UInt8
  newFromSlice key := if key.length = 32 then some key else none
  gcmDecrypt := password.gcmDecrypt
  standardEncode := Base64.standard.encodePadded
  standardNoPadEncode := Base64.standard.encode
  encryptVec cipher plain :=
    if cipher = (intoBytes DEFAULT_KEY, vector) ∧ plain = intoBytes "Ms@2023%Kht" then block else 0 :: plain
  gcmEncrypt := password.gcmEncrypt
  standard_encode := Base64.decodePadded_encodePadded Base64.standard
  standardNoPad_encode := Base64.decode_encode Base64.standard
  standardNoPad_strict _ _ := Base64.encode_decode
  newFromSlices_size key iv := by split_ifs with sizes <;> simp [sizes]
  decryptVec_encryptVec cipher plain := by
    by_cases here : cipher = (intoBytes DEFAULT_KEY, vector) ∧ plain = intoBytes "Ms@2023%Kht"
    · rw [if_pos here, if_pos ⟨here.1, rfl⟩, here.2]
    · rw [if_neg here, if_neg fun both => by cases both.2]
      rfl
  newFromSlice_size key := by split_ifs with size <;> simp [size]
  gcm_limit key nonce plain := by
    rw [Known.gcmEncrypt]
    split_ifs with size
    · exact iff_of_true rfl size
    · exact iff_of_true rfl size
    · exact iff_of_false Bool.false_ne_true size
  gcm_length key nonce plain ciphertext sealed := by
    rw [Known.gcmEncrypt] at sealed
    split_ifs at sealed with _ same
    · rw [← Option.some.inj sealed, same.2.2]
      exact password.tagged
    · rw [← Option.some.inj sealed, List.length_append, List.length_replicate]
  gcm_iff key nonce plain ciphertext _ := password.gcm_iff key nonce plain ciphertext

def drawnVector : Drawn 16 where
  bytes := vector
  drawn := ⟨vector ++ (intoBytes BASE_STR).filter (· ∉ vector), by decide +kernel, by decide +kernel⟩

/-- Both texts are written as the ciphers write them, and read back. -/
theorem ciphertexts_are_read_back_known :
    defaultEncrypt tabled drawnVector "Ms@2023%Kht" = .ok "Zncyb25BdWFZQkhxZ3JHST/4t3MN5NMWNZT3HVjNxRY=" ∧
      defaultDecrypt tabled.toPrimitives "Zncyb25BdWFZQkhxZ3JHST/4t3MN5NMWNZT3HVjNxRY=" =
        some (.ok "Ms@2023%Kht") ∧
      ∃ cipher, fromBase64KeyNoPad tabled.toPrimitives "BwcHBwcHBwcHBwcHBwcHBwcHBwcHBwcHBwcHBwcHBwc" = .ok cipher ∧
        encryptToBase64NoPad cipher ⟨[1, 2, 3, 4, 5, 6, 7, 8, 9, 10, 11, 12], rfl⟩ "mqtt-password" =
          .ok "AQECAwQFBgcICQoLDNYNnOpHmoNflkltbPFlID8IptMm3AjIvLbsA5RT" ∧
        decryptFromBase64NoPad cipher "AQECAwQFBgcICQoLDNYNnOpHmoNflkltbPFlID8IptMm3AjIvLbsA5RT" =
          some (.ok "mqtt-password") := by
  have back := ciphertexts_are_read_back tabled
  have written : defaultEncrypt tabled drawnVector "Ms@2023%Kht" =
      .ok "Zncyb25BdWFZQkhxZ3JHST/4t3MN5NMWNZT3HVjNxRY=" := by decide +kernel
  have key : tabled.standardNoPad "BwcHBwcHBwcHBwcHBwcHBwcHBwcHBwcHBwcHBwcHBwc" = some password.key := by
    decide +kernel
  let cipher : Aes256GcmCipher tabled.toPrimitives := ⟨password.key, password.key, rfl, rfl⟩
  have made : fromBase64KeyNoPad tabled.toPrimitives "BwcHBwcHBwcHBwcHBwcHBwcHBwcHBwcHBwcHBwcHBwc" =
      .ok cipher := by
    rw [fromBase64KeyNoPad, key]
    rfl
  have sealed : encryptToBase64NoPad cipher ⟨[1, 2, 3, 4, 5, 6, 7, 8, 9, 10, 11, 12], rfl⟩ "mqtt-password" =
      .ok "AQECAwQFBgcICQoLDNYNnOpHmoNflkltbPFlID8IptMm3AjIvLbsA5RT" := by decide +kernel
  exact ⟨written, (back.1 drawnVector DEFAULT_KEY "Ms@2023%Kht").2 _ written |>.1, cipher, made, sealed,
    (back.2.2.2 cipher "mqtt-password").2 _ |>.1 _ sealed⟩

end Pigs.Utils.Crypto
