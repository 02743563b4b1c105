import Pigs.Lib.Delimited

/-! Packet encoders: inline prefixes and the encoded form of a packet. -/

namespace Pigs.Net.Rw

abbrev Bytes := List UInt8

def INLINE_PREFIX_CAPACITY : Nat := 16

/-- The first `len` bytes of a fixed buffer. -/
structure InlinePrefix where
  len : Nat
  data : Bytes
  size : data.length = INLINE_PREFIX_CAPACITY
  fits : len ≤ INLINE_PREFIX_CAPACITY

/-- The copy loop `data[idx] = *byte`. -/
def copyInto (data : Bytes) (start : Nat) : Bytes → Bytes
  | [] => data
  | byte :: bytes => copyInto (data.set start byte) (start + 1) bytes

@[simp] theorem copyInto_length (data : Bytes) (start : Nat) (bytes : Bytes) :
    (copyInto data start bytes).length = data.length := by
  induction bytes generalizing data start with
  | nil => rfl
  | cons byte bytes ih => simp [copyInto, ih]

theorem take_copyInto (data : Bytes) (start : Nat) (bytes : Bytes)
    (room : start + bytes.length ≤ data.length) :
    (copyInto data start bytes).take (start + bytes.length) = data.take start ++ bytes := by
  induction bytes generalizing data start with
  | nil => simp [copyInto]
  | cons byte bytes ih =>
      simp only [List.length_cons] at room ⊢
      have rest := ih (data.set start byte) (start + 1) (by simp; omega)
      have split : (data.set start byte).take (start + 1) = data.take start ++ [byte] := by
        rw [List.take_add_one, List.take_set_of_le (le_refl start)]
        simp [show start < data.length by omega]
      rw [copyInto, show start + (bytes.length + 1) = start + 1 + bytes.length by omega, rest, split]
      simp

namespace InlinePrefix

def asSlice (p : InlinePrefix) : Bytes := p.data.take p.len

/-- The body shared by `new` and `from_number_bytes`. -/
def filled (bytes : Bytes) (fits : bytes.length ≤ INLINE_PREFIX_CAPACITY) : InlinePrefix where
  len := bytes.length
  data := copyInto (List.replicate INLINE_PREFIX_CAPACITY 0) 0 bytes
  size := by simp
  fits := fits

def new (bytes : Bytes) : Except String InlinePrefix :=
  if fits : bytes.length ≤ INLINE_PREFIX_CAPACITY then
    .ok (filled bytes fits)
  else
    .error "inline packet prefix exceeds capacity"

theorem asSlice_filled (bytes : Bytes) (fits : bytes.length ≤ INLINE_PREFIX_CAPACITY) :
    (filled bytes fits).asSlice = bytes := by
  have copied := take_copyInto (List.replicate INLINE_PREFIX_CAPACITY 0) 0 bytes (by simpa using fits)
  simpa [asSlice, filled] using copied

end InlinePrefix

/-- `to_be_bytes` of an unsigned integer of `width` bytes. -/
def toBeBytes : Nat → Nat → Bytes
  | 0, _ => []
  | width + 1, value => toBeBytes width (value / 256) ++ [UInt8.ofNat (value % 256)]

@[simp] theorem toBeBytes_length (width value : Nat) : (toBeBytes width value).length = width := by
  induction width generalizing value with
  | zero => rfl
  | succ width ih => simp [toBeBytes, ih]

theorem toBeBytes_injective (width a b : Nat) (boundA : a < 256 ^ width) (boundB : b < 256 ^ width)
    (same : toBeBytes width a = toBeBytes width b) : a = b := by
  induction width generalizing a b with
  | zero =>
      simp only [pow_zero] at boundA boundB
      omega
  | succ width ih =>
      rw [pow_succ] at boundA boundB
      rcases List.append_inj same (by simp) with ⟨high, low⟩
      have quotient : a / 256 = b / 256 := by
        refine ih (a / 256) (b / 256) ?_ ?_ high
        · exact Nat.div_lt_of_lt_mul (by rwa [Nat.mul_comm])
        · exact Nat.div_lt_of_lt_mul (by rwa [Nat.mul_comm])
      have remainder : a % 256 = b % 256 := by
        have bytes := congrArg UInt8.toNat (List.singleton_inj.mp low)
        simpa [UInt8.toNat_ofNat', Nat.mod_mod] using bytes
      omega

/-- `InlinePrefix::from_be` at a type of `width` bytes. -/
def InlinePrefix.fromBe (width value : Nat) (fits : width ≤ INLINE_PREFIX_CAPACITY) : InlinePrefix :=
  .filled (toBeBytes width value) (by simpa using fits)

inductive EncodedPacket where
  | single (data : Bytes)
  | inlinePrefix (header : InlinePrefix) (payload : Bytes)

/-- What the packet looks like on the wire. -/
def EncodedPacket.bytes : EncodedPacket → Bytes
  | .single data => data
  | .inlinePrefix header payload => header.asSlice ++ payload

/-- `PacketEncoder::encode_tcp`. -/
abbrev PacketEncoder := Bytes → Except String EncodedPacket

def rawPacketEncoder : PacketEncoder := fun data => .ok (.single data)

def U16_MAX : Nat := 65535

def u16BeLengthPrefixEncoder : PacketEncoder := fun data =>
  if U16_MAX < data.length then
    .error "packet length exceeds u16 max"
  else
    .ok (.inlinePrefix (.fromBe 2 (data.length % 2 ^ 16) (by decide)) data)

/-- A length-prefixed frame: two bytes of length, high byte first, and the payload. -/
def u16Frame (payload : Bytes) : Bytes := toBeBytes 2 payload.length ++ payload

theorem u16BeLengthPrefixEncoder_ok (data : Bytes) (packet : EncodedPacket)
    (encoded : u16BeLengthPrefixEncoder data = .ok packet) :
    data.length ≤ U16_MAX ∧ packet.bytes = u16Frame data := by
  simp only [u16BeLengthPrefixEncoder] at encoded
  split_ifs at encoded with large
  obtain rfl := Except.ok.inj encoded
  have small : data.length % 2 ^ 16 = data.length := by
    apply Nat.mod_eq_of_lt
    simp only [U16_MAX] at large
    omega
  refine ⟨by omega, ?_⟩
  simp only [EncodedPacket.bytes, InlinePrefix.fromBe, InlinePrefix.asSlice_filled, u16Frame, small]

theorem u16BeLengthPrefixEncoder_rejects (data : Bytes) (large : U16_MAX < data.length) :
    u16BeLengthPrefixEncoder data = .error "packet length exceeds u16 max" := by
  simp [u16BeLengthPrefixEncoder, large]

theorem u16Frame_delimited : Lib.Delimited (fun payload => payload.length ≤ U16_MAX) u16Frame := by
  intro a b goodA goodB s t same
  simp only [U16_MAX] at goodA goodB
  simp only [u16Frame, List.append_assoc] at same
  rcases List.append_inj same (by simp) with ⟨lengths, rest⟩
  have equal := toBeBytes_injective 2 a.length b.length (by omega) (by omega) lengths
  exact List.append_inj rest equal

/-- Different lists of payloads never look the same on the wire. -/
theorem u16Frames_injective (l m : List Bytes) (fitsL : ∀ p ∈ l, p.length ≤ U16_MAX)
    (fitsM : ∀ p ∈ m, p.length ≤ U16_MAX) (same : l.flatMap u16Frame = m.flatMap u16Frame) :
    l = m := by
  refine u16Frame_delimited.flatMap_injective ?_ l m fitsL fitsM same
  intro payload _ empty
  have length := congrArg List.length empty
  simp [u16Frame] at length

end Pigs.Net.Rw
