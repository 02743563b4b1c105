import Pigs.Net.Rw.Encoder

/-! `write_encoded_packet`, cut at the calls of the stream. A packet is what is left of its two
slices; `write_all` of a single buffer is the same loop with an empty second slice. -/

namespace Pigs.Net.Rw

/-- The answer of one `write` or `write_vectored`: it takes a number of bytes from the front, at
most what is offered, or fails without taking any. -/
inductive StreamResult where
  | accept (count : Nat)
  | fail
  deriving DecidableEq

inductive WriteError where
  | io
  | writeZero
  deriving DecidableEq

structure Slices where
  first : Bytes
  second : Bytes
  deriving DecidableEq

def EncodedPacket.slices : EncodedPacket → Slices
  | .single data => { first := data, second := [] }
  | .inlinePrefix header payload => { first := header.asSlice, second := payload }

namespace Slices

def bytes (s : Slices) : Bytes := s.first ++ s.second

def finished (s : Slices) : Bool := s.first.isEmpty && s.second.isEmpty

def offered (s : Slices) : Nat :=
  if s.first.isEmpty then s.second.length
  else if s.second.isEmpty then s.first.length
  else s.first.length + s.second.length

/-- One turn of the loop of `write_all_vectored_2`: the bytes the stream takes, and what is left
to write. -/
def turn (s : Slices) : StreamResult → Bytes × Except WriteError Slices
  | .fail => ([], .error .io)
  | .accept count =>
      let written := min count s.offered
      if written = 0 then
        ([], .error .writeZero)
      else if written < s.first.length then
        (s.bytes.take written, .ok { s with first := s.first.drop written })
      else
        let secondWritten := written - s.first.length
        (s.bytes.take written,
          .ok { first := [], second := s.second.drop (min secondWritten s.second.length) })

theorem offered_eq (s : Slices) : s.offered = s.bytes.length := by
  simp only [offered, bytes, List.length_append]
  split_ifs with first second
  · simp [List.isEmpty_iff.mp first]
  · simp [List.isEmpty_iff.mp second]
  · rfl

theorem finished_iff (s : Slices) : s.finished = true ↔ s.bytes = [] := by
  simp [finished, bytes]

/-- Whichever branch the loop takes, what is left is the packet without the bytes written. -/
theorem drop_bytes (s : Slices) (written : Nat) (bound : written ≤ s.bytes.length) :
    (written < s.first.length →
      ({ s with first := s.first.drop written } : Slices).bytes = s.bytes.drop written) ∧
    (¬ written < s.first.length →
      (Slices.mk [] (s.second.drop (min (written - s.first.length) s.second.length))).bytes =
        s.bytes.drop written) := by
  have total : s.bytes.length = s.first.length + s.second.length := by simp [bytes]
  constructor
  · intro short
    simp only [bytes]
    rw [List.drop_append_of_le_length short.le]
  · intro long
    have inside : min (written - s.first.length) s.second.length = written - s.first.length := by
      omega
    simp only [bytes, inside, List.nil_append, List.drop_append]
    rw [List.drop_eq_nil_of_le (by omega : s.first.length ≤ written), List.nil_append]

/-- A turn moves bytes from the packet to the stream, in order and without loss. -/
theorem turn_ok (s rest : Slices) (result : StreamResult) (out : Bytes)
    (turned : s.turn result = (out, .ok rest)) : out ++ rest.bytes = s.bytes ∧ out ≠ [] := by
  cases result with
  | fail => cases turned
  | accept count =>
      simp only [turn, offered_eq] at turned
      have left := s.drop_bytes (min count s.bytes.length) (Nat.min_le_right ..)
      split_ifs at turned with zero short
      · cases turned
      · cases turned
        refine ⟨?_, by simpa using zero⟩
        rw [left.1 short, List.take_append_drop]
      · cases turned
        refine ⟨?_, by simpa using zero⟩
        rw [left.2 short, List.take_append_drop]

end Slices

theorem EncodedPacket.slices_bytes (packet : EncodedPacket) : packet.slices.bytes = packet.bytes := by
  cases packet with
  | single data => simp [slices, Slices.bytes, bytes]
  | inlinePrefix header payload => rfl

end Pigs.Net.Rw
