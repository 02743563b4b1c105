import Pigs.Net.Rw.WriteAll

/-! The packets of several write calls on one stream. Each byte carries the call that sent it. -/

namespace Pigs.Net.Rw

def tag (call : Nat) (bytes : Bytes) : List (Nat × UInt8) := bytes.map fun byte => (call, byte)

/-- The bytes of a write call's packet on the wire. -/
def frame (encoder : PacketEncoder) (data : Nat → Bytes) (call : Nat) : Bytes :=
  match encoder (data call) with
  | .ok packet => packet.bytes
  | .error _ => []

def wholes (encoder : PacketEncoder) (data : Nat → Bytes) (calls : List Nat) :
    List (Nat × UInt8) :=
  calls.flatMap fun call => tag call (frame encoder data call)

def sentBy (written : List (Nat × UInt8)) (call : Nat) : Bytes :=
  (written.filter fun sent => sent.1 = call).map (·.2)

variable {encoder : PacketEncoder} {data : Nat → Bytes}

theorem frame_of_ok (call : Nat) (packet : EncodedPacket) (encoded : encoder (data call) = .ok packet) :
    frame encoder data call = packet.slices.bytes := by
  rw [frame, encoded, EncodedPacket.slices_bytes]

theorem tag_append (call : Nat) (front back : Bytes) :
    tag call (front ++ back) = tag call front ++ tag call back :=
  List.map_append

theorem wholes_append (front back : List Nat) :
    wholes encoder data (front ++ back) = wholes encoder data front ++ wholes encoder data back :=
  List.flatMap_append

theorem wholes_cons (call : Nat) (calls : List Nat) :
    wholes encoder data (call :: calls) =
      tag call (frame encoder data call) ++ wholes encoder data calls :=
  List.flatMap_cons

theorem wholes_concat (calls : List Nat) (call : Nat) :
    wholes encoder data (calls ++ [call]) =
      wholes encoder data calls ++ tag call (frame encoder data call) := by
  simp [wholes]

theorem sentBy_append (front back : List (Nat × UInt8)) (call : Nat) :
    sentBy (front ++ back) call = sentBy front call ++ sentBy back call := by
  simp [sentBy]

theorem sentBy_tag (call other : Nat) (bytes : Bytes) :
    sentBy (tag other bytes) call = if other = call then bytes else [] := by
  split_ifs with same
  · simp [sentBy, tag, same, List.filter_map, Function.comp_def]
  · simp [sentBy, tag, same, List.filter_map, Function.comp_def]

theorem sentBy_wholes (calls : List Nat) (distinct : calls.Nodup) (call : Nat) :
    sentBy (wholes encoder data calls) call =
      if call ∈ calls then frame encoder data call else [] := by
  induction calls with
  | nil => rfl
  | cons head calls ih =>
      rcases List.nodup_cons.mp distinct with ⟨fresh, rest⟩
      rw [wholes_cons, sentBy_append, sentBy_tag, ih rest]
      by_cases same : head = call
      · subst same
        simp [fresh]
      · simp [same, Ne.symm same]

end Pigs.Net.Rw
