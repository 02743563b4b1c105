import Pigs.Net.Rw.QueuedSink
import Pigs.Net.Rw.Reading

/-! Packets from a queued sink, over the stream, to the dispatcher at the other end. -/

open Pigs.Lib

namespace Pigs.Net.Rw

theorem u16Frame_length (payload : Bytes) : (u16Frame payload).length = payload.length + 2 := by
  simp [u16Frame, toBeBytes]

theorem u16Frames_bytes (data : Nat → Bytes) (calls : List Nat) :
    (QueuedTcpSink.u16Frames data calls).map Prod.snd = (calls.map data).flatMap u16Frame := by
  induction calls with
  | nil => rfl
  | cons call calls ih =>
      have first : (tag call (u16Frame (data call))).map Prod.snd = u16Frame (data call) := by
        simp [tag, Function.comp_def]
      rw [QueuedTcpSink.u16Frames] at ih ⊢
      rw [List.flatMap_cons, List.map_append, ih, first]
      rfl

namespace TcpReader

variable {S : Type} {feed : Splitter S Bytes UInt8} {splitter : S}

/-- A read that brings something and leaves room for a frame in the buffer. -/
def ReadsSome (event : ReaderTurn) : Prop :=
  ∃ bytes, event = .read (.ok bytes) ∧ bytes ≠ [] ∧ bytes.length + (U16_MAX + 2) ≤ MAX_BUF_SIZE

/-- The loop goes on while frames arrive and are taken, with less than a frame in its buffer. -/
theorem stays_open (streaming : Streaming feed)
    (decodes : Decodes feed u16Frame (fun payload => payload.length ≤ U16_MAX) splitter)
    (dispatchOwned : Nat → Bool) (closeOk : Bool) (taken : ∀ i, dispatchOwned i = true) (payloads : List Bytes)
    (fits : ∀ payload ∈ payloads, payload.length ≤ U16_MAX) (turns : List ReaderTurn)
    (reads : ∀ event ∈ turns, ReadsSome event) (arrived : received turns <+: payloads.flatMap u16Frame) :
    ((new splitter).run feed dispatchOwned closeOk turns).result = none ∧
      ((new splitter).run feed dispatchOwned closeOk turns).buf.length ≤ U16_MAX + 2 := by
  induction turns using List.reverseRecOn with
  | nil => exact ⟨rfl, Nat.zero_le _⟩
  | append_singleton turns event ih =>
      have split : received (turns ++ [event]) = received turns ++ event.bytes := by
        simp [received]
      have before := ih (fun other member => reads other (List.mem_append_left _ member))
        ((split ▸ List.prefix_append ..).trans arrived)
      obtain ⟨bytes, rfl, some, room⟩ := reads event (List.mem_append_right _ (List.mem_singleton_self _))
      have step : (new splitter).run feed dispatchOwned closeOk (turns ++ [.read (.ok bytes)]) =
          ((new splitter).run feed dispatchOwned closeOk turns).feedOwned feed dispatchOwned
            (((new splitter).run feed dispatchOwned closeOk turns).buf ++ bytes) := by
        have small : ¬ MAX_BUF_SIZE < (((new splitter).run feed dispatchOwned closeOk turns).buf ++ bytes).length := by
          rw [List.length_append]
          omega
        rw [run, runFrom_append]
        simp only [runFrom_cons, runFrom_nil, turn]
        rw [show runFrom (turn feed dispatchOwned closeOk) (new splitter) turns =
          (new splitter).run feed dispatchOwned closeOk turns from rfl, before.1]
        simp only [some, if_false, small]
      have found := dispatched_split feed dispatchOwned closeOk streaming splitter (turns ++ [.read (.ok bytes)])
      have shown := chunks_received feed dispatchOwned closeOk (r := new splitter) rfl (turns ++ [.read (.ok bytes)])
      obtain ⟨out, rest, left, short⟩ := decodes.run_rest streaming dispatchOwned payloads fits _
        (shown.1.trans arrived) 0 taken
      have runs : ((new splitter).run feed dispatchOwned closeOk (turns ++ [.read (.ok bytes)])).result = none := by
        rcases feedOwned_result feed dispatchOwned before.1
          (((new splitter).run feed dispatchOwned closeOk turns).buf ++ bytes) with fine | failed
        · exact step ▸ fine
        · have none := found.2.mpr (step ▸ failed)
          rw [left] at none
          cases none
      have all := run_feedAll feed dispatchOwned closeOk (r := new splitter) rfl (turns ++ [.read (.ok bytes)])
      have last : (feed.feedAll dispatchOwned splitter [] 0
          ((new splitter).chunks feed dispatchOwned closeOk (turns ++ [.read (.ok bytes)]))).2 = _ := all.2.2 runs
      rw [Splitter.feedAll_flatten streaming, left] at last
      refine ⟨runs, ?_⟩
      rw [← (Prod.mk.inj (Option.some.inj last)).2]
      rcases short with rfl | ⟨payload, member, inside⟩
      · exact Nat.zero_le _
      · have bound := inside.length_le
        rw [u16Frame_length] at bound
        exact bound.trans (Nat.add_le_add_right (fits payload member) 2)

end TcpReader

open QueuedTcpSink in
/-- What the dispatcher gets is what the writes on the queued sink were accepted for, in order, and all of
the packets that are whole on the stream once the reads have caught up. -/
theorem queued_packets_reach_the_dispatcher {S : Type} (feed : Splitter S Bytes UInt8) (splitter : S)
    (streaming : Streaming feed) (decodes : Decodes feed u16Frame (fun payload => payload.length ≤ U16_MAX) splitter)
    (data : Nat → Bytes) (capacity : Nat) (acts : List QueuedAct) (dispatchOwned : Nat → Bool) (closeOk : Bool)
    (turns : List ReaderTurn)
    (arrived : received turns <+: (new.run u16BeLengthPrefixEncoder data capacity acts).emitted.map Prod.snd) :
    let s := new.run u16BeLengthPrefixEncoder data capacity acts
    let r := (TcpReader.new splitter).run feed dispatchOwned closeOk turns
    r.dispatched <+: s.accepted.map data ∧
      ((∀ i, dispatchOwned i = true) → (∀ event ∈ turns, TcpReader.ReadsSome event) →
        r.result = none ∧
          (received turns = s.emitted.map Prod.snd → s.failed = false → (∀ call left, s.task ≠ .writing call left) →
            ∃ sent, sent <+: s.accepted ∧ s.emitted = u16Frames data sent ∧ r.dispatched = sent.map data)) := by
  intro s r
  have con : Conserved u16BeLengthPrefixEncoder data s := Conserved.new.run acts
  have encoded : ∀ sent, sent <+: s.accepted → wholes u16BeLengthPrefixEncoder data sent = u16Frames data sent :=
    fun sent front => wholes_u16Frames sent fun i member => con.encoded i (front.subset member)
  have stream : received turns <+: (s.accepted.map data).flatMap u16Frame := by
    have front := con.delivery.stream_front
    rw [encoded s.accepted (List.prefix_refl _)] at front
    rw [← u16Frames_bytes]
    exact arrived.trans (front.map Prod.snd)
  have split := TcpReader.dispatched_split feed dispatchOwned closeOk streaming splitter turns
  have shown := TcpReader.chunks_received feed dispatchOwned closeOk (r := .new splitter) rfl turns
  refine ⟨?_, fun taken reads => ?_⟩
  · rw [split.1]
    exact decodes.run_front streaming dispatchOwned _ con.fits _ (shown.1.trans stream) 0
  · have runs := (TcpReader.stays_open streaming decodes dispatchOwned closeOk taken _ con.fits turns reads stream).1
    refine ⟨runs, fun all intact still => ?_⟩
    obtain ⟨sent, front, whole⟩ := con.delivery.stream_boundary intact still
    rw [encoded sent front] at whole
    refine ⟨sent, front, whole, ?_⟩
    rw [split.1, shown.2 runs, all, whole, u16Frames_bytes,
      decodes.run_whole streaming dispatchOwned _ (fun payload member =>
        con.fits payload ((front.map data).subset member)) 0 taken]

/-- One packet, written in two pieces and read in three. -/
theorem queued_packets_reach_the_dispatcher_two_pieces :
    let acts : List QueuedAct := [.write 0, .advance 0, .advance 0, .receive, .advanceTask (.accept 3),
      .advanceTask (.accept 1), .advanceTask (.accept 0)]
    let s := QueuedTcpSink.new.run u16BeLengthPrefixEncoder (fun _ => [7, 8]) 1 acts
    let r := (TcpReader.new ()).run u16FrameSplitter (fun _ => true) true
      [.read (.ok [0]), .read (.ok [2, 7]), .read (.ok [8])]
    s.emitted = [(0, 0), (0, 2), (0, 7), (0, 8)] ∧ r.result = none ∧ r.dispatched = [[7, 8]] := by
  intro acts s r
  have emitted : s.emitted = [(0, 0), (0, 2), (0, 7), (0, 8)] := by decide
  have accepted : s.accepted = [0] := by decide
  obtain ⟨-, caught⟩ := queued_packets_reach_the_dispatcher u16FrameSplitter () u16FrameSplitter_streaming
    u16FrameSplitter_decodes (fun _ => [7, 8]) 1 acts (fun _ => true) true
    [.read (.ok [0]), .read (.ok [2, 7]), .read (.ok [8])] (by decide)
  obtain ⟨runs, whole⟩ := caught (fun _ => rfl) fun event member => by
    simp only [List.mem_cons, List.not_mem_nil, or_false] at member
    rcases member with rfl | rfl | rfl <;> exact ⟨_, rfl, by decide, by decide⟩
  obtain ⟨sent, front, stream, given⟩ := whole (by decide) rfl (fun _ _ writing => by cases writing)
  refine ⟨emitted, runs, given.trans ?_⟩
  -- Something is on the stream, so the one packet accepted is among those that are whole on it.
  have some : sent ≠ [] := by
    rintro rfl
    cases emitted.symm.trans stream
  have all : sent = [0] := by
    obtain ⟨call, rest, rfl⟩ := List.exists_cons_of_ne_nil some
    rw [accepted, List.cons_prefix_cons, List.prefix_nil] at front
    rw [front.1, front.2]
  rw [all]
  rfl

end Pigs.Net.Rw
