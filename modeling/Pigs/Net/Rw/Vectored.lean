import Mathlib.Algebra.BigOperators.Intervals
import Pigs.Net.Rw.WriteAll

/-! The whole loops of `write_all_vectored_2` and `write_all` against every sequence of answers of the
stream. -/

namespace Pigs.Net.Rw

/-- What a loop has given to the stream, in how many calls, and how it ended. -/
structure Sent where
  out : Bytes
  calls : Nat
  result : Except WriteError Unit

/-- `answers n` is the answer of the stream to call `n`. -/
def writeAllVectored2 (answers : Nat → StreamResult) (call : Nat) (s : Slices) : Sent :=
  if s.finished then
    ⟨[], 0, .ok ()⟩
  else
    match turned : s.turn (answers call) with
    | (out, .error error) => ⟨out, 1, .error error⟩
    | (out, .ok rest) =>
        let later := writeAllVectored2 answers (call + 1) rest
        ⟨out ++ later.out, later.calls + 1, later.result⟩
  termination_by s.bytes.length
  decreasing_by
    obtain ⟨split, some⟩ := s.turn_ok rest _ out turned
    have positive := List.length_pos_of_ne_nil some
    have total := congrArg List.length split
    rw [List.length_append] at total
    omega

/-- `AsyncWriteExt::write_all` of one buffer. -/
def writeAll (answers : Nat → StreamResult) (call : Nat) (buf : Bytes) : Sent :=
  if buf = [] then
    ⟨[], 0, .ok ()⟩
  else
    match answers call with
    | .fail => ⟨[], 1, .error .io⟩
    | .accept count =>
        if zero : min count buf.length = 0 then
          ⟨[], 1, .error .writeZero⟩
        else
          let later := writeAll answers (call + 1) (buf.drop (min count buf.length))
          ⟨buf.take (min count buf.length) ++ later.out, later.calls + 1, later.result⟩
  termination_by buf.length
  decreasing_by
    rw [List.length_drop]
    omega

def writeEncodedPacket (answers : Nat → StreamResult) : EncodedPacket → Sent
  | .single data => writeAll answers 0 data
  | .inlinePrefix header payload =>
      writeAllVectored2 answers 0 { first := header.asSlice, second := payload }

namespace Slices

/-- The turn of the loop is a step of `write_all` on what is left of both slices. -/
theorem turn_accept (s : Slices) (count : Nat) (some : min count s.bytes.length ≠ 0) :
    ∃ rest, s.turn (.accept count) = (s.bytes.take (min count s.bytes.length), .ok rest) ∧
      rest.bytes = s.bytes.drop (min count s.bytes.length) := by
  have left := s.drop_bytes (min count s.bytes.length) (Nat.min_le_right ..)
  simp only [turn, offered_eq]
  rw [if_neg some]
  by_cases short : min count s.bytes.length < s.first.length
  · rw [if_pos short]
    exact ⟨_, rfl, left.1 short⟩
  · rw [if_neg short]
    exact ⟨_, rfl, left.2 short⟩

theorem turn_zero (s : Slices) (count : Nat) (zero : min count s.bytes.length = 0) :
    s.turn (.accept count) = ([], .error .writeZero) := by
  simp only [turn, offered_eq]
  rw [if_pos zero]

end Slices

/-- The two slices are written as their concatenation would be. -/
theorem writeAllVectored2_eq (answers : Nat → StreamResult) (call : Nat) (s : Slices) :
    writeAllVectored2 answers call s = writeAll answers call s.bytes := by
  fun_induction writeAllVectored2 answers call s with
  | case1 call s finished => rw [writeAll, if_pos (s.finished_iff.mp finished)]
  | case2 call s unfinished out error turned =>
      rw [writeAll, if_neg fun empty => unfinished (s.finished_iff.mpr empty)]
      cases answer : answers call with
      | fail =>
          rw [answer] at turned
          cases turned
          rfl
      | accept count =>
          rw [answer] at turned
          by_cases zero : min count s.bytes.length = 0
          · rw [s.turn_zero count zero] at turned
            cases turned
            simp only [dif_pos zero]
          · obtain ⟨rest, done, -⟩ := s.turn_accept count zero
            rw [done] at turned
            cases turned
  | case3 call s unfinished out rest turned later ih =>
      rw [writeAll, if_neg fun empty => unfinished (s.finished_iff.mpr empty)]
      cases answer : answers call with
      | fail =>
          rw [answer] at turned
          cases turned
      | accept count =>
          rw [answer] at turned
          by_cases zero : min count s.bytes.length = 0
          · rw [s.turn_zero count zero] at turned
            cases turned
          · obtain ⟨left, done, same⟩ := s.turn_accept count zero
            rw [done] at turned
            cases turned
            simp only [later, ih, same, dif_neg zero]

/-- What is given to the stream is the front of the buffer, and all of it when the loop ends well. -/
theorem writeAll_front (answers : Nat → StreamResult) (call : Nat) (buf : Bytes) :
    (writeAll answers call buf).out <+: buf ∧
      ((writeAll answers call buf).result = .ok () → (writeAll answers call buf).out = buf) := by
  fun_induction writeAll answers call buf with
  | case1 call => exact ⟨List.prefix_rfl, fun _ => rfl⟩
  | case2 call buf some answer => exact ⟨List.nil_prefix, nofun⟩
  | case3 call buf some count answer zero => exact ⟨List.nil_prefix, nofun⟩
  | case4 call buf some count answer positive later ih =>
      have split := List.take_append_drop (min count buf.length) buf
      constructor
      · conv_rhs => rw [← split]
        exact (List.prefix_append_right_inj _).mpr ih.1
      · intro ok
        conv_rhs => rw [← split]
        rw [ih.2 ok]

/-- Every call but the last one takes a byte, and the last one is made while bytes are left. -/
theorem writeAll_calls (answers : Nat → StreamResult) (call : Nat) (buf : Bytes) :
    (writeAll answers call buf).calls ≤ buf.length := by
  fun_induction writeAll answers call buf with
  | case1 call => exact Nat.zero_le _
  | case2 call buf some answer => exact List.length_pos_of_ne_nil some
  | case3 call buf some count answer zero => exact List.length_pos_of_ne_nil some
  | case4 call buf some count answer positive later ih =>
      have fewer : later.calls ≤ buf.length - min count buf.length := by
        rw [← List.length_drop]
        exact ih
      have length := List.length_pos_of_ne_nil some
      change later.calls + 1 ≤ buf.length
      omega

def StreamResult.count : StreamResult → Nat
  | .accept count => count
  | .fail => 0

/-- A call takes nothing while bytes are left: every call before took some, and not all. -/
def Starves (answers : Nat → StreamResult) (call length : Nat) : Prop :=
  ∃ n, answers (call + n) = .accept 0 ∧ (∀ i < n, 0 < (answers (call + i)).count) ∧
    ∑ i ∈ Finset.range n, (answers (call + i)).count < length

/-- The first call does not starve the loop, and the others starve what it leaves. -/
theorem starves_succ {answers : Nat → StreamResult} {call length : Nat}
    (positive : 0 < (answers call).count) :
    Starves answers call length ↔ Starves answers (call + 1) (length - (answers call).count) := by
  have shift : ∀ i, call + 1 + i = call + (i + 1) := fun i => by omega
  constructor
  · rintro ⟨n, zero, before, short⟩
    cases n with
    | zero =>
        rw [Nat.add_zero] at zero
        rw [zero] at positive
        cases positive
    | succ n =>
        rw [Finset.sum_range_succ'] at short
        refine ⟨n, by rw [shift]; exact zero, ?_, ?_⟩
        · intro i inside
          rw [shift]
          exact before (i + 1) (Nat.succ_lt_succ inside)
        · simp only [shift]
          simp only [Nat.add_zero] at short
          omega
  · rintro ⟨n, zero, before, short⟩
    refine ⟨n + 1, by rw [← shift]; exact zero, ?_, ?_⟩
    · intro i inside
      cases i with
      | zero => exact positive
      | succ i =>
          rw [← shift]
          exact before i (Nat.lt_of_succ_lt_succ inside)
    · rw [Finset.sum_range_succ']
      simp only [shift] at short
      simp only [Nat.add_zero]
      omega

theorem writeAll_writeZero (answers : Nat → StreamResult) (call : Nat) (buf : Bytes) :
    (writeAll answers call buf).result = .error .writeZero ↔ Starves answers call buf.length := by
  fun_induction writeAll answers call buf with
  | case1 call =>
      refine iff_of_false nofun ?_
      rintro ⟨n, -, -, short⟩
      cases short
  | case2 call buf some answer =>
      refine iff_of_false nofun ?_
      rintro ⟨n, zero, before, -⟩
      cases n with
      | zero =>
          rw [Nat.add_zero, answer] at zero
          cases zero
      | succ n =>
          have first := before 0 (Nat.succ_pos n)
          rw [Nat.add_zero, answer] at first
          cases first
  | case3 call buf some count answer zero =>
      have length := List.length_pos_of_ne_nil some
      have none : count = 0 := by omega
      subst none
      exact iff_of_true rfl ⟨0, answer, nofun, length⟩
  | case4 call buf some count answer positive later ih =>
      have taken : (answers call).count = count := by rw [answer]; rfl
      have rest : buf.length - min count buf.length = buf.length - count := by omega
      rw [starves_succ (by omega), taken, ← rest, ← List.length_drop]
      exact ih

/-- For every sequence of answers of the stream the loop comes to an end, within one call for each byte.
It ends well with the stream having all of `first ++ second`, and otherwise with a front of it; and with
`WriteZero` exactly when a call takes nothing while bytes are left. A packet with an inline prefix is
written as the single buffer would be. -/
theorem vectored_write_exact (answers : Nat → StreamResult) (first second : Bytes) :
    let sent := writeAllVectored2 answers 0 { first, second }
    sent.calls ≤ (first ++ second).length ∧
    (sent.result = .ok () → sent.out = first ++ second) ∧
    (∀ error, sent.result = .error error → sent.out <+: first ++ second) ∧
    (sent.result = .error .writeZero ↔ Starves answers 0 (first ++ second).length) ∧
    ∀ header : InlinePrefix, ∀ payload, writeEncodedPacket answers (.inlinePrefix header payload) =
      writeEncodedPacket answers (.single (header.asSlice ++ payload)) := by
  intro sent
  have same : sent = writeAll answers 0 (first ++ second) := writeAllVectored2_eq answers 0 { first, second }
  rw [same]
  obtain ⟨front, all⟩ := writeAll_front answers 0 (first ++ second)
  refine ⟨writeAll_calls answers 0 _, all, fun _ _ => front, writeAll_writeZero answers 0 _, ?_⟩
  intro header payload
  exact writeAllVectored2_eq answers 0 _

end Pigs.Net.Rw
