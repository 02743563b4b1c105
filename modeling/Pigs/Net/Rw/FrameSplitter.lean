import Pigs.Lib.Streaming
import Pigs.Net.Rw.Encoder

/-! The splitter that undoes `U16BeLengthPrefixEncoder`. -/

open Pigs.Lib

namespace Pigs.Net.Rw

def u16FrameSplitter : Splitter Unit Bytes UInt8
  | _, high :: low :: rest =>
      if high.toNat * 256 + low.toNat ≤ rest.length then
        .dispatch (rest.take (high.toNat * 256 + low.toNat)) fun taken =>
          if taken then u16FrameSplitter () (rest.drop (high.toNat * 256 + low.toNat)) else .returned none
      else
        .returned (some ((), high :: low :: rest))
  | _, short => .returned (some ((), short))
termination_by _ buf => buf.length
decreasing_by simp; omega

theorem u16FrameSplitter_short (buf : Bytes) (short : buf.length < 2) :
    u16FrameSplitter () buf = .returned (some ((), buf)) := by
  match buf, short with
  | [], _ => rw [u16FrameSplitter]; simp
  | [byte], _ => rw [u16FrameSplitter]; simp

theorem u16FrameSplitter_whole (high low : UInt8) (rest : Bytes)
    (whole : high.toNat * 256 + low.toNat ≤ rest.length) :
    u16FrameSplitter () (high :: low :: rest) =
      .dispatch (rest.take (high.toNat * 256 + low.toNat)) fun taken =>
        if taken then u16FrameSplitter () (rest.drop (high.toNat * 256 + low.toNat)) else .returned none := by
  rw [u16FrameSplitter, if_pos whole]

theorem u16FrameSplitter_part (high low : UInt8) (rest : Bytes)
    (part : ¬ high.toNat * 256 + low.toNat ≤ rest.length) :
    u16FrameSplitter () (high :: low :: rest) = .returned (some ((), high :: low :: rest)) := by
  rw [u16FrameSplitter, if_neg part]

theorem u16FrameSplitter_streaming : Streaming u16FrameSplitter where
  quiet _ := u16FrameSplitter_short [] (by decide)
  later state first second := by
    induction length : first.length using Nat.strongRecOn generalizing first with
    | ind count ih =>
        match first, length with
        | [], _ =>
            rw [u16FrameSplitter_short [] (by decide)]
            rfl
        | [byte], _ =>
            rw [u16FrameSplitter_short [byte] (by simp)]
            rfl
        | high :: low :: rest, length =>
            rw [List.cons_append, List.cons_append]
            by_cases whole : high.toNat * 256 + low.toNat ≤ rest.length
            · have more : high.toNat * 256 + low.toNat ≤ (rest ++ second).length := by
                rw [List.length_append]
                omega
              rw [u16FrameSplitter_whole high low rest whole, u16FrameSplitter_whole high low _ more,
                List.take_append_of_le_length whole, List.drop_append_of_le_length whole, Feed.andThen]
              congr 1
              funext taken
              cases taken with
              | false => rfl
              | true =>
                  refine ih (rest.drop (high.toNat * 256 + low.toNat)).length ?_ _ rfl
                  simp only [List.length_cons] at length
                  rw [List.length_drop]
                  omega
            · rw [u16FrameSplitter_part high low rest whole]
              rfl

/-- The two bytes in front of a frame give its length. -/
theorem u16Frame_cons (payload : Bytes) (fits : payload.length ≤ U16_MAX) :
    ∃ high low : UInt8, u16Frame payload = high :: low :: payload ∧ high.toNat * 256 + low.toNat = payload.length := by
  refine ⟨UInt8.ofNat (payload.length / 256 % 256), UInt8.ofNat (payload.length % 256), ?_, ?_⟩
  · simp [u16Frame, toBeBytes]
  · simp only [U16_MAX] at fits
    simp only [UInt8.toNat_ofNat']
    omega

theorem u16FrameSplitter_decodes :
    Decodes u16FrameSplitter u16Frame (fun payload => payload.length ≤ U16_MAX) () where
  whole payload fits rest := by
    obtain ⟨high, low, frame, length⟩ := u16Frame_cons payload fits
    have whole : high.toNat * 256 + low.toNat ≤ (payload ++ rest).length := by
      rw [length, List.length_append]
      omega
    rw [frame, List.cons_append, List.cons_append, u16FrameSplitter_whole high low _ whole, length]
    simp
  part payload fits front inside different := by
    obtain ⟨high, low, frame, length⟩ := u16Frame_cons payload fits
    rw [frame] at inside different
    match front, inside, different with
    | [], _, _ => exact u16FrameSplitter_short [] (by decide)
    | [byte], _, _ => exact u16FrameSplitter_short [byte] (by simp)
    | first :: second :: rest, inside, different =>
        obtain ⟨tail, split⟩ := inside
        simp only [List.cons_append, List.cons.injEq] at split
        obtain ⟨rfl, rfl, split⟩ := split
        refine u16FrameSplitter_part first second rest ?_
        rw [length, ← split, List.length_append]
        intro short
        have empty : tail = [] := List.length_eq_zero_iff.mp (by omega)
        subst empty
        exact different (by rw [← split, List.append_nil])

end Pigs.Net.Rw
