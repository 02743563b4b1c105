import Mathlib.Data.List.Basic

/-! Splitters that cut a stream into packets while it arrives in chunks. -/

namespace Pigs.Lib

variable {P Q R S B : Type*}

/-- A computation that hands out packets and goes on with whether each was taken. -/
inductive Feed (P R : Type*) where
  | returned (result : R)
  | dispatch (packet : P) (next : Bool → Feed P R)

namespace Feed

/-- The packets handed out and the result, where `answer` tells which packet is taken and `count` packets
came before. -/
def run (answer : Nat → Bool) : Feed P R → Nat → List P × R
  | returned result, _ => ([], result)
  | dispatch packet next, count =>
      let rest := (next (answer count)).run answer (count + 1)
      (packet :: rest.1, rest.2)

/-- The one computation and then the other, unless the first fails. -/
def andThen : Feed P (Option R) → (R → Feed P (Option Q)) → Feed P (Option Q)
  | returned none, _ => returned none
  | returned (some result), next => next result
  | dispatch packet rest, next => dispatch packet fun taken => (rest taken).andThen next

theorem run_andThen (answer : Nat → Bool) (first : Feed P (Option R)) (next : R → Feed P (Option Q)) (count : Nat) :
    (first.andThen next).run answer count =
      match first.run answer count with
      | (packets, none) => (packets, none)
      | (packets, some result) =>
          let rest := (next result).run answer (count + packets.length)
          (packets ++ rest.1, rest.2) := by
  induction first generalizing count with
  | returned result => cases result <;> simp [andThen, run]
  | dispatch packet rest ih =>
      simp only [andThen, run]
      rw [ih (answer count) (count + 1)]
      cases (rest (answer count)).run answer (count + 1) with
      | mk packets result =>
          cases result with
          | none => rfl
          | some result => simp [Nat.add_assoc, Nat.add_comm 1]

end Feed

/-- A splitter takes the buffer and leaves what it has no packet for, or fails. -/
abbrev Splitter (S P B : Type*) := S → List B → Feed P (Option (S × List B))

/-- More bytes behind a buffer are split as if they had come after it. -/
structure Streaming (feed : Splitter S P B) : Prop where
  quiet : ∀ state, feed state [] = .returned (some (state, []))
  later : ∀ state first second, feed state (first ++ second) =
    (feed state first).andThen fun left => feed left.1 (left.2 ++ second)

namespace Splitter

/-- The stream that comes in chunks, the buffer given to the splitter behind each. -/
def feedAll (feed : Splitter S P B) (answer : Nat → Bool) (state : S) (buf : List B) (count : Nat) :
    List (List B) → List P × Option (S × List B)
  | [] => ([], some (state, buf))
  | chunk :: chunks =>
      match (feed state (buf ++ chunk)).run answer count with
      | (packets, none) => (packets, none)
      | (packets, some left) =>
          let rest := feedAll feed answer left.1 left.2 (count + packets.length) chunks
          (packets ++ rest.1, rest.2)

variable {feed : Splitter S P B}

theorem feedAll_cons (streaming : Streaming feed) (answer : Nat → Bool) (state : S) (buf : List B) (count : Nat)
    (chunk : List B) (chunks : List (List B)) :
    feed.feedAll answer state buf count (chunk :: chunks) =
      (feed state (buf ++ (chunk :: chunks).flatten)).run answer count := by
  induction chunks generalizing state buf count chunk with
  | nil =>
      rw [feedAll, List.flatten_singleton]
      cases (feed state (buf ++ chunk)).run answer count with
      | mk packets result =>
          cases result with
          | none => rfl
          | some left => simp [feedAll]
  | cons other chunks ih =>
      rw [feedAll, List.flatten_cons, ← List.append_assoc, streaming.later state (buf ++ chunk), Feed.run_andThen]
      cases (feed state (buf ++ chunk)).run answer count with
      | mk packets result =>
          cases result with
          | none => rfl
          | some left => simp only [ih]

/-- How the stream is cut into chunks makes no difference. -/
theorem feedAll_flatten (streaming : Streaming feed) (answer : Nat → Bool) (state : S) (chunks : List (List B)) :
    feed.feedAll answer state [] 0 chunks = (feed state chunks.flatten).run answer 0 := by
  cases chunks with
  | nil =>
      rw [List.flatten_nil, streaming.quiet]
      rfl
  | cons chunk chunks => exact feedAll_cons streaming answer state [] 0 chunk chunks

end Splitter

/-- The splitter finds a good packet at the front of a buffer, and leaves a part of one where it is. -/
structure Decodes (feed : Splitter S P B) (encode : P → List B) (good : P → Prop) (state : S) : Prop where
  whole : ∀ packet, good packet → ∀ rest, feed state (encode packet ++ rest) =
    .dispatch packet fun taken => if taken then feed state rest else .returned none
  part : ∀ packet, good packet → ∀ front, front <+: encode packet → front ≠ encode packet →
    feed state front = .returned (some (state, front))

namespace Decodes

variable {feed : Splitter S P B} {encode : P → List B} {good : P → Prop} {state : S}

/-- The packets of a stream that breaks off anywhere come out in order, up to the first that is not taken. -/
theorem run_front (decodes : Decodes feed encode good state) (streaming : Streaming feed) (answer : Nat → Bool)
    (packets : List P) (fits : ∀ packet ∈ packets, good packet) (stream : List B)
    (front : stream <+: packets.flatMap encode) (count : Nat) :
    ((feed state stream).run answer count).1 <+: packets := by
  induction packets generalizing stream count with
  | nil =>
      obtain rfl := List.prefix_nil.mp front
      rw [streaming.quiet]
      exact List.prefix_refl _
  | cons packet packets ih =>
      have fit := fits packet List.mem_cons_self
      rw [List.flatMap_cons] at front
      rcases List.prefix_or_prefix_of_prefix front (List.prefix_append ..) with inside | ⟨rest, rfl⟩
      · by_cases all : stream = encode packet
        · subst all
          rw [← List.append_nil (encode packet), decodes.whole packet fit]
          cases taken : answer count with
          | false => simp [Feed.run, taken]
          | true => simp [Feed.run, taken, streaming.quiet]
        · rw [decodes.part packet fit stream inside all]
          exact List.nil_prefix
      · rw [decodes.whole packet fit]
        have later := ih (fun p member => fits p (List.mem_cons_of_mem _ member)) rest
          ((List.prefix_append_right_inj _).mp front) (count + 1)
        cases taken : answer count with
        | false => simp [Feed.run, taken]
        | true => simpa [Feed.run, taken] using later

/-- What is left of a stream whose packets are all taken is a part of one packet. -/
theorem run_rest (decodes : Decodes feed encode good state) (streaming : Streaming feed) (answer : Nat → Bool)
    (packets : List P) (fits : ∀ packet ∈ packets, good packet) (stream : List B)
    (front : stream <+: packets.flatMap encode) (count : Nat) (taken : ∀ i, answer i = true) :
    ∃ out rest, (feed state stream).run answer count = (out, some (state, rest)) ∧
      (rest = [] ∨ ∃ packet ∈ packets, rest <+: encode packet) := by
  induction packets generalizing stream count with
  | nil =>
      obtain rfl := List.prefix_nil.mp front
      rw [streaming.quiet]
      exact ⟨[], [], rfl, Or.inl rfl⟩
  | cons packet packets ih =>
      have fit := fits packet List.mem_cons_self
      rw [List.flatMap_cons] at front
      rcases List.prefix_or_prefix_of_prefix front (List.prefix_append ..) with inside | ⟨tail, rfl⟩
      · by_cases all : stream = encode packet
        · subst all
          rw [← List.append_nil (encode packet), decodes.whole packet fit]
          exact ⟨[packet], [], by simp [Feed.run, taken, streaming.quiet], Or.inl rfl⟩
        · rw [decodes.part packet fit stream inside all]
          exact ⟨[], stream, rfl, Or.inr ⟨packet, List.mem_cons_self, inside⟩⟩
      · rw [decodes.whole packet fit]
        obtain ⟨out, rest, later, left⟩ := ih (fun p member => fits p (List.mem_cons_of_mem _ member)) tail
          ((List.prefix_append_right_inj _).mp front) (count + 1)
        refine ⟨packet :: out, rest, by simp [Feed.run, taken, later], left.imp id ?_⟩
        rintro ⟨other, member, inside⟩
        exact ⟨other, List.mem_cons_of_mem _ member, inside⟩

/-- A stream of whole packets that are all taken comes out as it went in. -/
theorem run_whole (decodes : Decodes feed encode good state) (streaming : Streaming feed) (answer : Nat → Bool)
    (packets : List P) (fits : ∀ packet ∈ packets, good packet) (count : Nat)
    (taken : ∀ i, answer i = true) :
    (feed state (packets.flatMap encode)).run answer count = (packets, some (state, [])) := by
  induction packets generalizing count with
  | nil =>
      rw [List.flatMap_nil, streaming.quiet]
      rfl
  | cons packet packets ih =>
      rw [List.flatMap_cons, decodes.whole packet (fits packet List.mem_cons_self)]
      simp only [Feed.run, taken, if_true]
      rw [ih fun p member => fits p (List.mem_cons_of_mem _ member)]

end Decodes

end Pigs.Lib
