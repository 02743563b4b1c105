import Pigs.Lib.Run
import Pigs.SysMetrics.Cpu
import Pigs.SysMetrics.Rate

/-! A collector that is sampled again and again: what its rates say of the counters over the whole time. -/

namespace Pigs.SysMetrics

open Pigs.Lib

/-- The four rates of a sample. -/
inductive Rated where
  | diskRead
  | diskWrite
  | networkReceive
  | networkTransmit

def Rated.counter : Rated → Counters → UInt64
  | diskRead => Counters.diskReadBytes
  | diskWrite => Counters.diskWriteBytes
  | networkReceive => Counters.networkReceiveBytes
  | networkTransmit => Counters.networkTransmitBytes

abbrev Rated.metric {F : Type} : Rated → HostMetrics F → UInt64
  | diskRead => HostMetrics.diskReadBytesPerSec
  | diskWrite => HostMetrics.diskWriteBytesPerSec
  | networkReceive => HostMetrics.networkReceiveBytesPerSec
  | networkTransmit => HostMetrics.networkTransmitBytesPerSec

/-- A call of `sample`: the instant, and what the files of `/proc` give then. -/
structure SampleCall (E : Type) where
  now : Nat
  read : String → Except E (List Char)

section Collector

variable {F E : Type} (parseF64 : List Char → Option F)

/-- `previous` after a call. -/
def keep (previous : Option (Nat × Counters)) (call : SampleCall E) : Option (Nat × Counters) :=
  (sampleFrom parseF64 call.read call.now previous).2

def report (previous : Option (Nat × Counters)) (call : SampleCall E) : List (HostMetrics F) :=
  (sampleFrom parseF64 call.read call.now previous).1.toOption.toList

/-- The metrics that the calls return. -/
def reports (previous : Option (Nat × Counters)) (calls : List (SampleCall E)) : List (HostMetrics F) :=
  traceFrom (keep parseF64) (report parseF64) previous calls

/-- The counters that the calls read, where they read all of them. -/
def history (calls : List (SampleCall E)) : List (Nat × Counters) :=
  calls.filterMap fun call => (readCurrent parseF64 call.read).toOption.map fun reading => (call.now, reading.2)

end Collector

/-- Each reading with the one before it. -/
def gaps (readings : List (Nat × Counters)) : List ((Nat × Counters) × (Nat × Counters)) :=
  readings.zip readings.tail

def elapsed (gap : (Nat × Counters) × (Nat × Counters)) : StdDuration := durationSince gap.2.1 gap.1.1

def gapRate (rated : Rated) (gap : (Nat × Counters) × (Nat × Counters)) : UInt64 :=
  rate (rated.counter gap.2.2) (rated.counter gap.1.2) (elapsed gap)

/-- What the counter grows by between two readings. No time between them hides it. -/
def gapGrowth (rated : Rated) (gap : (Nat × Counters) × (Nat × Counters)) : Nat :=
  if (elapsed gap).asNanos = 0 then 0 else growth (rated.counter gap.2.2) (rated.counter gap.1.2)

/-- The rates that the readings behind `before` give. -/
def ratesFrom (rated : Rated) (before : Nat × Counters) (readings : List (Nat × Counters)) : List UInt64 :=
  (gaps (before :: readings)).map (gapRate rated)

section Collector

variable {F E : Type} (parseF64 : List Char → Option F) (rated : Rated)

theorem readCurrent_rate (read : String → Except E (List Char)) (metrics : HostMetrics F) (current : Counters)
    (done : readCurrent parseF64 read = .ok (metrics, current)) : rated.metric metrics = 0 := by
  obtain ⟨stat, -, done⟩ := of_bind_ok done
  obtain ⟨cpu, -, done⟩ := of_bind_ok done
  obtain ⟨loadavg, -, done⟩ := of_bind_ok done
  obtain ⟨load, -, done⟩ := of_bind_ok done
  obtain ⟨meminfo, -, done⟩ := of_bind_ok done
  obtain ⟨diskstats, -, done⟩ := of_bind_ok done
  obtain ⟨net, -, done⟩ := of_bind_ok done
  obtain ⟨status, -, done⟩ := of_bind_ok done
  cases done
  cases rated <;> rfl

theorem since_rate (metrics : HostMetrics F) (before : Nat × Counters) (now : Nat) (current : Counters) :
    rated.metric (metrics.since before.2 current (durationSince now before.1)) =
      gapRate rated (before, (now, current)) := by
  cases rated <;>
    · rw [HostMetrics.since]
      rfl

/-- What a call does to the collector, and what it reports. -/
inductive Kept (rated : Rated) (previous : Option (Nat × Counters)) (call : SampleCall E) : Prop where
  | failed (keeps : keep parseF64 previous call = previous) (silent : report parseF64 previous call = [])
      (unread : history parseF64 [call] = [])
  | read (current : Counters) (metrics : HostMetrics F)
      (keeps : keep parseF64 previous call = some (call.now, current))
      (reported : report parseF64 previous call = [metrics])
      (known : history parseF64 [call] = [(call.now, current)])
      (value : rated.metric metrics =
        match previous with
        | none => 0
        | some before => gapRate rated (before, (call.now, current)))

theorem keep_cases (previous : Option (Nat × Counters)) (call : SampleCall E) :
    Kept parseF64 rated previous call := by
  cases done : readCurrent parseF64 call.read with
  | error failure =>
      refine .failed ?_ ?_ ?_
      · rw [keep, sampleFrom, done]
      · rw [report, sampleFrom, done]
        rfl
      · simp [history, done, Except.toOption]
  | ok reading =>
      obtain ⟨plain, current⟩ := reading
      have zero := readCurrent_rate parseF64 rated call.read plain current done
      have known : history parseF64 [call] = [(call.now, current)] := by
        simp [history, done, Except.toOption]
      cases previous with
      | none =>
          refine .read current plain ?_ ?_ known zero
          · rw [keep, sampleFrom, done]
          · rw [report, sampleFrom, done]
            rfl
      | some before =>
          by_cases still : (durationSince call.now before.1).asNanos = 0
          · refine .read current plain ?_ ?_ known ?_
            · rw [keep, sampleFrom, done]
            · rw [report, sampleFrom, done]
              simp [still, Except.toOption]
            · exact zero.trans (rate_zero _ _ _ still).symm
          · refine .read current (plain.since before.2 current (durationSince call.now before.1)) ?_ ?_ known ?_
            · rw [keep, sampleFrom, done]
            · rw [report, sampleFrom, done]
              simp [still, Except.toOption]
            · exact since_rate rated plain before call.now current

theorem history_cons (call : SampleCall E) (calls : List (SampleCall E)) :
    history parseF64 (call :: calls) = history parseF64 [call] ++ history parseF64 calls := by
  rw [history, history, history, ← List.filterMap_append]
  rfl

/-- Behind a reading, the reports are the rates between the readings, and the last reading is kept. -/
theorem reports_behind (before : Nat × Counters) (calls : List (SampleCall E)) :
    (reports parseF64 (some before) calls).map rated.metric = ratesFrom rated before (history parseF64 calls) ∧
      runFrom (keep parseF64) (some before) calls = (before :: history parseF64 calls).getLast? := by
  induction calls generalizing before with
  | nil => exact ⟨rfl, rfl⟩
  | cons call calls ih =>
      rw [reports, traceFrom, runFrom_cons, history_cons]
      cases keep_cases parseF64 rated (some before) call with
      | failed keeps silent unread =>
          rw [keeps, silent, unread]
          exact ih before
      | read current metrics keeps reported known value =>
          rw [keeps, reported, known, List.singleton_append, List.map_cons, value]
          have later := ih (call.now, current)
          rw [reports] at later
          rw [later.1, later.2]
          exact ⟨rfl, (List.getLast?_cons_cons ..).symm⟩

/-- A new collector reports no rate with its first reading, and the rates between the readings after it. -/
theorem reports_new (calls : List (SampleCall E)) :
    (reports parseF64 none calls).map rated.metric =
        (match history parseF64 calls with
        | [] => []
        | first :: readings => 0 :: ratesFrom rated first readings) ∧
      runFrom (keep parseF64) none calls = (history parseF64 calls).getLast? := by
  induction calls with
  | nil => exact ⟨rfl, rfl⟩
  | cons call calls ih =>
      rw [reports, traceFrom, runFrom_cons, history_cons]
      cases keep_cases parseF64 rated none call with
      | failed keeps silent unread =>
          rw [keeps, silent, unread]
          exact ih
      | read current metrics keeps reported known value =>
          have later := reports_behind parseF64 rated (call.now, current) calls
          rw [keeps, reported, known, List.singleton_append, List.map_cons, value]
          rw [reports] at later
          rw [later.1, later.2]
          exact ⟨rfl, rfl⟩

end Collector

/-! The rates, times the time they are for, against the growth of the counter. -/

/-- The bytes, times a billion, that reported rates stand for over the gaps they are for. -/
def weighted (rates : List UInt64) (readings : List (Nat × Counters)) : Nat :=
  (rates.zipWith (fun value gap => value.toNat * (elapsed gap).asNanos) (gaps readings)).sum

def grown (rated : Rated) (readings : List (Nat × Counters)) : Nat := ((gaps readings).map (gapGrowth rated)).sum

/-- Half of the time between the readings. -/
def halves (readings : List (Nat × Counters)) : Nat :=
  ((gaps readings).map fun gap => (elapsed gap).asNanos / 2).sum

theorem gap_upper (rated : Rated) (gap : (Nat × Counters) × (Nat × Counters)) :
    (gapRate rated gap).toNat * (elapsed gap).asNanos ≤
      gapGrowth rated gap * 1000000000 + (elapsed gap).asNanos / 2 := by
  rcases Nat.eq_zero_or_pos (elapsed gap).asNanos with zero | positive
  · rw [zero]
    exact Nat.zero_le _
  · rw [gapRate, rate_toNat _ _ _ positive, gapGrowth, if_neg positive.ne']
    exact (Nat.mul_le_mul_right _ (Nat.min_le_left ..)).trans (Nat.div_mul_le_self ..)

/-- A rate below the largest one is short by at most half of the time. -/
theorem gap_lower (rated : Rated) (gap : (Nat × Counters) × (Nat × Counters))
    (fits : (gapRate rated gap).toNat < Saturating.LIMIT) :
    gapGrowth rated gap * 1000000000 ≤
      (gapRate rated gap).toNat * (elapsed gap).asNanos + (elapsed gap).asNanos / 2 := by
  rcases Nat.eq_zero_or_pos (elapsed gap).asNanos with zero | positive
  · rw [gapGrowth, if_pos zero, Nat.zero_mul]
    exact Nat.zero_le _
  · rw [gapRate, rate_toNat _ _ _ positive] at fits
    rw [gapRate, rate_toNat _ _ _ positive, gapGrowth, if_neg positive.ne']
    generalize growth (rated.counter gap.2.2) (rated.counter gap.1.2) * 1000000000 = bytes at fits ⊢
    generalize (elapsed gap).asNanos = time at positive fits ⊢
    have exact' : min ((bytes + time / 2) / time) Saturating.LIMIT = (bytes + time / 2) / time := by omega
    have above : bytes + time / 2 < time * ((bytes + time / 2) / time + 1) := Nat.lt_mul_div_succ _ positive
    rw [exact']
    rw [Nat.mul_add, Nat.mul_one, Nat.mul_comm time] at above
    omega

section Sums

variable (rated : Rated)

theorem gaps_cons (first second : Nat × Counters) (readings : List (Nat × Counters)) :
    gaps (first :: second :: readings) = (first, second) :: gaps (second :: readings) := rfl

theorem weighted_eq (readings : List (Nat × Counters)) :
    weighted ((gaps readings).map (gapRate rated)) readings =
      ((gaps readings).map fun gap => (gapRate rated gap).toNat * (elapsed gap).asNanos).sum := by
  rw [weighted, List.zipWith_map_left, List.zipWith_self]

theorem grown_halves (readings : List (Nat × Counters)) :
    ((gaps readings).map fun gap => gapGrowth rated gap * 1000000000 + (elapsed gap).asNanos / 2).sum =
      grown rated readings * 1000000000 + halves readings := by
  rw [List.sum_map_add, List.sum_map_mul_right, grown, halves]

theorem weighted_upper (readings : List (Nat × Counters)) :
    weighted ((gaps readings).map (gapRate rated)) readings ≤
      grown rated readings * 1000000000 + halves readings := by
  rw [weighted_eq, ← grown_halves]
  exact List.sum_le_sum fun gap _ => gap_upper rated gap

theorem weighted_lower (readings : List (Nat × Counters))
    (fits : ∀ value ∈ (gaps readings).map (gapRate rated), value.toNat < Saturating.LIMIT) :
    grown rated readings * 1000000000 ≤
      weighted ((gaps readings).map (gapRate rated)) readings + halves readings := by
  rw [weighted_eq, grown, halves, ← List.sum_map_add, ← List.sum_map_mul_right]
  exact List.sum_le_sum fun gap member => gap_lower rated gap (fits _ (List.mem_map_of_mem member))

theorem durationSince_le (now earlier : Nat) : (durationSince now earlier).asNanos ≤ now - earlier := by
  simp only [durationSince, Duration.asNanos]
  omega

theorem durationSince_pos (now earlier : Nat) (later : earlier < now) : 0 < (durationSince now earlier).asNanos := by
  simp only [durationSince, Duration.asNanos, Saturating.LIMIT]
  omega

/-- Over readings of a counter that never goes back, on a clock that moves on, the growths add up. -/
theorem grown_eq (first last : Nat × Counters) (readings : List (Nat × Counters))
    (ends : (first :: readings).getLast? = some last)
    (order : (first :: readings).Pairwise fun a b => a.1 < b.1 ∧ rated.counter a.2 ≤ rated.counter b.2) :
    2 * halves (first :: readings) ≤ last.1 - first.1 ∧ first.1 ≤ last.1 ∧
      grown rated (first :: readings) + (rated.counter first.2).toNat = (rated.counter last.2).toNat := by
  induction readings generalizing first with
  | nil =>
      obtain rfl : first = last := by simpa using ends
      simp [halves, grown, gaps]
  | cons second readings ih =>
      rw [List.getLast?_cons_cons] at ends
      obtain ⟨least, rest⟩ := List.pairwise_cons.mp order
      obtain ⟨later, more⟩ := least second List.mem_cons_self
      obtain ⟨time, forward, sum⟩ := ih second ends rest
      have positive : 0 < (elapsed (first, second)).asNanos := durationSince_pos second.1 first.1 later
      have short := durationSince_le second.1 first.1
      have growth' : growth (rated.counter second.2) (rated.counter first.2) + (rated.counter first.2).toNat =
          (rated.counter second.2).toNat := by
        rw [growth, Saturating.toNat_sub]
        exact Nat.sub_add_cancel (UInt64.le_iff_toNat_le.mp more)
      have here : gapGrowth rated (first, second) =
          growth (rated.counter second.2) (rated.counter first.2) := if_neg positive.ne'
      have span : (elapsed (first, second)).asNanos ≤ second.1 - first.1 := short
      simp only [halves, grown, gaps_cons, List.map_cons, List.sum_cons, here] at time sum ⊢
      refine ⟨?_, later.le.trans forward, ?_⟩
      · omega
      · omega

end Sums

/-- Whatever calls fail, the rates that a new collector reports stand for the growth of the counter between
its readings, up to half a byte for each second, unless a rate is cut off. -/
theorem reported_rates_add_up {F E : Type} (parseF64 : List Char → Option F) (calls : List (SampleCall E))
    (rated : Rated) :
    let readings := history parseF64 calls
    let rates := (reports parseF64 none calls).map rated.metric
    runFrom (keep parseF64) none calls = readings.getLast? ∧ rates.length = readings.length ∧
      (∀ value, rates.head? = some value → value = 0) ∧
      weighted rates.tail readings ≤ grown rated readings * 1000000000 + halves readings ∧
      ((∀ value ∈ rates.tail, value.toNat < Saturating.LIMIT) →
        grown rated readings * 1000000000 ≤ weighted rates.tail readings + halves readings) ∧
      ∀ first last, readings.head? = some first → readings.getLast? = some last →
        readings.Pairwise (fun a b => a.1 < b.1 ∧ rated.counter a.2 ≤ rated.counter b.2) →
          2 * halves readings ≤ last.1 - first.1 ∧
            grown rated readings + (rated.counter first.2).toNat = (rated.counter last.2).toNat := by
  intro readings rates
  obtain ⟨reported, kept⟩ := reports_new parseF64 rated calls
  cases known : history parseF64 calls with
  | nil =>
      have none' : rates = [] := by
        rw [known] at reported
        exact reported
      have empty : readings = [] := known
      rw [none', empty]
      refine ⟨kept.trans (congrArg List.getLast? known), rfl, fun _ absent => (by cases absent), ?_, fun _ => ?_,
        fun _ _ absent => (by cases absent)⟩
      · exact Nat.zero_le _
      · simp [grown, gaps]
  | cons first rest =>
      have all : rates = 0 :: (gaps (first :: rest)).map (gapRate rated) := by
        rw [known] at reported
        exact reported
      have some : readings = first :: rest := known
      rw [all, some]
      refine ⟨kept.trans (congrArg List.getLast? known), ?_, fun value head => (Option.some.inj head).symm,
        weighted_upper rated _, weighted_lower rated _, ?_⟩
      · simp [gaps]
      · intro start last head ends order
        obtain rfl := Option.some.inj head
        obtain ⟨time, _, sum⟩ := grown_eq rated first last rest ends order
        exact ⟨time, sum⟩

end Pigs.SysMetrics
