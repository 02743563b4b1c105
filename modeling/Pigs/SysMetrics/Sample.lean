import Pigs.Lib.Duration
import Pigs.Lib.Saturating
import Pigs.Logger.Rules

/-! `sample_from` on Linux: the texts of procfs, the counters that are read from them, and the rates
between two samples. Floating-point numbers are of a type `F`, and the parser of them is a parameter. -/

namespace Pigs.SysMetrics

open Pigs.Lib
open Pigs.Logger (isWhitespace)

/-- `str::lines` -/
def lines (input : List Char) : List (List Char) :=
  match (input.splitOn '\n').reverse with
  | [] => []
  | last :: before =>
      before.reverse.map (fun line => if line.getLast? = some '\r' then line.dropLast else line) ++
        if last = [] then [] else [last]

/-- `str::split_whitespace` -/
def splitWhitespace (line : List Char) : List (List Char) :=
  (line.splitOnP isWhitespace).filter fun word => !word.isEmpty

def startsWith (text : List Char) (start : String) : Bool := start.toList.isPrefixOf text

def stripPrefix (text : List Char) (start : String) : Option (List Char) :=
  if startsWith text start then some (text.drop start.toList.length) else none

/-- The digits of an unsigned number, which `str::parse` lets a plus sign precede. -/
def parseDigits (text : List Char) : Option Nat :=
  let digits := if text.head? = some '+' then text.tail else text
  if digits.isEmpty then none
  else if digits.all Char.isDigit then
    some (digits.foldl (fun value digit => value * 10 + (digit.toNat - 48)) 0)
  else none

/-- `str::parse::<u64>` -/
def parseU64 (text : List Char) : Option UInt64 :=
  (parseDigits text).bind fun value => if value < 18446744073709551616 then some (.ofNat value) else none

/-- `str::parse::<u32>` -/
def parseU32 (text : List Char) : Option UInt32 :=
  (parseDigits text).bind fun value => if value < 4294967296 then some (.ofNat value) else none

inductive InvalidData where
  | missing (message : String)
  | number
  deriving DecidableEq

/-- What `parse_cpu` returns, and whether the sum of the fields has wrapped, where a build with overflow
checks panics. -/
structure CpuTimes where
  total : UInt64
  idle : UInt64
  overflowed : Bool
  deriving DecidableEq

/-- The fields of the aggregate line. -/
def cpuValues (input : List Char) : Except InvalidData (List UInt64) :=
  match (lines input).find? fun line => startsWith line "cpu " with
  | none => .error (.missing "missing aggregate cpu line")
  | some line =>
      match ((splitWhitespace line).drop 1).mapM parseU64 with
      | none => .error .number
      | some values => .ok values

/-- One addition of `Iterator::sum`. -/
def sumStep (sum : UInt64 × Bool) (value : UInt64) : UInt64 × Bool :=
  (sum.1 + value, sum.2 || decide (18446744073709551616 ≤ sum.1.toNat + value.toNat))

def parseCpu (input : List Char) : Except InvalidData CpuTimes :=
  match cpuValues input with
  | .error invalid => .error invalid
  | .ok values =>
      let sum := values.foldl sumStep (0, false)
      let idle := Saturating.add ((values[3]?).getD 0) ((values[4]?).getD 0)
      .ok ⟨sum.1, idle, sum.2⟩

/-- The name and the sectors read and written of a row of `/proc/diskstats`. -/
def diskSectors (line : List Char) : Option (UInt64 × UInt64) := do
  let fields := splitWhitespace line
  let name ← fields[2]?
  if startsWith name "loop" || startsWith name "ram" || startsWith name "fd" then
    none
  else
    let readSectors ← fields[5]?.bind parseU64
    let writeSectors ← fields[9]?.bind parseU64
    return (readSectors, writeSectors)

def diskRow (line : List Char) : Option (UInt64 × UInt64) :=
  (diskSectors line).map fun sectors => (Saturating.mul sectors.1 512, Saturating.mul sectors.2 512)

/-- The `fold` of `parse_disk` and `parse_network`. -/
def addBoth (acc value : UInt64 × UInt64) : UInt64 × UInt64 :=
  (Saturating.add acc.1 value.1, Saturating.add acc.2 value.2)

def parseDisk (input : List Char) : UInt64 × UInt64 :=
  ((lines input).filterMap diskRow).foldl addBoth (0, 0)

def networkRow (line : List Char) : Option (UInt64 × UInt64) :=
  if line.contains ':' then
    let name := line.takeWhile (· ≠ ':')
    let fields := splitWhitespace ((line.dropWhile (· ≠ ':')).drop 1)
    if Logger.trim name = "lo".toList then
      none
    else do
      let received ← fields[0]?.bind parseU64
      let transmitted ← fields[8]?.bind parseU64
      return (received, transmitted)
  else
    none

def parseNetwork (input : List Char) : UInt64 × UInt64 :=
  (((lines input).drop 2).filterMap networkRow).foldl addBoth (0, 0)

/-- The text behind a name, in the first line that starts with it. -/
def findField (input : List Char) (name : String) : Option (List Char) :=
  (lines input).findSome? fun line => stripPrefix line name

def kilobytes (input : List Char) (name : String) : UInt64 :=
  Saturating.mul ((((findField input name).bind fun rest => (splitWhitespace rest)[0]?).bind parseU64).getD 0)
    1024

structure Memory where
  total : UInt64
  available : UInt64
  swapTotal : UInt64
  swapFree : UInt64

def parseMemory (input : List Char) : Memory where
  total := kilobytes input "MemTotal:"
  available := kilobytes input "MemAvailable:"
  swapTotal := kilobytes input "SwapTotal:"
  swapFree := kilobytes input "SwapFree:"

def parseProcess (input : List Char) : UInt64 × UInt32 :=
  (kilobytes input "VmRSS:",
    ((findField input "Threads:").bind fun rest => parseU32 (Logger.trim rest)).getD 0)

/-- `str::parse::<f64>` is `parseF64`. -/
def parseLoad {F : Type} (parseF64 : List Char → Option F) (input : List Char) :
    Except InvalidData (F × F × F) :=
  match ((splitWhitespace input).take 3).mapM parseF64 with
  | none => .error .number
  | some [first, second, third] => .ok (first, second, third)
  | some _ => .error (.missing "invalid loadavg")

/-- The arithmetic of `u128`. -/
def saturatingMul128 (first second : Nat) : Nat := min (first * second) 340282366920938463463374607431768211455

def saturatingAdd128 (first second : Nat) : Nat := min (first + second) 340282366920938463463374607431768211455

def rate (current previous : UInt64) (elapsed : StdDuration) : UInt64 :=
  let elapsedNanos := elapsed.asNanos
  if elapsedNanos = 0 then
    0
  else
    let bytes := (Saturating.sub current previous).toNat
    let perSecond := saturatingAdd128 (saturatingMul128 bytes 1000000000) (elapsedNanos / 2) / elapsedNanos
    .ofNatClamp perSecond

structure Counters where
  cpuTotal : UInt64
  cpuIdle : UInt64
  diskReadBytes : UInt64
  diskWriteBytes : UInt64
  networkReceiveBytes : UInt64
  networkTransmitBytes : UInt64

/-- `checked_div` -/
def checkedDiv (first second : UInt64) : Option UInt64 := if second = 0 then none else some (first / second)

def busyBasisPoints (before current : Counters) : Option UInt64 :=
  let totalDelta := Saturating.sub current.cpuTotal before.cpuTotal
  let idleDelta := Saturating.sub current.cpuIdle before.cpuIdle
  checkedDiv (Saturating.mul (Saturating.sub totalDelta idleDelta) 10000) totalDelta

/-- `cpuUsage` is `cpu_usage_percent` in basis points, before the division by `100.0`. -/
structure HostMetrics (F : Type) where
  cpuUsage : Nat
  loadAverage1m : F
  loadAverage5m : F
  loadAverage15m : F
  memoryTotalBytes : UInt64
  memoryUsedBytes : UInt64
  swapTotalBytes : UInt64
  swapUsedBytes : UInt64
  diskReadBytesPerSec : UInt64
  diskWriteBytesPerSec : UInt64
  networkReceiveBytesPerSec : UInt64
  networkTransmitBytesPerSec : UInt64
  processResidentMemoryBytes : UInt64
  processThreads : UInt32

variable {F : Type}

/-- The rates since the sample before. -/
def HostMetrics.since (metrics : HostMetrics F) (before current : Counters) (elapsed : StdDuration) :
    HostMetrics F :=
  { metrics with
    cpuUsage :=
      match busyBasisPoints before current with
      | some points => if points.toNat < 4294967296 then points.toNat else 10000
      | none => metrics.cpuUsage
    diskReadBytesPerSec := rate current.diskReadBytes before.diskReadBytes elapsed
    diskWriteBytesPerSec := rate current.diskWriteBytes before.diskWriteBytes elapsed
    networkReceiveBytesPerSec := rate current.networkReceiveBytes before.networkReceiveBytes elapsed
    networkTransmitBytesPerSec := rate current.networkTransmitBytes before.networkTransmitBytes elapsed }

/-- `Instant::duration_since`; instants are in nanoseconds. -/
def durationSince (now earlier : Nat) : StdDuration where
  secs := min ((now - earlier) / 1000000000) Saturating.LIMIT
  nanos := (now - earlier) % 1000000000
  small := Duration.rest_small _
  fits := Nat.lt_succ_of_le (Nat.min_le_right ..)

inductive SampleError (E : Type) where
  | read (error : E)
  | invalid (data : InvalidData)

variable {E : Type}

/-- What a sample reads, before it looks at the sample before. -/
def readCurrent (parseF64 : List Char → Option F) (read : String → Except E (List Char)) :
    Except (SampleError E) (HostMetrics F × Counters) := do
  let cpu ← (parseCpu (← (read "/proc/stat").mapError .read)).mapError .invalid
  let loadAverage ← (parseLoad parseF64 (← (read "/proc/loadavg").mapError .read)).mapError .invalid
  let memory := parseMemory (← (read "/proc/meminfo").mapError .read)
  let disk := parseDisk (← (read "/proc/diskstats").mapError .read)
  let network := parseNetwork (← (read "/proc/net/dev").mapError .read)
  let process := parseProcess (← (read "/proc/self/status").mapError .read)
  let current : Counters :=
    { cpuTotal := cpu.total
      cpuIdle := cpu.idle
      diskReadBytes := disk.1
      diskWriteBytes := disk.2
      networkReceiveBytes := network.1
      networkTransmitBytes := network.2 }
  let metrics : HostMetrics F :=
    { cpuUsage := 0
      loadAverage1m := loadAverage.1
      loadAverage5m := loadAverage.2.1
      loadAverage15m := loadAverage.2.2
      memoryTotalBytes := memory.total
      memoryUsedBytes := Saturating.sub memory.total memory.available
      swapTotalBytes := memory.swapTotal
      swapUsedBytes := Saturating.sub memory.swapTotal memory.swapFree
      diskReadBytesPerSec := 0
      diskWriteBytesPerSec := 0
      networkReceiveBytesPerSec := 0
      networkTransmitBytesPerSec := 0
      processResidentMemoryBytes := process.1
      processThreads := process.2 }
  return (metrics, current)

/-- The second part is `previous` after the call. -/
def sampleFrom (parseF64 : List Char → Option F) (read : String → Except E (List Char)) (now : Nat)
    (previous : Option (Nat × Counters)) :
    Except (SampleError E) (HostMetrics F) × Option (Nat × Counters) :=
  match readCurrent parseF64 read with
  | .error error => (.error error, previous)
  | .ok (metrics, current) =>
      let sampled :=
        match previous with
        | none => metrics
        | some (previousAt, before) =>
            let elapsed := durationSince now previousAt
            if elapsed.asNanos = 0 then metrics else metrics.since before current elapsed
      (.ok sampled, some (now, current))

end Pigs.SysMetrics
