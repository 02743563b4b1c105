import Pigs.Lib.Radix
import Pigs.Lib.Run
import Pigs.Logger.Rules

/-! The commands `start`, `stop` and `restart` of the daemon, one after another, over the pid file, the
`daemon` flag of the meta file and the processes of the machine. The `daemonize` crate is a parameter. -/

set_option linter.dupNamespace false

namespace Pigs.Daemon

open Pigs.Lib

def DAEMON_STOP_TIMEOUT_SECS : Nat := 10

/-- Another program, or a child of `Daemonize`: before its exclusive lock on the pid file, with the lock,
and with its pid written. -/
inductive Stage where
  | other
  | forked
  | locked (inode : Nat)
  | published (inode : Nat)
  deriving DecidableEq

structure Process where
  uid : Nat
  stage : Stage
  deriving DecidableEq

structure PidFile where
  inode : Nat
  content : List Char
  deriving DecidableEq

/-- What `start_service` uses of the `daemonize` crate: `create` opens or creates the pid file and locks it
for the child (`none` where it gives up), given the holders of the locks and the inode of a new file;
`write` puts the child's pid into the file. -/
structure Daemonize where
  create : Option PidFile → (Nat → Option Nat) → Nat → Option PidFile
  write : PidFile → Nat → PidFile

/-- The pid is written in decimal digits, over what the file held. A line break behind it does no harm. -/
def Daemonize.WritesPid (d : Daemonize) : Prop :=
  ∀ file pid, (d.write file pid).inode = file.inode ∧
    Logger.trim (d.write file pid).content = Nat.toDigits 10 pid

/-- Where the command is. `restart` tells which of the two commands called `stop_service`. -/
inductive Cli where
  | idle
  | starting
  | startChecks (pid : Nat)
  | launching
  | stopping (restart : Bool)
  | stopChecks (restart : Bool) (pid : Nat)
  | terminating (restart : Bool) (pid : Nat)
  | waiting (restart : Bool) (pid started : Nat)
  | sleeping (restart : Bool) (pid started wake : Nat)
  | killing (restart : Bool) (pid : Nat)
  | killed (restart : Bool) (pid wake : Nat)
  | stopped (restart : Bool) (result : Bool)
  | resting (wake : Nat)
  deriving DecidableEq

/-- `locks` is the process that holds the exclusive lock of an inode, `uid` the user of the last
command. -/
structure Machine where
  processes : Nat → Option Process
  locks : Nat → Option Nat
  file : Option PidFile
  nextInode : Nat
  metaDaemon : Option Bool
  cli : Cli
  uid : Nat
  now : Nat

/-- `start`, `stop` and `restart` are the commands and `advance` their next step, where `exec` tells
whether a `kill` could be executed, `removed` whether the file could be removed and `child` the pid that a
fork gives. The others are the processes and the time. -/
inductive Act where
  | start (uid : Nat) (daemon : Bool)
  | stop (uid : Nat)
  | restart (uid : Nat)
  | advance (exec removed : Bool) (child : Nat)
  | lock (pid : Nat)
  | publish (pid : Nat)
  | exit (pid : Nat)
  | appear (pid uid : Nat)
  | elapse (millis : Nat)
  deriving DecidableEq

namespace Machine

/-- `trim().parse::<i32>()`, of which only a positive number is taken. -/
def parsePid (content : List Char) : Option Nat :=
  (fromStrRadix (2 ^ 31) 10 (Logger.trim content)).filter (0 < ·)

def readPid (s : Machine) : Option Nat := s.file.bind fun file => parsePid file.content

/-- `kill` signals the processes of its own user, and every process for root. -/
def mayKill (s : Machine) (uid pid : Nat) : Bool :=
  match s.processes pid with
  | none => false
  | some process => uid == 0 || uid == process.uid

/-- `kill(pid, 0) == 0`, which is false for a process that must not be signalled, too. -/
def isProcessRunning (s : Machine) (pid : Nat) : Bool := s.mayKill s.uid pid

/-- The result of `remove_file` is ignored. -/
def removePidFile (s : Machine) (removed : Bool) : Machine :=
  { s with file := if removed then none else s.file }

def setProcess (s : Machine) (pid : Nat) (process : Option Process) : Machine :=
  { s with processes := Function.update s.processes pid process }

/-- The next step of the command. The forked child gets a pid that is not in use. -/
def advance (s : Machine) (exec removed : Bool) (child : Nat) : Machine :=
  match s.cli with
  | .starting =>
      match s.readPid with
      | some pid => { s with cli := .startChecks pid }
      | none => { s with cli := .launching }
  | .startChecks pid =>
      if s.isProcessRunning pid then
        { s with cli := .idle }
      else
        { s.removePidFile removed with cli := .launching }
  | .launching =>
      match s.processes child with
      | none => { s.setProcess child (some ⟨s.uid, .forked⟩) with cli := .idle }
      | some _ => s
  | .stopping restart =>
      match s.readPid with
      | some pid => { s with cli := .stopChecks restart pid }
      | none => { s with cli := .stopped restart true }
  | .stopChecks restart pid =>
      if s.isProcessRunning pid then
        { s with cli := .terminating restart pid }
      else
        { s.removePidFile removed with cli := .stopped restart true }
  | .terminating restart pid =>
      if exec && s.isProcessRunning pid then
        { s with cli := .waiting restart pid s.now }
      else
        { s with cli := .stopped restart false }
  | .waiting restart pid started =>
      if s.now - started < DAEMON_STOP_TIMEOUT_SECS * 1000 then
        if s.isProcessRunning pid then
          { s with cli := .sleeping restart pid started (s.now + 200) }
        else
          { s.removePidFile removed with cli := .stopped restart true }
      else
        { s with cli := .killing restart pid }
  | .sleeping restart pid started wake =>
      if wake ≤ s.now then { s with cli := .waiting restart pid started } else s
  | .killing restart pid => { s with cli := .killed restart pid (s.now + 200) }
  | .killed restart pid wake =>
      if wake ≤ s.now then
        if s.isProcessRunning pid then
          { s with cli := .stopped restart false }
        else
          { s.removePidFile removed with cli := .stopped restart true }
      else
        s
  | .stopped restart result =>
      if restart && result then { s with cli := .resting (s.now + 300) } else { s with cli := .idle }
  | .resting wake => if wake ≤ s.now then { s with cli := .starting } else s
  | .idle => s

/-- `stop` and `restart` reach the service where the last `start` was one with `-d`. -/
def reach (s : Machine) (uid : Nat) (restart : Bool) : Machine :=
  match s.cli, s.metaDaemon with
  | .idle, some true => { s with cli := .stopping restart, uid := uid }
  | _, _ => s

/-- A child opens or creates the pid file and asks for its lock, without which it gives up. -/
def lock (d : Daemonize) (s : Machine) (pid : Nat) : Machine :=
  match s.processes pid with
  | some ⟨uid, .forked⟩ =>
      match d.create s.file s.locks s.nextInode with
      | none => s.setProcess pid none
      | some file =>
          { s.setProcess pid (some ⟨uid, .locked file.inode⟩) with
            file := some file
            locks := Function.update s.locks file.inode (some pid)
            nextInode := s.nextInode + 1 }
  | _ => s

/-- The privileged action is over, and the child writes its pid into the file that it has locked, which
may not be at the path any more. -/
def publish (d : Daemonize) (s : Machine) (pid : Nat) : Machine :=
  match s.processes pid with
  | some ⟨uid, .locked inode⟩ =>
      { s.setProcess pid (some ⟨uid, .published inode⟩) with
        file := s.file.map fun file => if file.inode = inode then d.write file pid else file }
  | _ => s

/-- A process ends, and its locks with it. -/
def exit (s : Machine) (pid : Nat) : Machine :=
  { s.setProcess pid none with locks := fun inode => if s.locks inode = some pid then none else s.locks inode }

/-- A command that comes while another one runs is ignored. -/
def step (d : Daemonize) (s : Machine) : Act → Machine
  | .start uid daemon =>
      match s.cli with
      | .idle => { s with metaDaemon := some daemon, cli := if daemon then .starting else .idle, uid := uid }
      | _ => s
  | .stop uid => s.reach uid false
  | .restart uid => s.reach uid true
  | .advance exec removed child => s.advance exec removed child
  | .lock pid => s.lock d pid
  | .publish pid => s.publish d pid
  | .exit pid => s.exit pid
  | .appear pid uid =>
      match s.processes pid with
      | none => s.setProcess pid (some ⟨uid, .other⟩)
      | some _ => s
  | .elapse millis => { s with now := s.now + millis }

end Machine

/-! The invariant: the one daemon, its lock and its pid. -/

namespace Process

/-- A child of `Daemonize`. -/
def daemon (process : Process) : Bool :=
  match process.stage with
  | .other => false
  | _ => true

/-- The inode that a child of `Daemonize` has locked. -/
def inode (process : Process) : Option Nat :=
  match process.stage with
  | .locked inode => some inode
  | .published inode => some inode
  | _ => none

end Process

namespace Machine

/-- The largest pid of Linux. -/
def PID_MAX : Nat := 4194304

def Daemon (s : Machine) (pid : Nat) : Prop := ∃ process, s.processes pid = some process ∧ process.daemon = true

def Published (s : Machine) (pid : Nat) : Prop := ∃ uid inode, s.processes pid = some ⟨uid, .published inode⟩

/-- No child of `Daemonize` is on its way to its pid, and the user may signal every one. -/
def Reaches (s : Machine) (uid : Nat) : Prop :=
  ∀ pid, s.Daemon pid → s.Published pid ∧ s.mayKill uid pid = true

/-- A command starts where the daemon has written its pid, for root or the user of the daemon. -/
def Settled (s : Machine) : Act → Prop
  | .start uid _ => s.Reaches uid
  | .stop uid => s.Reaches uid
  | .restart uid => s.Reaches uid
  | .advance _ _ child => 0 < child ∧ child ≤ PID_MAX
  | _ => True

/-- The daemon is the process that the command found. -/
def Finds (s : Machine) (found : Nat) : Prop := s.Reaches s.uid ∧ ∀ pid, s.Daemon pid → pid = found

/-- What a command knows of the daemon. -/
def Phase (s : Machine) : Cli → Prop
  | .starting => s.Reaches s.uid
  | .stopping _ => s.Reaches s.uid
  | .startChecks found => s.Finds found
  | .stopChecks _ found => s.Finds found
  | .terminating _ found => s.Finds found
  | .waiting _ found _ => s.Finds found
  | .sleeping _ found _ _ => s.Finds found
  | .killing _ found => s.Finds found
  | .killed _ found _ => s.Finds found
  | .launching => ∀ pid, ¬s.Daemon pid
  | .stopped _ true => ∀ pid, ¬s.Daemon pid
  | .resting _ => ∀ pid, ¬s.Daemon pid
  | _ => True

structure Single (s : Machine) : Prop where
  unique : ∀ pid other, s.Daemon pid → s.Daemon other → pid = other
  known : ∀ pid, s.Daemon pid → 0 < pid ∧ pid ≤ PID_MAX
  held : ∀ pid process inode, s.processes pid = some process → process.inode = some inode →
    ∃ file, s.file = some file ∧ file.inode = inode
  written : ∀ pid, s.Published pid → s.readPid = some pid
  phase : s.Phase s.cli

variable {d : Daemonize} {s t : Machine}

theorem Published.daemon {pid : Nat} (published : s.Published pid) : s.Daemon pid := by
  obtain ⟨uid, inode, found⟩ := published
  exact ⟨_, found, rfl⟩

theorem isWhitespace_of_isDigit (ch : Char) (digit : ch.isDigit = true) : Logger.isWhitespace ch = false := by
  have bounds : (decide (ch.val ≥ 48) && decide (ch.val ≤ 57)) = true := digit
  rw [Bool.and_eq_true, decide_eq_true_eq, decide_eq_true_eq] at bounds
  have low : 48 ≤ ch.toNat := UInt32.le_iff_toNat_le.mp bounds.1
  have high : ch.toNat ≤ 57 := UInt32.le_iff_toNat_le.mp bounds.2
  rw [Logger.isWhitespace]
  simp only [Bool.or_eq_false_iff, Bool.and_eq_false_iff, decide_eq_false_iff_not]
  omega

theorem trim_of_no_whitespace (text : List Char) (plain : ∀ ch ∈ text, Logger.isWhitespace ch = false) :
    Logger.trim text = text := by
  have kept (text : List Char) (plain : ∀ ch ∈ text, Logger.isWhitespace ch = false) :
      text.dropWhile Logger.isWhitespace = text := by
    cases text with
    | nil => rfl
    | cons ch text => rw [List.dropWhile_cons_of_neg (by simp [plain ch (List.mem_cons_self ..)])]
  rw [Logger.trim, kept text plain, kept text.reverse fun ch member => plain ch (List.mem_reverse.mp member),
    List.reverse_reverse]

theorem trim_toDigits (pid : Nat) : Logger.trim (Nat.toDigits 10 pid) = Nat.toDigits 10 pid :=
  trim_of_no_whitespace _ fun ch member =>
    isWhitespace_of_isDigit ch (Nat.isDigit_of_mem_toDigits (by decide) (by decide) member)

theorem parsePid_written (content : List Char) (pid : Nat) (positive : 0 < pid) (small : pid ≤ PID_MAX)
    (digits : Logger.trim content = Nat.toDigits 10 pid) : parsePid content = some pid := by
  have bound : PID_MAX < 10 ^ 7 := by decide
  rw [parsePid, digits,
    from_str_radix_to_digits (2 ^ 31) 10 7 pid (by decide) (by decide) (by decide) (by omega) (by decide)]
  simpa using positive

/-- No daemon of `t` is new. -/
def Fewer (s t : Machine) : Prop :=
  ∀ pid process, t.processes pid = some process → process.daemon = true → s.processes pid = some process

theorem Fewer.of_eq (processes : t.processes = s.processes) : Fewer s t := by
  intro pid process found _
  rw [← processes]
  exact found

theorem Fewer.daemon (fewer : Fewer s t) (pid : Nat) (daemon : t.Daemon pid) : s.Daemon pid := by
  obtain ⟨process, found, own⟩ := daemon
  exact ⟨process, fewer pid process found own, own⟩

theorem Fewer.reaches (fewer : Fewer s t) (uid : Nat) (reaches : s.Reaches uid) : t.Reaches uid := by
  intro pid daemon
  obtain ⟨process, found, own⟩ := daemon
  have same := fewer pid process found own
  obtain ⟨⟨user, inode, before⟩, allowed⟩ := reaches pid ⟨process, same, own⟩
  constructor
  · rw [same] at before
    exact ⟨user, inode, found.trans before⟩
  · rw [mayKill, same] at allowed
    rwa [mayKill, found]

theorem Fewer.phase (fewer : Fewer s t) (uid : t.uid = s.uid) (cli : Cli) (phase : s.Phase cli) : t.Phase cli := by
  have known (before : s.Reaches s.uid) : t.Reaches t.uid := uid ▸ fewer.reaches s.uid before
  have found (given : Nat) (before : s.Finds given) : t.Finds given :=
    ⟨known before.1, fun pid daemon => before.2 pid (fewer.daemon pid daemon)⟩
  have none (before : ∀ pid, ¬s.Daemon pid) (pid : Nat) (daemon : t.Daemon pid) : False :=
    before pid (fewer.daemon pid daemon)
  cases cli with
  | idle => trivial
  | starting => exact known phase
  | stopping restart => exact known phase
  | launching => exact none phase
  | resting wake => exact none phase
  | stopped restart result =>
      cases result with
      | true => exact none phase
      | false => trivial
  | _ => exact found _ phase

theorem Process.daemon_of_inode {process : Process} {inode : Nat} (held : process.inode = some inode) :
    process.daemon = true := by
  obtain ⟨uid, stage⟩ := process
  cases stage with
  | other => cases held
  | _ => rfl

theorem Single.fewer (single : Single s) (fewer : Fewer s t) (file : t.file = s.file) (phase : t.Phase t.cli) :
    Single t where
  unique pid other first second := single.unique pid other (fewer.daemon pid first) (fewer.daemon other second)
  known pid daemon := single.known pid (fewer.daemon pid daemon)
  held pid process inode found held := by
    rw [file]
    exact single.held pid process inode (fewer pid process found (Process.daemon_of_inode held)) held
  written pid published := by
    have before : s.Published pid := by
      obtain ⟨uid, inode, found⟩ := published
      exact ⟨uid, inode, fewer pid _ found rfl⟩
    rw [readPid, file]
    exact single.written pid before
  phase := phase

/-- A command moves on, and nothing else changes. -/
theorem Single.moves (single : Single s) (cli : Cli) (phase : s.Phase cli) : Single { s with cli := cli } :=
  single.fewer (.of_eq rfl) rfl (Fewer.phase (.of_eq rfl) rfl cli phase)

/-- Without a daemon nothing is to be kept of the pid file. -/
theorem Single.of_none (none : ∀ pid, ¬t.Daemon pid) (phase : t.Phase t.cli) : Single t where
  unique pid _ daemon := absurd daemon (none pid)
  known pid daemon := absurd daemon (none pid)
  held pid process _ found held :=
    absurd ⟨process, found, Process.daemon_of_inode held⟩ (none pid)
  written pid published := absurd published.daemon (none pid)
  phase := phase

theorem Single.removes (none : ∀ pid, ¬s.Daemon pid) (removed : Bool) (cli : Cli)
    (phase : (∀ pid, ¬s.Daemon pid) → s.Phase cli) : Single { s.removePidFile removed with cli := cli } :=
  .of_none none (Fewer.phase (s := s) (.of_eq rfl) rfl cli (phase none))

/-- The file names a process that does not run. -/
theorem none_of_not_running {found : Nat} (known : s.Finds found) (dead : ¬s.isProcessRunning found = true)
    (pid : Nat) : ¬s.Daemon pid := by
  intro daemon
  obtain ⟨_, allowed⟩ := known.1 pid daemon
  rw [known.2 pid daemon] at allowed
  exact dead allowed

/-- The pid file of a machine whose daemons have written their pid. -/
theorem Single.finds (single : Single s) (reaches : s.Reaches s.uid) {found : Nat}
    (read : s.readPid = some found) : s.Finds found := by
  refine ⟨reaches, ?_⟩
  intro pid daemon
  have written := single.written pid (reaches pid daemon).1
  rw [read] at written
  exact (Option.some.inj written).symm

theorem Single.none_of_unread (single : Single s) (reaches : s.Reaches s.uid) (read : s.readPid = none)
    (pid : Nat) : ¬s.Daemon pid := by
  intro daemon
  have written := single.written pid (reaches pid daemon).1
  rw [read] at written
  cases written

theorem Single.advance (single : Single s) (exec removed : Bool) (child : Nat) (proper : 0 < child ∧ child ≤ PID_MAX) :
    Single (s.advance exec removed child) := by
  have phase := single.phase
  rw [Machine.advance]
  cases at_ : s.cli with
  | idle => exact single
  | starting =>
      rw [at_] at phase
      cases read : s.readPid with
      | some found => exact single.moves _ (single.finds phase read)
      | none => exact single.moves _ (single.none_of_unread phase read)
  | startChecks found =>
      rw [at_] at phase
      simp only
      split
      · exact single.moves _ trivial
      · rename_i dead
        exact .removes (none_of_not_running phase dead) removed _ id
  | launching =>
      rw [at_] at phase
      simp only
      split
      · have own : ∀ pid process, Function.update s.processes child (some ⟨s.uid, .forked⟩) pid = some process →
            process.daemon = true → pid = child ∧ process = ⟨s.uid, .forked⟩ := by
          intro pid process found daemon
          by_cases here : pid = child
          · subst here
            rw [Function.update_self] at found
            exact ⟨rfl, (Option.some.inj found).symm⟩
          · rw [Function.update_of_ne here] at found
            exact absurd ⟨process, found, daemon⟩ (phase pid)
        constructor
        · rintro pid other ⟨process, found, daemon⟩ ⟨second, there, twin⟩
          exact (own pid process found daemon).1.trans (own other second there twin).1.symm
        · rintro pid ⟨process, found, daemon⟩
          rw [(own pid process found daemon).1]
          exact proper
        · intro pid process inode found held
          rw [(own pid process found (Process.daemon_of_inode held)).2] at held
          cases held
        · rintro pid ⟨_, _, found⟩
          cases (own pid _ found rfl).2
        · trivial
      · exact single
  | stopping restart =>
      rw [at_] at phase
      cases read : s.readPid with
      | some found => exact single.moves _ (single.finds phase read)
      | none => exact single.moves _ (single.none_of_unread phase read)
  | stopChecks restart found =>
      rw [at_] at phase
      simp only
      split
      · exact single.moves _ phase
      · rename_i dead
        exact .removes (none_of_not_running phase dead) removed _ id
  | terminating restart found =>
      rw [at_] at phase
      simp only
      split
      · exact single.moves _ phase
      · exact single.moves _ trivial
  | waiting restart found started =>
      rw [at_] at phase
      simp only
      split
      · split
        · exact single.moves _ phase
        · rename_i dead
          exact .removes (none_of_not_running phase dead) removed _ id
      · exact single.moves _ phase
  | sleeping restart found started wake =>
      rw [at_] at phase
      simp only
      split
      · exact single.moves _ phase
      · exact single
  | killing restart found =>
      rw [at_] at phase
      exact single.moves _ phase
  | killed restart found wake =>
      rw [at_] at phase
      simp only
      split
      · split
        · exact single.moves _ trivial
        · rename_i dead
          exact .removes (none_of_not_running phase dead) removed _ id
      · exact single
  | stopped restart result =>
      rw [at_] at phase
      simp only
      split
      · rename_i both
        rw [Bool.and_eq_true] at both
        rw [both.2] at phase
        exact single.moves _ phase
      · exact single.moves _ trivial
  | resting wake =>
      rw [at_] at phase
      simp only
      split
      · exact single.moves _ fun pid daemon => absurd daemon (phase pid)
      · exact single

/-- While a child is on its way, no command relies on anything. -/
theorem phase_of_pending {pid : Nat} (daemon : s.Daemon pid) (pending : ¬s.Published pid) (cli : Cli)
    (phase : s.Phase cli) : t.Phase cli := by
  have known (before : s.Reaches s.uid) : False := pending (before pid daemon).1
  have found (given : Nat) (before : s.Finds given) : False := known before.1
  cases cli with
  | idle => trivial
  | starting => exact (known phase).elim
  | stopping restart => exact (known phase).elim
  | launching => exact absurd daemon (phase pid)
  | resting wake => exact absurd daemon (phase pid)
  | stopped restart result =>
      cases result with
      | true => exact absurd daemon (phase pid)
      | false => trivial
  | _ => exact (found _ phase).elim

/-- The one daemon goes on as `process`, with its file. -/
theorem Single.becomes (single : Single s) {pid : Nat} (daemon : s.Daemon pid) (pending : ¬s.Published pid)
    (process : Process) (processes : t.processes = Function.update s.processes pid (some process))
    (file : ∀ inode, process.inode = some inode → ∃ file, t.file = some file ∧ file.inode = inode)
    (written : ∀ uid inode, process = ⟨uid, .published inode⟩ → t.readPid = some pid)
    (cli : t.cli = s.cli) : Single t := by
  have own : ∀ other found, t.processes other = some found → found.daemon = true →
      other = pid ∧ found = process := by
    intro other found there daemonic
    rw [processes] at there
    by_cases here : other = pid
    · subst here
      rw [Function.update_self] at there
      exact ⟨rfl, (Option.some.inj there).symm⟩
    · rw [Function.update_of_ne here] at there
      exact absurd (single.unique other pid ⟨found, there, daemonic⟩ daemon) here
  constructor
  · rintro first second ⟨_, there, daemonic⟩ ⟨_, too, twin⟩
    exact (own first _ there daemonic).1.trans (own second _ too twin).1.symm
  · rintro other ⟨_, there, daemonic⟩
    rw [(own other _ there daemonic).1]
    exact single.known pid daemon
  · intro other found inode there held
    rw [(own other found there (Process.daemon_of_inode held)).2] at held
    exact file inode held
  · rintro other ⟨uid, inode, there⟩
    obtain ⟨rfl, same⟩ := own other _ there rfl
    exact written uid inode same.symm
  · rw [cli]
    exact phase_of_pending daemon pending s.cli single.phase

/-- The pid file is the file that the child has locked. -/
theorem Single.lock (d : Daemonize) (single : Single s) (pid : Nat) : Single (s.lock d pid) := by
  rw [Machine.lock]
  split
  · rename_i uid forked
    have daemon : s.Daemon pid := ⟨_, forked, rfl⟩
    have pending : ¬s.Published pid := by
      rintro ⟨_, inode, found⟩
      rw [forked] at found
      cases found
    split
    · apply Single.of_none
      · rintro other ⟨process, found, daemonic⟩
        by_cases here : other = pid
        · subst here
          simp [setProcess] at found
        · simp only [setProcess, Function.update_of_ne here] at found
          exact here (single.unique other pid ⟨process, found, daemonic⟩ daemon)
      · exact phase_of_pending daemon pending s.cli single.phase
    · rename_i file _
      apply single.becomes daemon pending ⟨uid, .locked file.inode⟩ rfl
      · rintro inode held
        cases held
        exact ⟨file, rfl, rfl⟩
      · exact fun _ inode same => by cases same
      · rfl
  · exact single

/-- The pid goes into the file that has the lock, which is the pid file. -/
theorem Single.publish (writes : d.WritesPid) (single : Single s) (pid : Nat) :
    Single (s.publish d pid) := by
  rw [Machine.publish]
  split
  · rename_i uid inode locked
    have daemon : s.Daemon pid := ⟨_, locked, rfl⟩
    have pending : ¬s.Published pid := by
      rintro ⟨_, inode, found⟩
      rw [locked] at found
      cases found
    obtain ⟨file, there, same⟩ := single.held pid _ inode locked rfl
    obtain ⟨positive, small⟩ := single.known pid daemon
    obtain ⟨stays, digits⟩ := writes file pid
    apply single.becomes daemon pending ⟨uid, .published inode⟩ rfl
    · rintro other held
      cases held
      exact ⟨d.write file pid, by simp [there, same], stays.trans same⟩
    · intro _ _ _
      simp [readPid, there, same, parsePid_written _ pid positive small digits]
    · rfl
  · exact single

theorem fewer_setProcess (pid : Nat) (process : Option Process) (other : ∀ p, process = some p → p.daemon = false) :
    Fewer s (s.setProcess pid process) := by
  intro found current there daemon
  by_cases here : found = pid
  · subst here
    simp only [setProcess, Function.update_self] at there
    rw [other current there] at daemon
    cases daemon
  · simp only [setProcess, Function.update_of_ne here] at there
    exact there

theorem Single.step (writes : d.WritesPid) (single : Single s) (act : Act) (settled : s.Settled act) :
    Single (s.step d act) := by
  cases act with
  | start uid daemon =>
      simp only [Machine.step]
      split
      · have started : ({ s with metaDaemon := some daemon, uid := uid } : Machine).Phase
            (if daemon then .starting else .idle) := by
          cases daemon with
          | true => exact settled
          | false => trivial
        exact single.fewer (.of_eq rfl) rfl started
      · exact single
  | stop uid =>
      simp only [Machine.step, reach]
      split
      · exact single.fewer (.of_eq rfl) rfl settled
      · exact single
  | restart uid =>
      simp only [Machine.step, reach]
      split
      · exact single.fewer (.of_eq rfl) rfl settled
      · exact single
  | advance exec removed child => exact single.advance exec removed child settled
  | lock pid => exact single.lock d pid
  | publish pid => exact single.publish writes pid
  | exit pid =>
      have fewer := fewer_setProcess (s := s) pid none fun _ same => by cases same
      exact single.fewer fewer rfl (fewer.phase rfl s.cli single.phase)
  | appear pid uid =>
      simp only [Machine.step]
      split
      · have fewer := fewer_setProcess (s := s) pid (some ⟨uid, .other⟩) fun _ same => by
          cases same
          rfl
        exact single.fewer fewer rfl (fewer.phase rfl s.cli single.phase)
      · exact single
  | elapse millis => exact single.fewer (.of_eq rfl) rfl (Fewer.phase (.of_eq rfl) rfl s.cli single.phase)

/-- From any machine on which no daemon runs, whatever its pid file says and whatever other processes come,
go and reuse pids, with commands one after another: at most one daemon runs at a time, its pid is the one
that the pid file gives once it has been written, a new one is forked only where none runs, and so ends
every `stop` that reports success. -/
theorem one_daemon_at_a_time (d : Daemonize) (writes : d.WritesPid) (start : Machine)
    (none : ∀ pid, ¬start.Daemon pid) (idle : start.cli = .idle) (acts : List Act)
    (settled : Along (step d) Settled start acts) :
    let s := runFrom (step d) start acts
    (∀ pid other, s.Daemon pid → s.Daemon other → pid = other) ∧
    (∀ pid, s.Published pid → s.readPid = some pid) ∧
    (∀ pid process inode, s.processes pid = some process → process.inode = some inode →
      ∃ file, s.file = some file ∧ file.inode = inode) ∧
    (s.cli = .launching → ∀ pid, ¬s.Daemon pid) ∧
    ∀ restart, s.cli = .stopped restart true → ∀ pid, ¬s.Daemon pid := by
  intro s
  have single : Single s :=
    invariant_along (step d) Single (fun _ act allowed single => single.step writes act allowed) start acts
      settled (.of_none none (by rw [idle]; trivial))
  refine ⟨single.unique, single.written, single.held, ?_, ?_⟩
  · intro launching
    have phase := single.phase
    rwa [launching] at phase
  · intro restart stopped
    have phase := single.phase
    rwa [stopped] at phase

/-- `open` with `O_CREAT`, `flock` with `LOCK_EX | LOCK_NB`, and the decimal digits of the pid. -/
def flocked : Daemonize where
  create file locks fresh :=
    match file with
    | none => some ⟨fresh, []⟩
    | some file => if (locks file.inode).isSome then none else some file
  write file pid := { file with content := Nat.toDigits 10 pid }

/-- A stale pid file is cleaned up, and the new daemon's pid gets into the file. -/
theorem one_daemon_at_a_time_stale :
    let start : Machine :=
      ⟨fun _ => none, fun _ => none, some ⟨0, Nat.toDigits 10 17⟩, 1, none, .idle, 0, 0⟩
    let acts : List Act := [.start 1000 true, .advance true true 40, .advance true true 40,
      .advance true true 40, .lock 40, .publish 40]
    (runFrom (step flocked) start acts).Published 40 ∧
      (runFrom (step flocked) start acts).file = some ⟨1, Nat.toDigits 10 40⟩ ∧
      ∀ pid, (runFrom (step flocked) start acts).Published pid →
        (runFrom (step flocked) start acts).readPid = some pid := by
  intro start acts
  have none : ∀ pid, ¬start.Daemon pid := by
    rintro pid ⟨process, found, _⟩
    cases found
  have settled : Along (step flocked) Settled start acts := by
    refine ⟨fun pid daemon => absurd daemon (none pid), ?_⟩
    simp [Along, Settled, PID_MAX]
  have single := one_daemon_at_a_time flocked (fun _ pid => ⟨rfl, trim_toDigits pid⟩) start none rfl acts settled
  exact ⟨⟨1000, 1, by decide⟩, by decide, single.2.1⟩

end Machine

end Pigs.Daemon
