import Mathlib.Data.List.AList
import Pigs.Lib.Recency

/-! The TCP writer registry of `PacketWriter`: a map from peer addresses to registered sinks and,
for every IP, the registrations in order of insertion. The functions here are the bodies of the
critical sections under `tcp_writer_registry_lock`.

A sink is its kind and its cancellation token; its socket half belongs to the sink modules.
`tcp_writers` is iterated by `close`, so it is a list of entries with distinct addresses. -/

namespace Pigs.Net.Rw

structure TcpWriterRegistration (Addr : Type) where
  remoteAddr : Addr
  writerId : Nat
  deriving DecidableEq, Repr

inductive TcpPacketSink (Token : Type) where
  | queued (cancel : Token)
  | direct (cancel : Token)
  deriving DecidableEq, Repr

def TcpPacketSink.token {Token : Type} : TcpPacketSink Token → Token
  | .queued cancel => cancel
  | .direct cancel => cancel

structure RegisteredTcpSink (Addr Token : Type) where
  registration : TcpWriterRegistration Addr
  sink : TcpPacketSink Token
  deriving DecidableEq, Repr

namespace RegisteredTcpSink

variable {Addr Token : Type}

abbrev remoteAddr (entry : RegisteredTcpSink Addr Token) : Addr := entry.registration.remoteAddr

end RegisteredTcpSink

structure Registry (Addr Ip Token : Type) where
  tcpWriters : AList fun _ : Addr => RegisteredTcpSink Addr Token
  tcpWriterAddrsByIp : Ip → Option (List (TcpWriterRegistration Addr))

namespace Registry

variable {Addr Ip Token : Type} [DecidableEq Addr] [DecidableEq Ip] (ip : Addr → Ip)

def empty : Registry Addr Ip Token where
  tcpWriters := ∅
  tcpWriterAddrsByIp _ := none

/-- The critical section of `insert_tcp_sink` after its check of the closed flag; it answers the
displaced entry. -/
def insertTcpSink (r : Registry Addr Ip Token) (registration : TcpWriterRegistration Addr)
    (sink : TcpPacketSink Token) :
    Registry Addr Ip Token × Option (RegisteredTcpSink Addr Token) :=
  let remoteAddr := registration.remoteAddr
  let previous := r.tcpWriters.lookup remoteAddr
  let registrations := (r.tcpWriterAddrsByIp (ip remoteAddr)).getD []
  let registrations := registrations.filter fun item => item.remoteAddr ≠ remoteAddr
  let registrations := registrations ++ [registration]
  ({ tcpWriters := r.tcpWriters.insert remoteAddr ⟨registration, sink⟩
     tcpWriterAddrsByIp :=
       Function.update r.tcpWriterAddrsByIp (ip remoteAddr) (some registrations) }, previous)

def removeTcpWriterInner (r : Registry Addr Ip Token) (remoteAddr : Addr)
    (expectedWriterId : Option Nat) : Registry Addr Ip Token × Option (TcpPacketSink Token) :=
  match r.tcpWriters.lookup remoteAddr with
  | none => (r, none)
  | some registered =>
      if expectedWriterId.any fun expected => expected ≠ registered.registration.writerId then
        (r, none)
      else
        let remoteIp := ip remoteAddr
        let byIp :=
          match r.tcpWriterAddrsByIp remoteIp with
          | some registrations =>
              let registrations := registrations.filter fun item => item ≠ registered.registration
              Function.update r.tcpWriterAddrsByIp remoteIp
                (if registrations.isEmpty then none else some registrations)
          | none => r.tcpWriterAddrsByIp
        ({ tcpWriters := r.tcpWriters.erase remoteAddr, tcpWriterAddrsByIp := byIp },
          some registered.sink)

/-- The critical section of `close`. The map is iterated in no particular order. -/
def close (r : Registry Addr Ip Token) : Registry Addr Ip Token × List (TcpPacketSink Token) :=
  (empty, r.tcpWriters.entries.map fun entry => entry.2.sink)

def tcpSink (r : Registry Addr Ip Token) (remoteAddr : Addr) : Option (TcpPacketSink Token) :=
  (r.tcpWriters.lookup remoteAddr).map (·.sink)

def tcpSinkByIp (r : Registry Addr Ip Token) (remoteIp : Ip) : Option (TcpPacketSink Token) :=
  (r.tcpWriterAddrsByIp remoteIp).bind fun registrations =>
    registrations.reverse.findSome? fun registration =>
      ((r.tcpWriters.lookup registration.remoteAddr).filter fun registered =>
        registered.registration = registration).map (·.sink)

end Registry

/-! What the registry is for: the registered sinks in order of their last insertion. -/

/-- A list as a map entry that is absent rather than empty. -/
def listed {α : Type} (l : List α) : Option (List α) := if l.isEmpty then none else some l

@[simp] theorem listed_getD {α : Type} (l : List α) : (listed l).getD [] = l := by
  cases l with
  | nil => rfl
  | cons head tail => rfl

theorem listed_eq_some {α : Type} (l : List α) (nonempty : l ≠ []) : listed l = some l := by
  simp [listed, nonempty]

section Represents

variable {Addr Ip Token : Type} [DecidableEq Addr] [DecidableEq Ip] (ip : Addr → Ip)

/-- The registrations of one IP, oldest first. -/
def ofIp (live : List (RegisteredTcpSink Addr Token)) (remoteIp : Ip) :
    List (TcpWriterRegistration Addr) :=
  (live.filter fun entry => ip entry.remoteAddr = remoteIp).map (·.registration)

/-- The two maps of the registry are views of one list. -/
structure Represents (live : List (RegisteredTcpSink Addr Token)) (r : Registry Addr Ip Token) :
    Prop where
  distinct : (live.map (·.remoteAddr)).Nodup
  stored : ∀ a, r.tcpWriters.lookup a = Lib.findKeyed (·.remoteAddr) a live
  grouped : ∀ p, r.tcpWriterAddrsByIp p = listed (ofIp ip live p)

variable {ip} {live : List (RegisteredTcpSink Addr Token)} {r : Registry Addr Ip Token}

theorem Represents.empty : Represents ip [] (Registry.empty : Registry Addr Ip Token) where
  distinct := List.nodup_nil
  stored _ := rfl
  grouped _ := rfl

theorem ofIp_dropKeyed (live : List (RegisteredTcpSink Addr Token)) (a : Addr) (p : Ip) :
    ofIp ip (Lib.dropKeyed (·.remoteAddr) a live) p =
      (ofIp ip live p).filter fun item => item.remoteAddr ≠ a := by
  rw [ofIp, Lib.filter_dropKeyed (fun b => ip b = p), ofIp, List.filter_map]
  rfl

theorem ofIp_dropKeyed_of_ne (live : List (RegisteredTcpSink Addr Token)) (a : Addr) (p : Ip)
    (ne : p ≠ ip a) : ofIp ip (Lib.dropKeyed (·.remoteAddr) a live) p = ofIp ip live p := by
  rw [ofIp_dropKeyed, List.filter_eq_self]
  intro item member
  rcases List.mem_map.mp member with ⟨entry, inside, rfl⟩
  have group : ip entry.remoteAddr = p := by simpa using (List.mem_filter.mp inside).2
  have apart : entry.remoteAddr ≠ a := by
    intro equal
    subst equal
    exact ne group.symm
  simpa using apart

theorem ofIp_putLast (live : List (RegisteredTcpSink Addr Token))
    (entry : RegisteredTcpSink Addr Token) :
    ofIp ip (Lib.putLast (·.remoteAddr) entry live) (ip entry.remoteAddr) =
      (ofIp ip live (ip entry.remoteAddr)).filter (fun item => item.remoteAddr ≠ entry.remoteAddr) ++
        [entry.registration] := by
  rw [← ofIp_dropKeyed]
  simp [ofIp, Lib.putLast, List.filter_append]

theorem ofIp_putLast_of_ne (live : List (RegisteredTcpSink Addr Token))
    (entry : RegisteredTcpSink Addr Token) (p : Ip) (ne : p ≠ ip entry.remoteAddr) :
    ofIp ip (Lib.putLast (·.remoteAddr) entry live) p = ofIp ip live p := by
  rw [← ofIp_dropKeyed_of_ne live entry.remoteAddr p ne]
  simp [ofIp, Lib.putLast, List.filter_append, ne.symm]

theorem Represents.insertTcpSink (rep : Represents ip live r)
    (registration : TcpWriterRegistration Addr) (sink : TcpPacketSink Token) :
    Represents ip (Lib.putLast (·.remoteAddr) ⟨registration, sink⟩ live)
      (r.insertTcpSink ip registration sink).1 where
  distinct := Lib.nodup_putLast _ live rep.distinct
  stored a := by
    by_cases same : a = registration.remoteAddr
    · subst same
      exact (AList.lookup_insert _).trans (Lib.findKeyed_putLast_self _ live).symm
    · calc (r.insertTcpSink ip registration sink).1.tcpWriters.lookup a
          = r.tcpWriters.lookup a := AList.lookup_insert_ne same
        _ = Lib.findKeyed (·.remoteAddr) a live := rep.stored a
        _ = _ := (Lib.findKeyed_putLast_of_ne _ live a same).symm
  grouped p := by
    by_cases same : p = ip registration.remoteAddr
    · subst same
      rw [ofIp_putLast live ⟨registration, sink⟩, listed_eq_some _ (by simp)]
      simp only [Registry.insertTcpSink, Function.update_self, rep.grouped, listed_getD]
    · rw [ofIp_putLast_of_ne live ⟨registration, sink⟩ p same]
      simp only [Registry.insertTcpSink, Function.update_of_ne same, rep.grouped]

theorem Represents.lookup_eq_some_iff (rep : Represents ip live r) (a : Addr)
    (entry : RegisteredTcpSink Addr Token) :
    r.tcpWriters.lookup a = some entry ↔ entry ∈ live ∧ entry.remoteAddr = a := by
  rw [rep.stored]
  exact Lib.findKeyed_eq_some_iff a live rep.distinct entry

/-- Addresses are distinct, so the registration of an address is removed with it. -/
theorem Represents.filter_registration (rep : Represents ip live r)
    (entry : RegisteredTcpSink Addr Token) (member : entry ∈ live) (p : Ip) :
    ((ofIp ip live p).filter fun item => item ≠ entry.registration) =
      ofIp ip (Lib.dropKeyed (·.remoteAddr) entry.remoteAddr live) p := by
  rw [ofIp_dropKeyed]
  apply List.filter_congr
  intro item inside
  rcases List.mem_map.mp inside with ⟨other, otherInside, rfl⟩
  have otherMember := (List.mem_filter.mp otherInside).1
  have same : other.registration = entry.registration ↔ other.remoteAddr = entry.remoteAddr := by
    constructor
    · intro eq
      exact congrArg TcpWriterRegistration.remoteAddr eq
    · intro eq
      rw [List.inj_on_of_nodup_map rep.distinct otherMember member eq]
  simp only [ne_eq, same]

/-- A removal either finds nothing it may take and changes nothing, or takes out the entry of
the address. -/
theorem Represents.removeTcpWriterInner (rep : Represents ip live r) (a : Addr)
    (expected : Option Nat) :
    (r.removeTcpWriterInner ip a expected = (r, none) ∧
        ∀ entry, r.tcpWriters.lookup a = some entry →
          ∃ id, expected = some id ∧ id ≠ entry.registration.writerId) ∨
      ∃ entry, r.tcpWriters.lookup a = some entry ∧
        (∀ id, expected = some id → id = entry.registration.writerId) ∧
        (r.removeTcpWriterInner ip a expected).2 = some entry.sink ∧
        Represents ip (Lib.dropKeyed (·.remoteAddr) a live)
          (r.removeTcpWriterInner ip a expected).1 := by
  cases found : r.tcpWriters.lookup a with
  | none =>
      left
      refine ⟨by simp [Registry.removeTcpWriterInner, found], ?_⟩
      intro entry absent
      cases absent
  | some entry =>
      by_cases other : expected.any fun id => id ≠ entry.registration.writerId
      · left
        refine ⟨by simp only [Registry.removeTcpWriterInner, found, other, if_true], ?_⟩
        intro same eq
        obtain rfl := Option.some.inj eq
        rcases (Option.any_eq_true _ _).mp other with ⟨id, rfl, differs⟩
        exact ⟨id, rfl, by simpa using differs⟩
      · right
        rcases (rep.lookup_eq_some_iff a entry).mp found with ⟨member, rfl⟩
        have present : entry.registration ∈ ofIp ip live (ip entry.remoteAddr) :=
          List.mem_map.mpr ⟨entry, List.mem_filter.mpr ⟨member, by simp⟩, rfl⟩
        have group : r.tcpWriterAddrsByIp (ip entry.remoteAddr) =
            some (ofIp ip live (ip entry.remoteAddr)) := by
          rw [rep.grouped, listed_eq_some _ (List.ne_nil_of_mem present)]
        refine ⟨entry, rfl, ?_, by simp only [Registry.removeTcpWriterInner, found, if_neg other], ?_⟩
        · intro id equal
          subst equal
          simpa using other
        · simp only [Registry.removeTcpWriterInner, found, other, group]
          refine ⟨Lib.nodup_dropKeyed _ live rep.distinct, ?_, ?_⟩
          · intro a
            by_cases same : a = entry.remoteAddr
            · subst same
              exact (AList.lookup_erase _ _).trans (Lib.findKeyed_dropKeyed_self _ live).symm
            · calc (r.tcpWriters.erase entry.remoteAddr).lookup a
                  = r.tcpWriters.lookup a := AList.lookup_erase_ne same
                _ = Lib.findKeyed (·.remoteAddr) a live := rep.stored a
                _ = _ := (Lib.findKeyed_dropKeyed_of_ne _ a live same).symm
          · intro p
            by_cases same : p = ip entry.remoteAddr
            · subst same
              simp only [Bool.false_eq_true, if_false, Function.update_self,
                rep.filter_registration entry member]
              rfl
            · simp only [Bool.false_eq_true, if_false, Function.update_of_ne same, rep.grouped,
                ofIp_dropKeyed_of_ne live _ p same]

theorem Represents.mem_close (rep : Represents ip live r) (entry : RegisteredTcpSink Addr Token)
    (member : entry ∈ live) : entry.sink ∈ r.close.2 := by
  have found := (rep.lookup_eq_some_iff entry.remoteAddr entry).mpr ⟨member, rfl⟩
  exact List.mem_map.mpr ⟨⟨entry.remoteAddr, entry⟩, AList.mem_lookup_iff.mp found, rfl⟩

/-- `tcp_sink_by_ip` answers the most recently inserted sink of the IP. -/
theorem Represents.tcpSinkByIp (rep : Represents ip live r) (p : Ip) :
    r.tcpSinkByIp p =
      ((live.filter fun entry => ip entry.remoteAddr = p).getLast?).map (·.sink) := by
  rw [Registry.tcpSinkByIp, rep.grouped, ofIp]
  cases last : (live.filter fun entry => ip entry.remoteAddr = p).getLast? with
  | none =>
      rw [List.getLast?_eq_none_iff.mp last]
      rfl
  | some entry =>
      rcases List.getLast?_eq_some_iff.mp last with ⟨front, split⟩
      have member : entry ∈ live := by
        have inside : entry ∈ live.filter fun entry => ip entry.remoteAddr = p := by
          rw [split]
          simp
        exact (List.mem_filter.mp inside).1
      have found := (rep.lookup_eq_some_iff entry.remoteAddr entry).mpr ⟨member, rfl⟩
      rw [split, listed_eq_some _ (by simp)]
      simp [found]

end Represents

end Pigs.Net.Rw
