import AccountWatch.Proofs.Service.Moves
import Mathlib.Logic.Relation

/-! The part of a service that its connection is about, as a machine of its own. What a service does to its
session, its subscribers, its payloads and its other reports leaves this part alone; what it does
to the part is one of nine moves. Nothing is said here about which moves can follow each other. -/
namespace AccountWatch

def Report.entered? : Report → Option Phase
  | .phase next => some next
  | _ => none

structure Connection where
  phase : Phase
  handle : Option Nat
  connecting : Option Nat
  readers : List Nat
  closings : List Nat
  streams : Nat
  opens : Nat
  closes : Nat
  crashes : List Nat
  course : List Phase

namespace Connection

def enter (c : Connection) (next : Phase) : Connection :=
  if c.phase = next then c else { c with phase := next, course := c.course ++ [next] }

def release (c : Connection) (stream : Nat) : Connection :=
  { c with readers := c.readers.filter fun n => n ≠ stream }

def releaseHandle (c : Connection) : Connection :=
  match c.handle with
  | none => c
  | some stream => { c.release stream with handle := none }

def dial (c : Connection) (number : Nat) : Connection :=
  let c := c.enter .opening
  { c with connecting := some number, opens := c.opens + 1 }

def refuse (c : Connection) : Connection := { c with connecting := none }.enter .closed

def accept (c : Connection) : Connection :=
  let stream := c.streams + 1
  let c := { c with connecting := none, streams := stream }.releaseHandle
  { c with handle := some stream, readers := c.readers ++ [stream] }

def leave (c : Connection) (number : Nat) : Connection :=
  let c := (c.enter .closing).releaseHandle
  { c with closings := c.closings ++ [number], closes := c.closes + 1 }

def left (c : Connection) (number : Nat) : Connection :=
  { c with closings := c.closings.erase number }.enter .closed

/-- A listener's connection comes up, loses its listener to a crash, is lost, or loses its listener while it
is not active; a call dials, is refused or accepted, and leaves. -/
inductive Moves (c : Connection) : Connection → Prop where
  | establish {stream} (reader : stream ∈ c.readers) (opening : c.phase = .opening) :
      Moves c (c.enter .connected)
  | crash {stream} (reader : stream ∈ c.readers) (active : c.phase.active) :
      Moves c ({ c with crashes := c.crashes ++ [stream] }.release stream)
  | lose {stream} (reader : stream ∈ c.readers) : Moves c ((c.enter .closed).release stream)
  | fade {stream} (reader : stream ∈ c.readers) (passive : c.phase.active = false) :
      Moves c (c.release stream)
  | dial (number : Nat) (free : c.connecting = none) (down : c.phase = .closed) :
      Moves c (c.dial number)
  | refuse (connecting : c.connecting.isSome) : Moves c c.refuse
  | accept (connecting : c.connecting.isSome) : Moves c c.accept
  | leave (number : Nat) (free : c.connecting = none) (active : c.phase.active) :
      Moves c (c.leave number)
  | left {number} (inside : number ∈ c.closings) : Moves c (c.left number)

abbrev Path : Connection → Connection → Prop := Relation.ReflTransGen Moves

end Connection

namespace Service

def connection (s : Service) : Connection where
  phase := s.phase
  handle := s.handle
  connecting := s.connecting
  readers := s.listeners.map Listener.stream
  closings := s.closings
  streams := s.transport.streams
  opens := s.transport.opens
  closes := s.transport.closes
  crashes := s.crashes
  course := s.reports.filterMap Report.entered?

theorem connectionReport (s : Service) (r : Report) (silent : r.entered? = none) :
    (s.report r).connection = s.connection := by
  simp [connection, report, silent]

@[simp] theorem connectionFinish (s : Service) (number : Nat) (outcome : Outcome) :
    (s.finish number outcome).connection = s.connection := rfl

@[simp] theorem connectionSettle (s : Service) (h : Handed) :
    (s.settle h).1.connection = s.connection := by
  unfold settle
  dsimp only
  split
  · rfl
  · exact connectionReport _ _ rfl

@[simp] theorem connectionHandOver (s : Service) (h : Handed) :
    (s.handOver h).1.connection = s.connection := by
  unfold handOver Transport.proceed
  cases s.transport.permits with
  | none => rfl
  | some permits => cases permits <;> rfl

@[simp] theorem connectionSend (caller : Caller) (accepted : Nat) (requests : List Request) (s : Service) :
    (s.send caller accepted requests).1.connection = s.connection := by
  induction requests generalizing accepted s with
  | nil => rfl
  | cons request rest ih =>
    have handed := connectionHandOver s ⟨caller, request⟩
    unfold send
    split <;> rename_i t same <;> rw [same] at handed
    · exact (ih _ _).trans ((connectionSettle t _).trans handed)
    · exact handed

@[simp] theorem connectionUpdate (s : Service) (caller : Caller) :
    (s.update caller).1.connection = s.connection := by
  unfold update
  dsimp only
  split
  · rfl
  · rw [connectionSend]; rfl

@[simp] theorem connectionResume (s : Service) (b : Burst) : (s.resume b).connection = s.connection := by
  have sent : ((s.settle ⟨b.caller, b.current⟩).1.send b.caller
      (b.accepted + (s.settle ⟨b.caller, b.current⟩).2) b.rest).1.connection = s.connection := by
    rw [connectionSend, connectionSettle]
  unfold resume
  dsimp only
  split
  · rename_i same _
    rw [connectionFinish, ← sent, same]
  · rename_i same _
    rw [← sent, same]

@[simp] theorem connectionAnswer (s : Service) (caller : Caller) :
    (s.answerSend caller).connection = s.connection := by
  unfold answerSend
  split
  · rfl
  · rw [connectionResume]; rfl

@[simp] theorem connectionReceive (s : Service) (text : String) :
    (s.receive text).1.connection = s.connection := by
  unfold receive
  split
  · exact connectionReport _ _ rfl
  · rfl

@[simp] theorem connectionSetQueue (s : Service) (stream : Nat) (queue : List Signal) :
    (s.setQueue stream queue).connection = s.connection := by
  simp only [connection, setQueue, List.map_map, Connection.mk.injEq, and_true, true_and]
  apply List.map_congr_left
  intro t _
  simp only [Function.comp]
  split <;> rfl

@[simp] theorem connectionCut (s : Service) (stream : Nat) : (s.cut stream).connection = s.connection := by
  simp only [connection, cut, List.map_map, Connection.mk.injEq, and_true, true_and]
  apply List.map_congr_left
  intro t _
  simp only [Function.comp]
  split <;> rfl

@[simp] theorem connectionArrive (s : Service) (stream : Nat) (signals : List Signal) :
    (s.arrive stream signals).1.connection = s.connection := by
  unfold arrive
  split
  · rfl
  · split
    · rfl
    · exact connectionSetQueue _ _ _

@[simp] theorem connectionEnter (s : Service) (next : Phase) :
    (s.enter next).connection = s.connection.enter next := by
  unfold enter Connection.enter
  by_cases same : s.phase = next
  · simp only [same, if_true]
    rw [if_pos (show s.connection.phase = next from same)]
  · rw [if_neg same, if_neg (show s.connection.phase ≠ next from same)]
    simp [connection, report, Report.entered?]

@[simp] theorem connectionEnd (s : Service) (stream : Nat) :
    (s.endListener stream).connection = s.connection.release stream := by
  simp only [connection, endListener, Connection.release, Connection.mk.injEq, and_true, true_and]
  rw [List.filter_map]
  rfl

theorem connectionAbort (s : Service) (stream : Nat) :
    (s.abort stream).connection = s.connection.release stream := connectionEnd s stream

@[simp] theorem connectionAbortHandle (s : Service) :
    s.abortHandle.connection = s.connection.releaseHandle := by
  unfold abortHandle Connection.releaseHandle
  change _ = match s.handle with | none => _ | some stream => _
  cases s.handle with
  | none => rfl
  | some stream =>
    change { (s.abort stream).connection with handle := none } = _
    rw [connectionAbort]

theorem connectionListen (s : Service) (stream : Nat) :
    { s with handle := some stream, listeners := s.listeners ++ [Listener.mk stream [] false] }.connection =
      { s.connection with handle := some stream, readers := s.connection.readers ++ [stream] } := by
  simp [connection]

theorem readerOfListener {s : Service} {stream : Nat} {t : Listener} (found : s.listener? stream = some t) :
    t.stream = stream ∧ stream ∈ s.connection.readers := by
  have same : t.stream = stream := by simpa using List.find?_some found
  exact ⟨same, List.mem_map.mpr ⟨t, List.mem_of_find?_eq_some found, same⟩⟩

end Service
end AccountWatch
