import AccountWatch.Publisher.Basic
import AccountWatch.Service.Report
import AccountWatch.Service.Transport
import AccountWatch.Session

/-! The service for one account. It owns the connection's phase, the session and the publisher; each stream
that the transport opens is read by a listener, which takes one signal at a turn. A burst is a list of
requests that are handed to the transport one by one; it belongs to the listener whose connection came
up or to a call, and is kept while its current payload waits. The last six fields are the history of a
run: nothing is taken out of them and nothing else depends on them. -/
namespace AccountWatch

inductive Caller where
  | listener (stream : Nat)
  | call (number : Nat)
  deriving DecidableEq, Repr

structure Burst where
  caller : Caller
  current : Request
  rest : List Request
  accepted : Nat
  deriving DecidableEq, Repr

structure Listener where
  stream : Nat
  queue : List Signal
  ended : Bool
  deriving DecidableEq, Repr

inductive Entrant where
  | opening (number : Nat)
  | closing (number : Nat)
  deriving DecidableEq, Repr

structure Handed where
  caller : Caller
  request : Request
  deriving DecidableEq, Repr

structure Settlement where
  handed : Handed
  refusal : Option TransportError
  deriving DecidableEq, Repr

structure Asked where
  caller : Caller
  session : Session
  currency : String
  deriving DecidableEq, Repr

inductive Outcome where
  | done
  | accepted (count : Nat)
  | failed (error : WatchError)
  deriving DecidableEq, Repr

/-- `connecting` is the call that waits inside the transport's opening, `closings` are those inside its
closing, and `entrants` wait until `connecting` has gone on. -/
structure Service where
  account : Option Address
  currency : String
  session : Session
  publisher : Publisher
  transport : Transport
  phase : Phase
  handle : Option Nat
  connecting : Option Nat
  entrants : List Entrant
  listeners : List Listener
  bursts : List Burst
  closings : List Nat
  calls : Nat
  reports : List Report
  sent : List Handed
  settled : List Settlement
  asked : List Asked
  finished : List (Nat × Outcome)
  crashes : List Nat

inductive Progress where
  | ready
  | waiting
  | over
  deriving DecidableEq, Repr

namespace Service

def defaultCurrency : String := "USD"

def start (account : Option Address) (currency : String) (fallback : UInt64) : Service where
  account
  currency
  session := .start fallback
  publisher := .empty
  transport := .start
  phase := .closed
  handle := none
  connecting := none
  entrants := []
  listeners := []
  bursts := []
  closings := []
  calls := 0
  reports := []
  sent := []
  settled := []
  asked := []
  finished := []
  crashes := []

def report (s : Service) (r : Report) : Service := { s with reports := s.reports ++ [r] }

def enter (s : Service) (next : Phase) : Service :=
  if s.phase = next then s else { s with phase := next }.report (.phase next)

def finish (s : Service) (number : Nat) (outcome : Outcome) : Service :=
  { s with finished := s.finished ++ [(number, outcome)] }

def listener? (s : Service) (stream : Nat) : Option Listener := s.listeners.find? fun t => t.stream = stream

def endListener (s : Service) (stream : Nat) : Service :=
  { s with listeners := s.listeners.filter fun t => t.stream ≠ stream }

def setQueue (s : Service) (stream : Nat) (queue : List Signal) : Service :=
  { s with listeners := s.listeners.map fun t => if t.stream = stream then { t with queue } else t }

def cut (s : Service) (stream : Nat) : Service :=
  { s with listeners := s.listeners.map fun t => if t.stream = stream then { t with ended := true } else t }

def arrive (s : Service) (stream : Nat) (signals : List Signal) : Service × Nat :=
  match s.listener? stream with
  | none => (s, 0)
  | some t => if t.ended then (s, 0) else (s.setQueue stream (t.queue ++ signals), signals.length)

def abort (s : Service) (stream : Nat) : Service :=
  let s := s.endListener stream
  { s with bursts := s.bursts.filter fun b => b.caller ≠ .listener stream }

def abortHandle (s : Service) : Service :=
  match s.handle with
  | none => s
  | some stream => { s.abort stream with handle := none }

def suspended (s : Service) (stream : Nat) : Bool :=
  s.bursts.any fun b => b.caller = .listener stream

def payloads (s : Service) : List String := s.sent.map fun h => h.request.text

def settle (s : Service) (h : Handed) : Service × Nat :=
  let refusal := s.transport.refusal? h.request.text
  let s := { s with settled := s.settled ++ [⟨h, refusal⟩] }
  match refusal with
  | none => (s, 1)
  | some source =>
      let action := h.request.action
      (s.report (.sendFailure action (WatchError.sendFailure action source).message), 0)

def handOver (s : Service) (h : Handed) : Service × Bool :=
  let (transport, free) := s.transport.proceed
  ({ s with transport, sent := s.sent ++ [h] }, free)

def send (caller : Caller) (accepted : Nat) : List Request → Service → Service × Option Nat
  | [], s => (s, some accepted)
  | request :: rest, s =>
      match s.handOver ⟨caller, request⟩ with
      | (s, true) =>
          let (s, n) := s.settle ⟨caller, request⟩
          send caller (accepted + n) rest s
      | (s, false) => ({ s with bursts := s.bursts ++ [⟨caller, request, rest, accepted⟩] }, none)

def update (s : Service) (caller : Caller) : Service × Option Outcome :=
  let s := { s with asked := s.asked ++ [⟨caller, s.session, s.currency⟩] }
  match s.session.requests? s.currency with
  | none => (s, some (.failed .addressUnset))
  | some requests =>
      let (s, accepted) := s.send caller 0 requests
      (s, accepted.map .accepted)

def resume (s : Service) (b : Burst) : Service :=
  let (s, n) := s.settle ⟨b.caller, b.current⟩
  match s.send b.caller (b.accepted + n) b.rest, b.caller with
  | (s, some accepted), .call number => s.finish number (.accepted accepted)
  | (s, _), _ => s

def answerSend (s : Service) (caller : Caller) : Service :=
  match s.bursts.find? fun b => b.caller = caller with
  | none => s
  | some b => { s with bursts := s.bursts.eraseP fun b => b.caller = caller }.resume b

def receive (s : Service) (text : String) : Service × Bool :=
  match Message.decode text with
  | .error cause => (s.report (.malformed (WatchError.malformed cause).message), true)
  | .ok m =>
      let (publisher, delivery) := s.publisher.publish m
      -- a filter that crashes has seen a message that the session has
      ({ s with session := s.session.observe m, publisher }, delivery ≠ .crashed)

/-- Handles a signal of a stream. A connection comes up once; only the listener of a connection that comes
up asks for an update, and it takes no further signal while a payload of it waits. -/
def take (s : Service) (stream : Nat) : Signal → Service × Progress
  | .opened =>
      if s.phase ≠ .opening then (s, .ready)
      else match (s.enter .connected).update (.listener stream) with
        | (s, some _) => (s, .ready)
        | (s, none) => (s, .waiting)
  | .frame text =>
      if s.phase.active then
        match s.receive text with
        | (s, true) => (s, .ready)
        | (s, false) => ({ s with crashes := s.crashes ++ [stream] }, .over)
      else (s, .ready)
  | .closed _ => (s.enter .closed, .over)
  | .failure text => (s.report (.transportFailure text), .ready)

def turn (s : Service) (stream : Nat) : Service :=
  match s.listener? stream with
  | none => s
  | some t =>
      if s.suspended stream then s
      else match t.queue with
        | [] =>
            if t.ended then (if s.phase.active then s.enter .closed else s).endListener stream else s
        | signal :: rest =>
            match (s.setQueue stream rest).take stream signal with
            | (s, .over) => s.endListener stream
            | (s, _) => s

def turns (stream : Nat) : Nat → Service → Service
  | 0, s => s
  | n + 1, s => turns stream n (s.turn stream)

def wake (s : Service) (stream : Nat) : Service :=
  match s.listener? stream with
  | none => s
  | some t => turns stream (t.queue.length + 1) s

end Service
end AccountWatch
