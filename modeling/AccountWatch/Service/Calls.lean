import AccountWatch.Service.Basic

/-! Calls of the service. One that opens or closes needs the connection to itself; a call that waits inside
the transport's opening keeps it, so that later ones line up behind it, while a call that waits
inside the transport's closing lets others in. A call that cannot end at once is pending under its
number, which counts the calls that close, those that ask for an update and those openings that have
to wait, and its outcome joins `finished` when it ends. -/
namespace AccountWatch.Service

inductive Reply where
  | ended (outcome : Outcome)
  | pending (number : Nat)
  | count (n : Nat)
  | poll (p : Poll)
  | messages (ms : List Message)
  | delivery (d : Delivery)
  deriving DecidableEq, Repr

def ok : Reply := .ended .done

def beginOpen (s : Service) (number : Nat) : Service × Option Outcome :=
  match s.phase with
  | .opening | .connected => (s, some .done)
  | .closing => (s, some (.failed .closing))
  | .closed =>
      let s := s.enter .opening
      ({ s with
        connecting := some number
        transport := { s.transport with opens := s.transport.opens + 1 } }, none)

def endOpen (s : Service) : Service × Outcome :=
  let s := { s with connecting := none }
  match s.transport.connect with
  | (transport, some error) =>
      let s := { s with transport }.report (.transportFailure error.message)
      (s.enter .closed, .failed (.transportFailure error))
  | (transport, none) =>
      let s := { s with transport }.abortHandle
      let stream := transport.streams
      ({ s with handle := some stream, listeners := s.listeners ++ [⟨stream, [], false⟩] }, .done)

def openUp (s : Service) : Service × Reply :=
  let s := { s with session := s.session.setAddress s.account }
  let number := s.calls + 1
  if s.connecting.isSome then
    ({ s with calls := number, entrants := s.entrants ++ [.opening number] }, .pending number)
  else match s.beginOpen number with
    | (s, some outcome) => (s, .ended outcome)
    | (s, none) =>
        if s.transport.openHeld then ({ s with calls := number }, .pending number)
        else
          let (s, outcome) := s.endOpen
          (s, .ended outcome)

def beginClose (s : Service) (number : Nat) : Service × Bool :=
  match s.phase with
  | .closed | .closing => (s, false)
  | .opening | .connected =>
      let s := (s.enter .closing).abortHandle
      ({ s with
        closings := s.closings ++ [number]
        transport := { s.transport with closes := s.transport.closes + 1 } }, true)

def endClose (s : Service) (number : Nat) : Service × Outcome :=
  let s := { s with closings := s.closings.erase number }.enter .closed
  match s.transport.closeFailure with
  | none => (s, .done)
  | some error => (s.report (.transportFailure error.message), .failed (.transportFailure error))

def shutDown (s : Service) : Service × Reply :=
  let number := s.calls + 1
  let s := { s with calls := number }
  if s.connecting.isSome then
    ({ s with entrants := s.entrants ++ [.closing number] }, .pending number)
  else match s.beginClose number with
    | (s, false) => (s, ok)
    | (s, true) =>
        if s.transport.closeHeld then (s, .pending number)
        else
          let (s, outcome) := s.endClose number
          (s, .ended outcome)

def answerClose (s : Service) (number : Nat) : Service :=
  if number ∈ s.closings then
    let (s, outcome) := s.endClose number
    s.finish number outcome
  else s

def settleCloses (s : Service) : Service :=
  if s.transport.closeHeld then s else s.closings.foldl answerClose s

def letIn : List Entrant → Service → Service
  | [], s => s
  | .opening number :: rest, s =>
      match s.beginOpen number with
      | (s, some outcome) => letIn rest (s.finish number outcome)
      | (s, none) =>
          if s.transport.openHeld then { s with entrants := rest }
          else
            let (s, outcome) := s.endOpen
            letIn rest (s.finish number outcome)
  | .closing number :: rest, s =>
      match s.beginClose number with
      | (s, false) => letIn rest (s.finish number .done)
      | (s, true) => letIn rest s

/-- The transport answers for the call that waits inside its opening. One that closes and does not wait comes
back to the connection behind those that are in line for it. -/
def answerOpen (s : Service) : Service :=
  match s.connecting with
  | none => s
  | some number =>
      let (s, outcome) := s.endOpen
      let s := s.finish number outcome
      (letIn s.entrants { s with entrants := [] }).settleCloses

def requestUpdate (s : Service) : Service × Reply :=
  let number := s.calls + 1
  match { s with calls := number }.update (.call number) with
  | (s, some outcome) => (s, .ended outcome)
  | (s, none) => (s, .pending number)

end AccountWatch.Service
