import AccountWatch.Service.Calls

/-! Runs of the service: its calls, and everything the world around it may do. Most inputs are single moves,
after which a listener may still have signals to take or a call that is no longer held may still wait:
any order of tasks and of answers is an order of such moves. The others go on until all that can run
has run, in the order in which callers began to wait. -/
namespace AccountWatch.Service

def emit (s : Service) (stream : Nat) (signals : List Signal) : Service × Nat :=
  let (s, taken) := s.arrive stream signals
  (s.wake stream, taken)

def endStream (s : Service) (stream : Nat) : Service := (s.cut stream).wake stream

def holdSends (s : Service) : Service :=
  { s with transport := { s.transport with permits := some (s.transport.permits.getD 0) } }

def grantSends (s : Service) (count : Nat) : Service :=
  { s with transport := { s.transport with permits := s.transport.permits.map fun n => n + count } }

def freeSends (s : Service) : Service := { s with transport := { s.transport with permits := none } }

def serve (s : Service) (caller : Caller) : Service :=
  match caller with
  | .call _ => s.answerSend caller
  | .listener stream => (s.answerSend caller).wake stream

def permitSends (s : Service) (count : Nat) : Service :=
  if s.transport.permits.isNone then s
  else
    let served := (s.bursts.take count).map Burst.caller
    served.foldl serve (s.grantSends (count - served.length))

def releaseSends (s : Service) : Service := (s.bursts.map Burst.caller).foldl serve s.freeSends

def setOpenHeld (s : Service) (openHeld : Bool) : Service :=
  { s with transport := { s.transport with openHeld } }

def setCloseHeld (s : Service) (closeHeld : Bool) : Service :=
  { s with transport := { s.transport with closeHeld } }

def releaseClose (s : Service) : Service := (s.setCloseHeld false).settleCloses

inductive Input where
  | openUp
  | shutDown
  | requestUpdate
  | arrive (stream : Nat) (signals : List Signal)
  | cut (stream : Nat)
  | turn (stream : Nat)
  | emit (stream : Nat) (signals : List Signal)
  | endStream (stream : Nat)
  | failOpen (error : Option TransportError)
  | failClose (error : Option TransportError)
  | failSends (rules : List SendRule)
  | holdSends
  | grantSends (count : Nat)
  | freeSends
  | answerSend (caller : Caller)
  | permitSends (count : Nat)
  | releaseSends
  | holdOpen
  | freeOpen
  | answerOpen
  | holdClose
  | freeClose
  | answerClose (number : Nat)
  | releaseClose
  | setAccount (account : Option Address)
  | setCurrency (currency : String)
  | setSessionAddress (address : Option Address)
  | observe (m : Message)
  | publish (m : Message)
  | subscribe (filter : Filter)
  | unsubscribe (number : Nat)
  | poll (number : Nat)
  | drain (number : Nat)

def step (s : Service) : Input → Service × Reply
  | .openUp => s.openUp
  | .shutDown => s.shutDown
  | .requestUpdate => s.requestUpdate
  | .arrive stream signals => let (s, n) := s.arrive stream signals; (s, .count n)
  | .cut stream => (s.cut stream, ok)
  | .turn stream => (s.turn stream, ok)
  | .emit stream signals => let (s, n) := s.emit stream signals; (s, .count n)
  | .endStream stream => (s.endStream stream, ok)
  | .failOpen error => ({ s with transport := { s.transport with openFailure := error } }, ok)
  | .failClose error => ({ s with transport := { s.transport with closeFailure := error } }, ok)
  | .failSends rules => ({ s with transport := { s.transport with rules } }, ok)
  | .holdSends => (s.holdSends, ok)
  | .grantSends count => (s.grantSends count, ok)
  | .freeSends => (s.freeSends, ok)
  | .answerSend caller => (s.answerSend caller, ok)
  | .permitSends count => (s.permitSends count, ok)
  | .releaseSends => (s.releaseSends, ok)
  | .holdOpen => (s.setOpenHeld true, ok)
  | .freeOpen => (s.setOpenHeld false, ok)
  | .answerOpen => (s.answerOpen, ok)
  | .holdClose => (s.setCloseHeld true, ok)
  | .freeClose => (s.setCloseHeld false, ok)
  | .answerClose number => (s.answerClose number, ok)
  | .releaseClose => (s.releaseClose, ok)
  | .setAccount account => ({ s with account }, ok)
  | .setCurrency currency => ({ s with currency }, ok)
  | .setSessionAddress address => ({ s with session := s.session.setAddress address }, ok)
  | .observe m => ({ s with session := s.session.observe m }, ok)
  | .publish m =>
      let (publisher, delivery) := s.publisher.publish m
      ({ s with publisher }, .delivery delivery)
  | .subscribe filter =>
      let (publisher, _) := s.publisher.subscribe filter
      ({ s with publisher }, .count publisher.count)
  | .unsubscribe number =>
      let publisher := s.publisher.unsubscribe number
      ({ s with publisher }, .count publisher.count)
  | .poll number =>
      let (publisher, p) := s.publisher.poll number
      ({ s with publisher }, .poll p)
  | .drain number =>
      let (publisher, ms) := s.publisher.drain number
      ({ s with publisher }, .messages ms)

def run (s : Service) (inputs : List Input) : Service :=
  inputs.foldl (fun s input => (s.step input).1) s

end AccountWatch.Service
