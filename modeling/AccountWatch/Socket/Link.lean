import AccountWatch.Service.Transport

/-! One connection of the socket transport: the commands queued for it, the signals it has put into its
stream and what it has written to the peer. It takes commands in the order of the calls and goes over
for good on the first of: a refused connection, a close command, the loss of its command channel, a
close or a fault from the peer. Every command is acknowledged once; those still queued when the
link goes over are acknowledged then, without having been written. -/
namespace AccountWatch.Socket

inductive Incoming where
  | text (t : String)
  | other
  | close (reason : Option String)
  | broken (text : String)
  | finished
  deriving DecidableEq, Repr

inductive Command where
  | text (ticket : Nat) (payload : String)
  | close (ticket : Nat)
  deriving DecidableEq, Repr

inductive Written where
  | text (ticket : Nat) (payload : String)
  | close
  deriving DecidableEq, Repr

structure Ack where
  ticket : Nat
  error : Option TransportError
  deriving DecidableEq, Repr

inductive Stage where
  | connecting
  | up
  | gone
  deriving DecidableEq, Repr

structure Link where
  stage : Stage
  attached : Bool
  commands : List Command
  signals : List Signal
  written : List Written
  deriving DecidableEq, Repr

def Command.abandoned : Command → Ack
  | .text ticket _ => ⟨ticket, some .notConnected⟩
  | .close ticket => ⟨ticket, none⟩

namespace Link

def start : Link := ⟨.connecting, true, [], [], []⟩

def closedByClient : Option String := some "closed by client"

def goOver (l : Link) (last : Signal) : Link × List Ack :=
  ({ l with stage := .gone, commands := [], signals := l.signals ++ [last] },
    l.commands.map Command.abandoned)

def connected (l : Link) : Link × List Ack :=
  match l.stage with
  | .connecting => ({ l with stage := .up, signals := l.signals ++ [.opened] }, [])
  | .up | .gone => (l, [])

def refused (l : Link) (url text : String) : Link × List Ack :=
  match l.stage with
  | .connecting => l.goOver (.failure ("connect " ++ url ++ ": " ++ text))
  | .up | .gone => (l, [])

def obey (l : Link) (fault : Option String) : Link × List Ack :=
  match l.stage with
  | .connecting | .gone => (l, [])
  | .up =>
      match l.commands with
      | .text ticket payload :: rest =>
          match fault with
          | none => ({ l with commands := rest, written := l.written ++ [Written.text ticket payload] },
              [⟨ticket, none⟩])
          | some text => ({ l with commands := rest }, [⟨ticket, some (.send text)⟩])
      | .close ticket :: rest =>
          let (l, acks) := { l with commands := rest, written := l.written ++ [Written.close] }.goOver
            (.closed closedByClient)
          (l, ⟨ticket, none⟩ :: acks)
      | [] =>
          if l.attached then (l, [])
          else { l with written := l.written ++ [Written.close] }.goOver (.closed none)

def receive (l : Link) (i : Incoming) : Link × List Ack :=
  match l.stage with
  | .connecting | .gone => (l, [])
  | .up =>
      match i with
      | .text t => ({ l with signals := l.signals ++ [.frame t] }, [])
      | .other => (l, [])
      | .close reason => l.goOver (.closed reason)
      | .broken text => l.goOver (.failure text)
      | .finished => l.goOver (.closed none)

end Link
end AccountWatch.Socket
