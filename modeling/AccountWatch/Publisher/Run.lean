import AccountWatch.Publisher.Basic

/-! Runs of one publisher: what its owner and the holders of its subscriptions may do, in any order. A
subscription is read without waiting, by waiting or as a stream; the last two look at the queue once and
say why there is no message. A publisher that is gone takes no further calls. -/
namespace AccountWatch

inductive Reading where
  | attempt
  | wait
  | stream
  deriving DecidableEq, Repr

inductive Answer where
  | message (m : Message)
  | nothing
  | pending
  | ended
  deriving DecidableEq, Repr

def Reading.answer : Reading → Poll → Answer
  | _, .message m => .message m
  | .attempt, .pending | .attempt, .ended => .nothing
  | .wait, .pending | .stream, .pending => .pending
  | .wait, .ended | .stream, .ended => .ended

def Answer.messages : Answer → List Message
  | .message m => [m]
  | .nothing | .pending | .ended => []

namespace Publisher

def read (p : Publisher) (way : Reading) (number : Nat) : Publisher × Answer :=
  let (p, poll) := p.poll number
  (p, way.answer poll)

inductive Event where
  | subscribe (filter : Filter)
  | publish (m : Message)
  | read (way : Reading) (number : Nat)
  | drain (number : Nat)
  | unsubscribe (number : Nat)
  | close

def step (p : Publisher) : Event → Publisher
  | .subscribe filter => if p.gone then p else (p.subscribe filter).1
  | .publish m => if p.gone then p else (p.publish m).1
  | .read way number => (p.read way number).1
  | .drain number => (p.drain number).1
  | .unsubscribe number => p.unsubscribe number
  | .close => p.close

def run (p : Publisher) (events : List Event) : Publisher := events.foldl step p

def taken (p : Publisher) (number : Nat) : Event → List Message
  | .read way n => if n = number then (p.read way n).2.messages else []
  | .drain n => if n = number then (p.drain n).2 else []
  | _ => []

def received (number : Nat) : Publisher → List Event → List Message
  | _, [] => []
  | p, e :: rest => p.taken number e ++ received number (p.step e) rest

end Publisher
end AccountWatch
