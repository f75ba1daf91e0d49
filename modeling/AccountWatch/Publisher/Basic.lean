import AccountWatch.Message.Basic

/-! Fan-out of messages. Each subscriber has a queue of its own and sees what is published after it
subscribed and its filter accepts. A dropped subscription stays in the list until a publication meets
it. A filter may crash: the subscribers before it have their copy, the others have not, nobody is
lost. After the publisher is gone its subscribers still read what is queued. -/
namespace AccountWatch

inductive Verdict where
  | accept
  | reject
  | crash
  deriving DecidableEq, Repr

abbrev Filter := Message → Verdict

structure Subscriber where
  number : Nat
  filter : Filter
  live : Bool
  queue : List Message

inductive Delivery where
  | delivered (count : Nat)
  | crashed
  deriving DecidableEq, Repr

inductive Poll where
  | message (m : Message)
  | pending
  | ended
  deriving DecidableEq, Repr

structure Publisher where
  created : Nat
  subscribers : List Subscriber
  gone : Bool

def Subscriber.push (s : Subscriber) (m : Message) : Subscriber :=
  { s with queue := s.queue ++ [m] }

def Delivery.next : Delivery → Delivery
  | .delivered count => .delivered (count + 1)
  | .crashed => .crashed

def deliver (m : Message) : List Subscriber → List Subscriber × Delivery
  | [] => ([], .delivered 0)
  | s :: rest =>
      if !s.live then deliver m rest
      else match s.filter m with
        | .crash => (s :: rest, .crashed)
        | .reject =>
            let (visited, delivery) := deliver m rest
            (s :: visited, delivery)
        | .accept =>
            let (visited, delivery) := deliver m rest
            (s.push m :: visited, delivery.next)

namespace Publisher

def empty : Publisher := ⟨0, [], false⟩

def publish (p : Publisher) (m : Message) : Publisher × Delivery :=
  let (subscribers, delivery) := deliver m p.subscribers
  ({ p with subscribers }, delivery)

def subscribe (p : Publisher) (filter : Filter) : Publisher × Nat :=
  let number := p.created
  ({ p with
      created := number + 1
      subscribers := p.subscribers ++ [⟨number, filter, true, []⟩] }, number)

def update (p : Publisher) (number : Nat) (change : Subscriber → Subscriber) : Publisher :=
  { p with subscribers := p.subscribers.map fun s => if s.number = number then change s else s }

def unsubscribe (p : Publisher) (number : Nat) : Publisher :=
  p.update number fun s => { s with live := false, queue := [] }

def queue (p : Publisher) (number : Nat) : List Message :=
  ((p.subscribers.find? fun s => s.number = number).map Subscriber.queue).getD []

def poll (p : Publisher) (number : Nat) : Publisher × Poll :=
  match p.queue number with
  | [] => (p, if p.gone then .ended else .pending)
  | m :: rest => (p.update number fun s => { s with queue := rest }, .message m)

def drain (p : Publisher) (number : Nat) : Publisher × List Message :=
  (p.update number fun s => { s with queue := [] }, p.queue number)

def count (p : Publisher) : Nat := (p.subscribers.filter Subscriber.live).length

def close (p : Publisher) : Publisher := { p with gone := true }

end Publisher
end AccountWatch
