import AccountWatch.Socket.Link

/-! The socket transport. Each opening makes a new link and takes the command channel from the link before.
A call gets a ticket; its acknowledgement is there at once when no live link takes commands, else when
the link has obeyed or gone over. `Move` is whatever may happen, in any order. -/
namespace AccountWatch

structure Socket where
  url : String
  links : List Socket.Link
  current : Option Nat
  tickets : Nat
  acks : List Socket.Ack
  deriving DecidableEq, Repr

namespace Socket

def start (url : String) : Socket := ⟨url, [], none, 0, []⟩

def create (url : String) : Except EndpointError Socket :=
  (checkEndpoint url).map fun _ => start url

def acknowledge (s : Socket) (acks : List Ack) : Socket := { s with acks := s.acks ++ acks }

def onLink (s : Socket) (i : Nat) (act : Link → Link × List Ack) : Socket :=
  match s.links[i]? with
  | none => s
  | some link =>
      let (link, acks) := act link
      { s with links := s.links.set i link }.acknowledge acks

def detach (s : Socket) : Socket :=
  match s.current with
  | none => s
  | some i => { s with current := none }.onLink i fun l => ({ l with attached := false }, [])

def openUp (s : Socket) : Socket :=
  let s := s.detach
  { s with links := s.links ++ [.start], current := some s.links.length }

def enqueue (c : Command) (l : Link) : Link × List Ack :=
  match l.stage with
  | .gone => (l, [c.abandoned])
  | .connecting | .up => ({ l with commands := l.commands ++ [c] }, [])

def command (s : Socket) (c : Command) : Socket :=
  match s.current with
  | none => s.acknowledge [c.abandoned]
  | some i => s.onLink i (enqueue c)

def send (s : Socket) (payload : String) : Socket :=
  { s with tickets := s.tickets + 1 }.command (.text s.tickets payload)

def close (s : Socket) : Socket :=
  ({ s with tickets := s.tickets + 1 }.command (.close s.tickets)).detach

inductive Move where
  | openUp
  | send (payload : String)
  | close
  | connected (link : Nat)
  | refused (link : Nat) (text : String)
  | obey (link : Nat) (fault : Option String)
  | receive (link : Nat) (i : Incoming)
  deriving DecidableEq, Repr

def move (s : Socket) : Move → Socket
  | .openUp => s.openUp
  | .send payload => s.send payload
  | .close => s.close
  | .connected i => s.onLink i Link.connected
  | .refused i text => s.onLink i fun l => l.refused s.url text
  | .obey i fault => s.onLink i fun l => l.obey fault
  | .receive i incoming => s.onLink i fun l => l.receive incoming

def run (s : Socket) (moves : List Move) : Socket := moves.foldl move s

def ack? (s : Socket) (ticket : Nat) : Option Ack := s.acks.find? fun a => a.ticket = ticket

end Socket
end AccountWatch
