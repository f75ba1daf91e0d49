import AccountWatch.Program.Options
import AccountWatch.Publisher.Filter
import AccountWatch.Service.Run

/-! The program. It subscribes to messages and reports before it opens the service, then takes whichever of a
message, a report and an interrupt is ready, in no fixed order. It prints a line for each message it takes
and leaves on an interrupt or on the report that the connection is closed. The periodic refresh is an
update request made while it runs. -/
namespace AccountWatch

structure Program where
  service : Service
  subscription : Nat
  receiver : Receiver
  output : List String
  ended : Bool

namespace Program

def version : String := "nanowatch 0.1.0"

def causedBy (outer inner : String) : String :=
  "Error: " ++ outer ++ "\n\nCaused by:\n" ++ String.ofList (Text.indented true inner.toList)

def start (o : Options) : Except String Program :=
  match checkEndpoint o.url with
  | .error cause => .error (causedBy "configure websocket transport"
      (WatchError.invalidEndpoint o.url cause).message)
  | .ok () =>
      let service := Service.start (o.address.map Address.mk) o.currency o.fallback
      let (publisher, subscription) := service.publisher.subscribe Filter.everything
      let receiver := Receiver.start service.reports
      let (service, _) := { service with publisher }.openUp
      .ok ⟨service, subscription, receiver, [], false⟩

inductive Move where
  | input (i : Service.Input)
  | takeMessage
  | takeReport
  | interrupt

def leave (p : Program) : Program := { p with service := p.service.shutDown.1, ended := true }

def takeMessage (p : Program) : Program :=
  match p.service.publisher.poll p.subscription with
  | (publisher, .message m) =>
      { p with service := { p.service with publisher }, output := p.output ++ [m.line] }
  | (_, .pending) => p
  | (_, .ended) => p.leave

def takeReport (p : Program) : Program :=
  match p.receiver.next? p.service.reports with
  | none => p
  | some (received, receiver) =>
      let p := { p with receiver }
      if received = .report (.phase .closed) then p.leave else p

def move (p : Program) (m : Move) : Program :=
  if p.ended then p
  else match m with
    | .input i => { p with service := (p.service.step i).1 }
    | .takeMessage => p.takeMessage
    | .takeReport => p.takeReport
    | .interrupt => p.leave

def run (p : Program) (moves : List Move) : Program := moves.foldl move p

def settle (p : Program) : Program :=
  let messages := (p.service.publisher.queue p.subscription).map fun _ => Move.takeMessage
  let reports := (p.service.reports.drop p.receiver.seen).map fun _ => Move.takeReport
  p.run (messages ++ reports)

def feed (p : Program) (signals : List Signal) : Program :=
  (p.move (.input (.emit p.service.transport.streams signals))).settle

end Program
end AccountWatch
