import AccountWatch.Json.Reader
import AccountWatch.Service.Transport

/-! A transport for rehearsals. It records every payload, failing ones too, and signals put into it reach
the reader of the stream that was opened last, as long as that reader is there. A refused opening leaves
the earlier stream as it is. -/
namespace AccountWatch

structure Recorder where
  refusing : Bool
  needles : List String
  sent : List String
  stream : Option (List Signal)
  opens : Nat
  closes : Nat
  deriving DecidableEq, Repr

inductive StreamPoll where
  | signal (s : Signal)
  | pending
  | absent
  deriving DecidableEq, Repr

namespace Recorder

def start (refusing : Bool) (needles : List String) : Recorder := ⟨refusing, needles, [], none, 0, 0⟩

def connect (r : Recorder) : Recorder × Option TransportError :=
  let r := { r with opens := r.opens + 1 }
  if r.refusing then (r, some (.connect "mock refused connection"))
  else ({ r with stream := some [] }, none)

def send (r : Recorder) (payload : String) : Recorder × Option TransportError :=
  let refused := r.needles.any fun needle => Text.occurs needle.toList payload.toList
  ({ r with sent := r.sent ++ [payload] },
    if refused then some (.send "mock send failure") else none)

def close (r : Recorder) : Recorder := { r with closes := r.closes + 1 }

def emit (r : Recorder) (signal : Signal) : Recorder × Bool :=
  match r.stream with
  | none => (r, false)
  | some queue => ({ r with stream := some (queue ++ [signal]) }, true)

def poll (r : Recorder) : Recorder × StreamPoll :=
  match r.stream with
  | none => (r, .absent)
  | some [] => (r, .pending)
  | some (signal :: queue) => ({ r with stream := some queue }, .signal signal)

def dropStream (r : Recorder) : Recorder := { r with stream := none }

def documents (r : Recorder) : List Json.Value :=
  r.sent.filterMap fun payload => (Json.parse payload).toOption

end Recorder
end AccountWatch
