import AccountWatch.Error

/-! The transport as the service meets it. Opening makes a stream that is known by its number, starting with
one; a payload that is sent may have to wait for a permit, and only then succeeds or fails; opening and
closing may have to wait as well. Failures are chosen from outside and looked up after a wait. -/
namespace AccountWatch

inductive Signal where
  | opened
  | frame (text : String)
  | closed (reason : Option String)
  | failure (text : String)
  deriving DecidableEq, Repr

structure SendRule where
  needle : String
  error : TransportError
  deriving DecidableEq, Repr

structure Transport where
  openFailure : Option TransportError
  closeFailure : Option TransportError
  rules : List SendRule
  permits : Option Nat
  openHeld : Bool
  closeHeld : Bool
  streams : Nat
  opens : Nat
  closes : Nat
  deriving DecidableEq, Repr

namespace Transport

def start : Transport := ⟨none, none, [], none, false, false, 0, 0, 0⟩

def refusal? (t : Transport) (payload : String) : Option TransportError :=
  (t.rules.find? fun rule => Text.occurs rule.needle.toList payload.toList).map SendRule.error

def proceed (t : Transport) : Transport × Bool :=
  match t.permits with
  | none => (t, true)
  | some 0 => (t, false)
  | some (n + 1) => ({ t with permits := some n }, true)

def connect (t : Transport) : Transport × Option TransportError :=
  match t.openFailure with
  | some error => (t, some error)
  | none => ({ t with streams := t.streams + 1 }, none)

end Transport
end AccountWatch
