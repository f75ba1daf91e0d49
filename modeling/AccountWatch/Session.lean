import AccountWatch.Message.Basic
import AccountWatch.Request

/-! The tracked account and the last known block count. Only a subscribe message touches the count, and
one that carries none clears it, so that the fallback applies again. -/
namespace AccountWatch

structure Session where
  address : Option Address
  blockCount : Option UInt64
  fallback : UInt64
  deriving DecidableEq, Repr

namespace Session

def defaultFallback : UInt64 := 10

def start (fallback : UInt64) : Session := ⟨none, none, fallback⟩

def setAddress (s : Session) (address : Option Address) : Session := { s with address }

def observe (s : Session) : Message → Session
  | .subscribe update => { s with blockCount := update.blockCount }
  | _ => s

def effectiveCount (s : Session) : UInt64 := s.blockCount.getD s.fallback

def requests? (s : Session) (currency : String) : Option (List Request) :=
  s.address.map fun account => Request.startup account s.effectiveCount currency

end Session
end AccountWatch
