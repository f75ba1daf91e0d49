/-! Phases of the connection and the lifecycle graph they follow. -/
namespace AccountWatch

inductive Phase where
  | closed
  | opening
  | connected
  | closing
  deriving DecidableEq, Repr

namespace Phase

def text : Phase → String
  | .closed => "closed"
  | .opening => "opening"
  | .connected => "open"
  | .closing => "closing"

def active : Phase → Bool
  | .opening | .connected => true
  | .closed | .closing => false

inductive Follows : Phase → Phase → Prop where
  | start : Follows .closed .opening
  | establish : Follows .opening .connected
  | cancel : Follows .opening .closing
  | fail : Follows .opening .closed
  | leave : Follows .connected .closing
  | lose : Follows .connected .closed
  | finish : Follows .closing .closed

end Phase
end AccountWatch
