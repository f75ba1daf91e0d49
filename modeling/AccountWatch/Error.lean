import AccountWatch.Endpoint
import AccountWatch.Message.Classify

/-! What can go wrong, as causes, and the one place where causes are worded. -/
namespace AccountWatch

inductive TransportError where
  | notConnected
  | connect (text : String)
  | send (text : String)
  | closed (text : String)
  deriving DecidableEq, Repr

def TransportError.message : TransportError → String
  | .notConnected => "transport is not connected"
  | .connect text => "connect failed: " ++ text
  | .send text => "send failed: " ++ text
  | .closed text => "connection closed: " ++ text

inductive WatchError where
  | malformed (cause : FrameError)
  | sendFailure (action : String) (source : TransportError)
  | transportFailure (source : TransportError)
  | addressUnset
  | closing
  | invalidEndpoint (shown : String) (cause : EndpointError)
  deriving DecidableEq, Repr

def WatchError.message : WatchError → String
  | .malformed cause => "malformed message: " ++ cause.text
  | .sendFailure action source => "failed to send " ++ action ++ " request: " ++ source.message
  | .transportFailure source => "transport failure: " ++ source.message
  | .addressUnset => "no account address is set"
  | .closing => "connection is closing"
  | .invalidEndpoint shown cause => "invalid configuration: " ++ cause.text shown

end AccountWatch
