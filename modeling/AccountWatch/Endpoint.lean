import AccountWatch.Uri

/-! Endpoints of the server: resource identifiers whose scheme is `ws` or `wss` in lower case and whose host
is not empty. A text is accepted or refused as it stands and never changed. -/
namespace AccountWatch

inductive EndpointError where
  | notUri (cause : UriError)
  | badScheme (scheme : String)
  | noScheme
  | noHost
  deriving DecidableEq, Repr

def EndpointError.text (shown : String) : EndpointError → String
  | .notUri cause =>
      "invalid connection `" ++ shown ++ "`: expected websocket URL (" ++ cause.text ++ ")"
  | .badScheme scheme => "unsupported connection scheme `" ++ scheme ++ "`; expected ws or wss"
  | .noScheme => "connection `" ++ shown ++ "` has no scheme; expected ws:// or wss://"
  | .noHost => "connection `" ++ shown ++ "` has no host"

def checkEndpoint (s : String) : Except EndpointError Unit :=
  match Uri.parse s.toList with
  | .error cause => .error (.notUri cause)
  | .ok uri =>
      match uri.scheme with
      | none => .error .noScheme
      | some scheme =>
          if scheme = "ws".toList ∨ scheme = "wss".toList then
            if uri.host.isEmpty then .error .noHost else .ok ()
          else .error (.badScheme (String.ofList scheme))

end AccountWatch
