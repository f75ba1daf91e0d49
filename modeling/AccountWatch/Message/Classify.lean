import AccountWatch.Json.Reader
import AccountWatch.Message.Basic

/-! Classification of frames. A frame carries no tag: the first of the keys `frontier`, `history`,
`currency` and `work` that is present at all names the kind. Fields are read leniently and classification
never fails; decoding fails only on text that is no document or a document that is no object. -/
namespace AccountWatch

open Json (Value Members)

/-! Field readers. A missing field and one of the wrong shape are absent alike. -/

def textField (doc : Members) (key : String) : Option String :=
  match doc.lookup key with
  | none => none
  | some .null => none
  | some (.string s) => some s
  | some other => some other.text

def countField (doc : Members) (key : String) : Option UInt64 :=
  match doc.lookup key with
  | some (.number n) => n.count?
  | some (.string s) => Numeral.count? (Text.trim s.toList)
  | _ => none

def realField (doc : Members) (key : String) : Option Binary64 :=
  match doc.lookup key with
  | some (.number n) => some n.binary64
  | some (.string s) => Numeral.real? (Text.trim s.toList)
  | _ => none

def AccountUpdate.ofDocument (doc : Members) : AccountUpdate where
  frontier := (textField doc "frontier").getD ""
  blockCount := countField doc "block_count"
  account := textField doc "account"
  balance := textField doc "balance"
  pending := textField doc "pending"
  representative := textField doc "representative"
  openBlock := textField doc "open_block"

def HistoryEntry.ofValue? : Value → Option HistoryEntry
  | .object doc => some {
      kind := textField doc "type"
      account := textField doc "account"
      amount := textField doc "amount"
      hash := textField doc "hash" }
  | _ => none

def historyEntries (doc : Members) : List HistoryEntry :=
  match doc.lookup "history" with
  | some (.array items) => items.filterMap HistoryEntry.ofValue?
  | _ => []

def hasKey (doc : Members) (key : String) : Bool := doc.any fun (k, _) => k = key

def Kind.ofDocument (doc : Members) : Kind :=
  if hasKey doc "frontier" then .subscribe
  else if hasKey doc "history" then .history
  else if hasKey doc "currency" then .price
  else if hasKey doc "work" then .work
  else .unknown

def Message.ofDocument (doc : Members) : Message :=
  match Kind.ofDocument doc with
  | .subscribe => .subscribe (.ofDocument doc)
  | .history => .history (historyEntries doc)
  | .price => .price ((textField doc "currency").getD "") (realField doc "price")
  | .work => .work ((textField doc "work").getD "")
  | .unknown => .unknown doc

theorem Message.unknownDocument {doc document : Members} (same : ofDocument doc = .unknown document) :
    document = doc := by
  unfold ofDocument at same
  split at same <;> cases same
  rfl

inductive FrameError where
  | notJson (failure : Json.Failure)
  | notObject (found : Value)
  deriving DecidableEq, Repr

def FrameError.text : FrameError → String
  | .notJson failure => "invalid JSON: " ++ failure.message
  | .notObject found => "expected a JSON object, got " ++ found.kindName

def Message.decode (frame : String) : Except FrameError Message :=
  match Json.parse frame with
  | .error failure => .error (.notJson failure)
  | .ok (.object doc) => .ok (.ofDocument doc)
  | .ok other => .error (.notObject other)

end AccountWatch
