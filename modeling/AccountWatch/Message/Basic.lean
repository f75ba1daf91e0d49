import AccountWatch.Json.Writer

/-! Classified messages. `payload` is the document of a message without its kind, `envelope` puts the kind
beside it, and `line` is the printed form. An unknown message is its own document, so a key of that
document never meets the envelope's. A price that is not finite is written as null. -/
namespace AccountWatch

inductive Kind where
  | subscribe
  | history
  | price
  | work
  | unknown
  deriving DecidableEq, Repr

def Kind.text : Kind → String
  | .subscribe => "subscribe"
  | .history => "history"
  | .price => "price"
  | .work => "work"
  | .unknown => "unknown"

structure AccountUpdate where
  frontier : String
  blockCount : Option UInt64
  account : Option String
  balance : Option String
  pending : Option String
  representative : Option String
  openBlock : Option String
  deriving DecidableEq, Repr

structure HistoryEntry where
  kind : Option String
  account : Option String
  amount : Option String
  hash : Option String
  deriving DecidableEq, Repr

inductive Message where
  | subscribe (update : AccountUpdate)
  | history (entries : List HistoryEntry)
  | price (currency : String) (quote : Option Binary64)
  | work (result : String)
  | unknown (document : Json.Members)
  deriving DecidableEq, Repr

open Json (Value)

def Binary64.json : Binary64 → Value
  | .finite negative units => .number (.real negative units)
  | .nan | .infinite _ => .null

def AccountUpdate.json (u : AccountUpdate) : Value :=
  .object [("frontier", .string u.frontier),
    ("block_count", .optional .count u.blockCount),
    ("account", .optional .string u.account),
    ("balance", .optional .string u.balance),
    ("pending", .optional .string u.pending),
    ("representative", .optional .string u.representative),
    ("open_block", .optional .string u.openBlock)]

def HistoryEntry.json (e : HistoryEntry) : Value :=
  .object [("type", .optional .string e.kind),
    ("account", .optional .string e.account),
    ("amount", .optional .string e.amount),
    ("hash", .optional .string e.hash)]

namespace Message

def kind : Message → Kind
  | .subscribe _ => .subscribe
  | .history _ => .history
  | .price _ _ => .price
  | .work _ => .work
  | .unknown _ => .unknown

def payload : Message → Value
  | .subscribe update => update.json
  | .history entries => .object [("history", .array (entries.map HistoryEntry.json))]
  | .price currency quote =>
      .object [("currency", .string currency), ("price", .optional Binary64.json quote)]
  | .work result => .object [("work", .string result)]
  | .unknown document => .object document

def envelope (m : Message) : Value :=
  .object [("kind", .string m.kind.text), ("message", m.payload)]

def line (m : Message) : String := m.envelope.text

end Message
end AccountWatch
