import AccountWatch.Address

/-! Requests to the server and their wire text: a compact object with the action first. Every update asks
for the account, the price in the local currency, the price in Bitcoin and the history, in this order. -/
namespace AccountWatch

inductive Request where
  | subscribe (account : Address) (currency : String)
  | price (currency : String)
  | history (account : Address) (count : UInt64)
  deriving DecidableEq, Repr

namespace Request

def action : Request → String
  | .subscribe _ _ => "subscribe"
  | .price _ => "price"
  | .history _ _ => "history"

def members : Request → Json.Members
  | .subscribe account currency => [("account", account.json), ("currency", .string currency)]
  | .price currency => [("currency", .string currency)]
  | .history account count => [("account", account.json), ("count", .count count)]

def document (r : Request) : Json.Value := .object (("action", .string r.action) :: r.members)

def text (r : Request) : String := r.document.text

def bitcoin : String := "BTC"

def startup (account : Address) (count : UInt64) (currency : String) : List Request :=
  [.subscribe account currency, .price currency, .price bitcoin, .history account count]

end Request
end AccountWatch
