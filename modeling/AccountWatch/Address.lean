import AccountWatch.Json.Writer

/-! Account addresses. An address is any text: nothing here validates it. In a document it is a bare
string, and a value of any other kind is refused by its kind. -/
namespace AccountWatch

structure Address where
  text : String
  deriving DecidableEq, Repr

namespace Address

def json (a : Address) : Json.Value := .string a.text

def ofJson? : Json.Value → Option Address
  | .string s => some ⟨s⟩
  | _ => none

def found : Json.Value → String
  | .null => "null"
  | .boolean b => "boolean `" ++ toString b ++ "`"
  | .number (.integer i) => "integer `" ++ String.ofList i.written ++ "`"
  | .number (.real negative units) =>
      "floating point `" ++ String.ofList (Binary64.signedText negative units) ++ "`"
  | .string s => "string " ++ String.ofList (Json.quoted s)
  | .array _ => "sequence"
  | .object _ => "map"

def refusal (v : Json.Value) : String := "invalid type: " ++ found v ++ ", expected a string"

end Address
end AccountWatch
