import AccountWatch.Text

/-! Why and where reading a document stops. A reader keeps the text from the offending character on and
how many of its octets count as consumed; line and column follow from what was consumed of the whole
text. Columns count octets since the last line feed, lines count line feeds. -/
namespace AccountWatch.Json

inductive Cause where
  | valueEnds
  | stringEnds
  | listEnds
  | objectEnds
  | noValue
  | noWord
  | noColon
  | noListSeparator
  | noObjectSeparator
  | trailingComma
  | trailingCharacters
  | keyNotString
  | invalidNumber
  | numberOutOfRange
  | controlCharacter
  | invalidEscape
  | loneSurrogate
  | brokenPair
  | tooDeep
  deriving DecidableEq, Repr

def Cause.text : Cause → String
  | .valueEnds => "EOF while parsing a value"
  | .stringEnds => "EOF while parsing a string"
  | .listEnds => "EOF while parsing a list"
  | .objectEnds => "EOF while parsing an object"
  | .noValue => "expected value"
  | .noWord => "expected ident"
  | .noColon => "expected `:`"
  | .noListSeparator => "expected `,` or `]`"
  | .noObjectSeparator => "expected `,` or `\x7d`"
  | .trailingComma => "trailing comma"
  | .trailingCharacters => "trailing characters"
  | .keyNotString => "key must be a string"
  | .invalidNumber => "invalid number"
  | .numberOutOfRange => "number out of range"
  | .controlCharacter => "control character (\\u0000-\\u001F) found while parsing a string"
  | .invalidEscape => "invalid escape"
  | .loneSurrogate => "lone leading surrogate in hex escape"
  | .brokenPair => "unexpected end of hex escape"
  | .tooDeep => "recursion limit exceeded"

structure Position where
  line : Nat
  column : Nat
  deriving DecidableEq, Repr

def Position.after (p : Position) : List Char → Nat → Position
  | [], _ => p
  | c :: rest, octets =>
      if octets = 0 then p
      else if c = '\n' then after ⟨p.line + 1, 0⟩ rest (octets - 1)
      else if octets < c.utf8Size then ⟨p.line, p.column + octets⟩
      else after ⟨p.line, p.column + c.utf8Size⟩ rest (octets - c.utf8Size)

/-- Where a reader stopped: `consumed` octets of `rest` are behind the position it reports. -/
structure Stop where
  cause : Cause
  rest : List Char
  consumed : Nat
  deriving DecidableEq, Repr

namespace Stop

def atEnd (cause : Cause) : Stop := ⟨cause, [], 0⟩

def past (cause : Cause) (rest : List Char) : Stop := ⟨cause, rest, 1⟩

def before (cause : Cause) (rest : List Char) : Stop := ⟨cause, rest, 0⟩

def position (text : List Char) (s : Stop) : Position :=
  Position.after ⟨1, 0⟩ text (Text.width text - Text.width s.rest + s.consumed)

end Stop

structure Failure where
  cause : Cause
  position : Position
  deriving DecidableEq, Repr

def Failure.message (f : Failure) : String :=
  f.cause.text ++ " at line " ++ toString f.position.line ++ " column " ++
    toString f.position.column

end AccountWatch.Json
