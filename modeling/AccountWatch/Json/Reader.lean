import AccountWatch.Json.Failure
import AccountWatch.Json.Literal

/-! Reading a document from text. Every reader returns a value and the rest of the text, or where it
stopped. Nesting is bounded by a depth that the value reader recurses on; sequences recurse on a count
that the length of the text exceeds, since each item takes at least one character. -/
namespace AccountWatch.Json

abbrev Reading := Except Stop

abbrev Item := List Char → Reading (Value × List Char)

def isSpace (c : Char) : Bool := c = ' ' || c = '\n' || c = '\t' || c = '\r'

def skip (s : List Char) : List Char := s.dropWhile isSpace

def word (value : Value) : List Char → List Char → Reading (Value × List Char)
  | [], s => .ok (value, s)
  | _ :: _, [] => .error (.atEnd .valueEnds)
  | c :: expected, d :: rest =>
      if c = d then word value expected rest else .error (.past .noWord (d :: rest))

def readDigits (s : List Char) : Reading (List Char × List Char) :=
  match s with
  | [] => .error (.atEnd .valueEnds)
  | c :: _ =>
      if c.isDigit then .ok (s.takeWhile Char.isDigit, s.dropWhile Char.isDigit)
      else .error (.past .invalidNumber s)

def readWhole (s : List Char) : Reading (List Char × List Char) :=
  match s with
  | '0' :: rest =>
      match rest with
      | [] => .ok (['0'], rest)
      | c :: _ => if c.isDigit then .error (.past .invalidNumber rest) else .ok (['0'], rest)
  | _ => readDigits s

def readFraction (s : List Char) : Reading (Option (List Char) × List Char) :=
  match s with
  | '.' :: rest => (readDigits rest).map fun (digits, tail) => (some digits, tail)
  | _ => .ok (none, s)

def readExponent (s : List Char) : Reading (Option Exponent × List Char) :=
  match s with
  | [] => .ok (none, [])
  | c :: rest =>
      if c = 'e' ∨ c = 'E' then
        let (negative, tail) := Numeral.signed rest
        (readDigits tail).map fun (digits, tail) => (some ⟨negative, digits⟩, tail)
      else .ok (none, s)

def readLiteral (negative : Bool) (s : List Char) : Reading (Literal × List Char) := do
  let (whole, s) ← readWhole s
  let (fraction, s) ← readFraction s
  let (exponent, s) ← readExponent s
  .ok (⟨negative, whole, fraction, exponent⟩, s)

def outOfRange (l : Literal) (tail : List Char) : Stop :=
  match l.exponent.bind fun e => Exponent.pastBound? 0 e.digits with
  | some unread => .before .numberOutOfRange (unread ++ tail)
  | none => .before .numberOutOfRange tail

def readNumber (negative : Bool) (s : List Char) : Reading (Value × List Char) := do
  let (l, tail) ← readLiteral negative s
  match l.number? with
  | some n => .ok (.number n, tail)
  | none => .error (outOfRange l tail)

def hexValue? (c : Char) : Option Nat :=
  if c.isDigit then some (c.toNat - 48)
  else if 'a' ≤ c ∧ c ≤ 'f' then some (c.toNat - 87)
  else if 'A' ≤ c ∧ c ≤ 'F' then some (c.toNat - 55)
  else none

def hexQuad? (a b c d : Char) : Option Nat := do
  let a ← hexValue? a
  let b ← hexValue? b
  let c ← hexValue? c
  let d ← hexValue? d
  some (((16 * a + b) * 16 + c) * 16 + d)

def badQuad (s : List Char) : Stop :=
  if Text.width s < 4 then .atEnd .stringEnds else ⟨.invalidEscape, s, 4⟩

def isHigh (unit : Nat) : Bool := 0xD800 ≤ unit && unit < 0xDC00

def isLow (unit : Nat) : Bool := 0xDC00 ≤ unit && unit < 0xE000

def paired (high low : Nat) : Char :=
  Char.ofNat ((high - 0xD800) * 0x400 + (low - 0xDC00) + 0x10000)

def simpleEscape? (c : Char) : Option Char :=
  if c = '"' ∨ c = '\\' ∨ c = '/' then some c
  else if c = 'b' then some '\x08'
  else if c = 'f' then some '\x0c'
  else if c = 'n' then some '\n'
  else if c = 'r' then some '\r'
  else if c = 't' then some '\t'
  else none

def unpaired : List Char → Stop
  | [] => .atEnd .stringEnds
  | c :: rest =>
      if c ≠ '\\' then .past .brokenPair (c :: rest)
      else match rest with
        | [] => .atEnd .stringEnds
        | d :: tail => if d ≠ 'u' then .past .brokenPair rest else badQuad tail

def readString (done : List Char) : List Char → Reading (List Char × List Char)
  | [] => .error (.atEnd .stringEnds)
  | c :: rest =>
      if c = '"' then .ok (done.reverse, rest)
      else if c = '\\' then
        match rest with
        | [] => .error (.atEnd .stringEnds)
        | e :: tail =>
            match simpleEscape? e with
            | some plain => readString (plain :: done) tail
            | none =>
                if e ≠ 'u' then .error (.past .invalidEscape rest)
                else match tail with
                  | p :: q :: r :: s :: behind =>
                      match hexQuad? p q r s with
                      | none => .error (badQuad tail)
                      | some unit =>
                          if isLow unit then .error (.before .loneSurrogate behind)
                          else if isHigh unit then
                            match behind with
                            | '\\' :: 'u' :: p :: q :: r :: s :: behind =>
                                match hexQuad? p q r s with
                                | none => .error (badQuad (p :: q :: r :: s :: behind))
                                | some low =>
                                    if isLow low then readString (paired unit low :: done) behind
                                    else .error (.before .loneSurrogate behind)
                            | _ => .error (unpaired behind)
                          else readString (Char.ofNat unit :: done) behind
                  | _ => .error (badQuad tail)
      else if c.toNat < 0x20 then .error (.past .controlCharacter (c :: rest))
      else readString (c :: done) rest

def readText (s : List Char) : Reading (String × List Char) :=
  (readString [] s).map fun (chars, tail) => (String.ofList chars, tail)

def readItems (item : Item) : Nat → List Char → Reading (List Value × List Char)
  | 0, s => .error (.before .listEnds s)
  | count + 1, s => do
      let (first, s) ← item s
      match skip s with
      | [] => .error (.atEnd .listEnds)
      | ']' :: tail => .ok ([first], tail)
      | ',' :: tail =>
          match skip tail with
          | [] => .error (.atEnd .valueEnds)
          | ']' :: after => .error (.past .trailingComma (']' :: after))
          | next =>
              let (items, s) ← readItems item count next
              .ok (first :: items, s)
      | other => .error (.past .noListSeparator other)

def readArray (item : Item) (s : List Char) : Reading (Value × List Char) :=
  match skip s with
  | [] => .error (.atEnd .listEnds)
  | ']' :: tail => .ok (.array [], tail)
  | next => (readItems item s.length next).map fun (items, tail) => (.array items, tail)

def readMember (item : Item) (s : List Char) : Reading ((String × Value) × List Char) :=
  match s with
  | '"' :: rest => do
      let (key, s) ← readText rest
      match skip s with
      | [] => .error (.atEnd .objectEnds)
      | ':' :: tail => do
          let (value, s) ← item tail
          .ok ((key, value), s)
      | other => .error (.past .noColon other)
  | other => .error (.past .keyNotString other)

def readMembers (item : Item) : Nat → List Char → Reading (Members × List Char)
  | 0, s => .error (.before .objectEnds s)
  | count + 1, s => do
      let (first, s) ← readMember item s
      match skip s with
      | [] => .error (.atEnd .objectEnds)
      | '}' :: tail => .ok ([first], tail)
      | ',' :: tail =>
          match skip tail with
          | [] => .error (.atEnd .valueEnds)
          | '}' :: after => .error (.past .trailingComma ('}' :: after))
          | next =>
              let (members, s) ← readMembers item count next
              .ok (first :: members, s)
      | other => .error (.past .noObjectSeparator other)

def readObject (item : Item) (s : List Char) : Reading (Value × List Char) :=
  match skip s with
  | [] => .error (.atEnd .objectEnds)
  | '}' :: tail => .ok (.object [], tail)
  | next =>
      (readMembers item s.length next).map fun (members, tail) => (.object (Members.ofList members), tail)

def readValue (depth : Nat) (s : List Char) : Reading (Value × List Char) :=
  match skip s with
  | [] => .error (.atEnd .valueEnds)
  | c :: rest =>
      if c = 'n' then word .null ['u', 'l', 'l'] rest
      else if c = 't' then word (.boolean true) ['r', 'u', 'e'] rest
      else if c = 'f' then word (.boolean false) ['a', 'l', 's', 'e'] rest
      else if c = '-' then readNumber true rest
      else if c.isDigit then readNumber false (c :: rest)
      else if c = '"' then (readText rest).map fun (s, tail) => (.string s, tail)
      else if c = '[' then
        match depth with
        | 0 => .error (.past .tooDeep (c :: rest))
        | depth + 1 => readArray (readValue depth) rest
      else if c = '{' then
        match depth with
        | 0 => .error (.past .tooDeep (c :: rest))
        | depth + 1 => readObject (readValue depth) rest
      else .error (.past .noValue (c :: rest))

def depthLimit : Nat := 127

def readDocument (s : List Char) : Except Stop Value := do
  let (value, tail) ← readValue depthLimit s
  match skip tail with
  | [] => .ok value
  | other => .error (.past .trailingCharacters other)

def parse (text : String) : Except Failure Value :=
  match readDocument text.toList with
  | .ok value => .ok value
  | .error stop => .error ⟨stop.cause, stop.position text.toList⟩

end AccountWatch.Json
