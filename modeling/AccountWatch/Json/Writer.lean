import AccountWatch.Json.Value
import AccountWatch.Number.Shortest

/-! Compact text of a document: no blanks, members in the order they are held. Only the quote, the
backslash and the characters below U+0020 are escaped, so a written document is a single line. -/
namespace AccountWatch.Json

def hexDigit (n : Nat) : Char :=
  if n < 10 then Char.ofNat (48 + n) else Char.ofNat (87 + n)

def escaped (c : Char) : List Char :=
  if c = '"' then ['\\', '"']
  else if c = '\\' then ['\\', '\\']
  else if c = '\x08' then ['\\', 'b']
  else if c = '\t' then ['\\', 't']
  else if c = '\n' then ['\\', 'n']
  else if c = '\x0c' then ['\\', 'f']
  else if c = '\r' then ['\\', 'r']
  else if c.toNat < 0x20 then
    ['\\', 'u', '0', '0', hexDigit (c.toNat / 16), hexDigit (c.toNat % 16)]
  else [c]

def quoted (s : String) : List Char := '"' :: (s.toList.flatMap escaped ++ ['"'])

def Integer.written (i : Integer) : List Char :=
  if i.val < 0 then '-' :: Nat.toDigits 10 i.val.natAbs else Nat.toDigits 10 i.val.natAbs

def Number.written : Number → List Char
  | .integer i => i.written
  | .real negative units => Binary64.signedText negative units

mutual

def Value.written : Value → List Char
  | .null => ['n', 'u', 'l', 'l']
  | .boolean true => ['t', 'r', 'u', 'e']
  | .boolean false => ['f', 'a', 'l', 's', 'e']
  | .number n => n.written
  | .string s => quoted s
  | .array [] => ['[', ']']
  | .array (first :: rest) => '[' :: (first.written ++ writtenItems rest)
  | .object [] => ['{', '}']
  | .object ((key, value) :: rest) =>
      '{' :: (quoted key ++ ':' :: (value.written ++ writtenMembers rest))

def writtenItems : List Value → List Char
  | [] => [']']
  | item :: rest => ',' :: (item.written ++ writtenItems rest)

def writtenMembers : List (String × Value) → List Char
  | [] => ['}']
  | (key, value) :: rest => ',' :: (quoted key ++ ':' :: (value.written ++ writtenMembers rest))

end

def Value.text (v : Value) : String := String.ofList v.written

end AccountWatch.Json
