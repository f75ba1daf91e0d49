import AccountWatch.Text

/-! Resource identifiers, as far as connections need them. A text is split into a scheme, if `://` ends one,
an authority and a path with query, and every part is checked for the characters it may hold. Lengths
count octets. The host stands in the authority behind user information and before a port. -/
namespace AccountWatch

inductive UriError where
  | empty
  | tooLong
  | badCharacter
  | badAuthority
  | badFormat
  | schemeTooLong
  deriving DecidableEq, Repr

def UriError.text : UriError → String
  | .empty => "empty string"
  | .tooLong => "uri too long"
  | .badCharacter => "invalid uri character"
  | .badAuthority => "invalid authority"
  | .badFormat => "invalid format"
  | .schemeTooLong => "scheme too long"

structure Uri where
  scheme : Option (List Char)
  authority : List Char
  deriving DecidableEq, Repr

namespace Uri

def lengthLimit : Nat := 65534

def schemeLimit : Nat := 64

def isSchemeChar (c : Char) : Bool := c.isAlphanum || c = '+' || c = '-' || c = '.' || c = '~'

def isAuthorityChar (c : Char) : Bool :=
  c.isAlphanum || "!$&'()*+,-.:;=@[]_~%".toList.contains c

def endsAuthority (c : Char) : Bool := c = '/' || c = '?' || c = '#'

def isPathChar (c : Char) : Bool :=
  let n := c.toNat
  n = 0x21 || (0x24 ≤ n && n ≤ 0x3B) || n = 0x3D || (0x40 ≤ n && n ≤ 0x5F) ||
    (0x61 ≤ n && n ≤ 0x7A) || c = '|' || c = '~' || c = '"' || c = '\x7b' || c = '\x7d' || 0x80 ≤ n

def isQueryChar (c : Char) : Bool :=
  let n := c.toNat
  n = 0x21 || (0x24 ≤ n && n ≤ 0x3B) || n = 0x3D || (0x3F ≤ n && n ≤ 0x7E) || 0x80 ≤ n

def behind? (marker s : List Char) : Option (List Char) :=
  if (s.take marker.length).map Char.toLower = marker then some (s.drop marker.length) else none

def splitScheme (s : List Char) : Except UriError (Option (List Char) × List Char) :=
  match behind? "http://".toList s, behind? "https://".toList s with
  | some rest, _ => .ok (some "http".toList, rest)
  | none, some rest => .ok (some "https".toList, rest)
  | none, none =>
      let scheme := s.takeWhile isSchemeChar
      match s.dropWhile isSchemeChar with
      | ':' :: '/' :: '/' :: rest =>
          if Text.width s ≤ 3 then .ok (none, s)
          else if schemeLimit < scheme.length then .error .schemeTooLong
          else .ok (some scheme, rest)
      | _ => .ok (none, s)

/-- What is remembered of the authority so far: colons and a percent sign count from the last `@` or `]`. -/
structure Scan where
  colons : Nat
  percent : Bool
  opened : Bool
  closed : Bool
  atSign : Bool
  deriving DecidableEq, Repr

def Scan.start : Scan := ⟨0, false, false, false, false⟩

def colonLimit : Nat := 8

def Scan.next (s : Scan) (c : Char) : Except UriError Scan :=
  if !isAuthorityChar c then .error .badCharacter
  else if c = ':' then
    if colonLimit ≤ s.colons then .error .badAuthority
    else .ok { s with colons := s.colons + 1, atSign := false }
  else if c = '[' then
    if s.percent || s.opened then .error .badAuthority
    else .ok { s with opened := true, atSign := false }
  else if c = ']' then
    if !s.opened || s.closed then .error .badAuthority
    else .ok { s with closed := true, colons := 0, percent := false, atSign := false }
  else if c = '@' then .ok { s with colons := 0, percent := false, atSign := true }
  else if c = '%' then .ok { s with percent := true, atSign := false }
  else .ok { s with atSign := false }

def Scan.accepted (s : Scan) : Bool :=
  s.opened == s.closed && s.colons ≤ 1 && !s.atSign && !s.percent

def scanAuthority : Scan → List Char → Except UriError Scan
  | scan, [] => .ok scan
  | scan, c :: rest => do scanAuthority (← scan.next c) rest

def splitAuthority (s : List Char) : Except UriError (List Char × List Char) := do
  if s.isEmpty then throw .empty
  let authority := s.takeWhile (!endsAuthority ·)
  let scan ← scanAuthority .start authority
  if scan.accepted then .ok (authority, s.dropWhile (!endsAuthority ·)) else throw .badAuthority

def checkQuery : List Char → Except UriError Unit
  | [] => .ok ()
  | c :: rest =>
      if c = '#' then .ok () else if isQueryChar c then checkQuery rest else .error .badCharacter

def checkPath : List Char → Except UriError Unit
  | [] => .ok ()
  | c :: rest =>
      if c = '?' then checkQuery rest
      else if c = '#' then .ok ()
      else if isPathChar c then checkPath rest
      else .error .badCharacter

def parseAbsolute (s : List Char) : Except UriError Uri := do
  let (scheme, rest) ← splitScheme s
  let (authority, rest) ← splitAuthority rest
  match scheme with
  | none => if rest.isEmpty then .ok ⟨none, authority⟩ else throw .badFormat
  | some scheme =>
      if authority.isEmpty then throw .badFormat
      checkPath rest
      .ok ⟨some scheme, authority⟩

def parseSingle (s : List Char) : Except UriError Uri := do
  if s = ['/'] ∨ s = ['*'] then return ⟨none, []⟩
  let (authority, rest) ← splitAuthority s
  if rest.isEmpty then .ok ⟨none, authority⟩ else throw .badCharacter

def parse (s : List Char) : Except UriError Uri :=
  let width := Text.width s
  if lengthLimit < width then .error .tooLong
  else if width = 0 then .error .empty
  else if width = 1 then parseSingle s
  else if s.head? = some '/' then (checkPath s).map fun _ => ⟨none, []⟩
  else parseAbsolute s

def host (u : Uri) : List Char :=
  let hostPort := (u.authority.reverse.takeWhile (· ≠ '@')).reverse
  if hostPort.head? = some '[' then hostPort.takeWhile (· ≠ ']') ++ [']']
  else hostPort.takeWhile (· ≠ ':')

end Uri

end AccountWatch
