import AccountWatch.Number.Binary64

/-! Numbers given as plain text. A count is an optional plus sign and digits whose value stays below 2⁶⁴;
the digits are taken one by one and the reading stops at the first that passes the bound. A real is a
decimal with optional point and exponent, or one of the words for infinity and not-a-number, and is
rounded correctly. Surrounding white space belongs to the callers. -/
namespace AccountWatch.Numeral

def digit (c : Char) : Nat := c.toNat - '0'.toNat

def value (digits : List Char) : Nat :=
  digits.foldl (fun n c => 10 * n + digit c) 0

def countBound : Nat := 18446744073709551616

def countFrom : Nat → List Char → Option Nat
  | n, [] => some n
  | n, c :: rest =>
      let next := 10 * n + digit c
      if c.isDigit ∧ next < countBound then countFrom next rest else none

def withoutPlus : List Char → List Char
  | '+' :: rest => rest
  | s => s

def count? (s : List Char) : Option UInt64 :=
  let digits := withoutPlus s
  if digits.isEmpty then none else (countFrom 0 digits).map UInt64.ofNat

def signed : List Char → Bool × List Char
  | '-' :: rest => (true, rest)
  | '+' :: rest => (false, rest)
  | s => (false, s)

def exponent? : List Char → Option Int
  | [] => some 0
  | mark :: rest =>
      let (negative, digits) := signed rest
      if (mark = 'e' ∨ mark = 'E') ∧ digits ≠ [] ∧ digits.all Char.isDigit then
        some (if negative then -(value digits : Int) else value digits)
      else none

def decimal? (negative : Bool) (s : List Char) : Option Binary64 := do
  let whole := s.takeWhile Char.isDigit
  let behind := s.dropWhile Char.isDigit
  let (fraction, tail) := match behind with
    | '.' :: rest => (rest.takeWhile Char.isDigit, rest.dropWhile Char.isDigit)
    | rest => ([], rest)
  if whole.isEmpty && fraction.isEmpty then none
  else
    let exponent ← exponent? tail
    some (Binary64.ofDecimal negative (value (whole ++ fraction)) (exponent - fraction.length))

def real? (s : List Char) : Option Binary64 :=
  let (negative, body) := signed s
  let word := body.map Char.toLower
  if word = "inf".toList ∨ word = "infinity".toList then some (.infinite negative)
  else if word = "nan".toList then some .nan
  else decimal? negative body

end AccountWatch.Numeral
