import AccountWatch.Json.Value
import AccountWatch.Number.Numeral

/-! Number literals and the numbers they stand for. A plain integer that fits in 64 bits is exact. Any
other literal becomes a double by a rule that does not always give the nearest one: as many leading
digits as fit in 64 bits form a significand, later digits count as places or are dropped, and one
multiplication or division by a power of ten follows. No statement about its error is made here. -/
namespace AccountWatch.Json

structure Exponent where
  negative : Bool
  digits : List Char
  deriving DecidableEq, Repr

structure Literal where
  negative : Bool
  whole : List Char
  fraction : Option (List Char)
  exponent : Option Exponent
  deriving DecidableEq, Repr

namespace Exponent

def value (e : Exponent) : Int :=
  if e.negative then -(Numeral.value e.digits : Int) else Numeral.value e.digits

def digitBound : Nat := 2147483648

def pastBound? : Nat → List Char → Option (List Char)
  | _, [] => none
  | n, c :: rest =>
      let next := 10 * n + Numeral.digit c
      if next < digitBound then pastBound? next rest else some rest

end Exponent

namespace Literal

/-- Extends a significand by digits while it stays below 2⁶⁴; what is left begins with the first digit
that does not fit. -/
def absorb : Nat → List Char → Nat × List Char
  | n, [] => (n, [])
  | n, c :: rest =>
      let next := 10 * n + Numeral.digit c
      if next < Numeral.countBound then absorb next rest else (n, c :: rest)

def significand (l : Literal) : Nat × Int :=
  let (whole, dropped) := absorb 0 l.whole
  let fraction := l.fraction.getD []
  let (digits, unread) := absorb whole fraction
  (digits, dropped.length - (fraction.length - unread.length : Nat))

def divided (units places : Nat) : Nat :=
  open Binary64 in
  if places ≤ largestPower then quotient units (powerOfTen places)
  else if places ≤ 2 * largestPower then
    quotient (quotient units (powerOfTen largestPower)) (powerOfTen (places - largestPower))
  -- two whole steps leave nothing of a 64-bit significand
  else 0

def multiplied (units places : Nat) : Option Nat :=
  if places ≤ Binary64.largestPower then Binary64.times units (Binary64.powerOfTen places)
  else if units = 0 then some 0
  else none

def units? (l : Literal) : Option Nat :=
  let (digits, places) := l.significand
  let start := Binary64.quotient (digits * Binary64.one) Binary64.one
  let power := places + (l.exponent.map Exponent.value).getD 0
  if power < 0 then some (divided start power.natAbs) else multiplied start power.natAbs

def integer? (l : Literal) : Option Integer :=
  if l.fraction.isNone && l.exponent.isNone then
    let n := Numeral.value l.whole
    if l.negative then (if n = 0 then none else Integer.ofInt? (-n)) else Integer.ofInt? n
  else none

def number? (l : Literal) : Option Number :=
  match l.integer? with
  | some i => some (.integer i)
  | none => l.units?.map (.real l.negative)

end Literal
end AccountWatch.Json
