/-! Double-precision numbers as exact data. A finite number is a sign and a count of units, one unit
being the least positive number 2⁻¹⁰⁷⁴, so every operation is a rounding of an exact quotient of
natural numbers. The invariant "at most 53 significant bits" is kept by `round`, not by the type. -/
namespace AccountWatch

inductive Binary64 where
  | nan
  | infinite (negative : Bool)
  | finite (negative : Bool) (units : Nat)
  deriving DecidableEq, Repr

namespace Binary64

def one : Nat := Nat.pow 2 1074

def limit : Nat := Nat.pow 2 2098

/-- The place of the last of 53 significant bits; below 2⁻¹⁰²² it stays the unit. -/
def lastPlace (units : Nat) : Nat := units.log2 - 52

def nearest (num den : Nat) : Nat :=
  let low := num / den
  let excess := 2 * (num % den)
  if excess < den ∨ (excess = den ∧ low % 2 = 0) then low else low + 1

def round (num den : Nat) : Option Nat :=
  let scaled := num * one
  let place := Nat.pow 2 (lastPlace (scaled / den))
  let units := nearest scaled (den * place) * place
  if units < limit then some units else none

def times (x y : Nat) : Option Nat := round (x * y) (one * one)

def quotient (x y : Nat) : Nat := (round x y).getD 0

def powerOfTen (k : Nat) : Nat := (round (Nat.pow 10 k) 1).getD 0

def largestPower : Nat := 308

def ofInt (i : Int) : Binary64 :=
  match round i.natAbs 1 with
  | some units => .finite (i < 0) units
  | none => .infinite (i < 0)

def ofDecimal (negative : Bool) (digits : Nat) (exponent : Int) : Binary64 :=
  -- all digits above the range of doubles, or all below it: no power has to be computed
  let magnitude := exponent + (Nat.toDigits 10 digits).length
  if digits = 0 ∨ magnitude < -330 then .finite negative 0
  else if magnitude > 310 then .infinite negative
  else match round (digits * Nat.pow 10 exponent.toNat) (Nat.pow 10 (-exponent).toNat) with
    | some units => .finite negative units
    | none => .infinite negative

end Binary64
end AccountWatch
