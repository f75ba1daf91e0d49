import AccountWatch.Number.Binary64

/-! The text of a finite double. `shortest` takes the coarsest decimal grid that has a point inside the
interval of reals rounding to the number, and on it the nearer of the two neighbours; a coarser grid
means fewer digits. `text` lays the digits out. Reading the text back is not treated here. -/
namespace AccountWatch.Binary64

/-- Four times the distance from a number to the ends of its rounding interval, in units. Below a power
of two the neighbour is nearer. -/
def halfGaps (units : Nat) : Nat × Nat :=
  let gap := Nat.pow 2 (lastPlace units)
  (if 0 < lastPlace units ∧ units = Nat.pow 2 units.log2 then gap else 2 * gap, 2 * gap)

def readsBack (units : Nat) (point : Nat) (exponent : Int) : Bool :=
  let (below, above) := halfGaps units
  let scale := Nat.pow 10 (-exponent).toNat
  let value := 4 * point * Nat.pow 10 exponent.toNat * one
  let low := (4 * units - below) * scale
  let high := (4 * units + above) * scale
  -- the ends belong to an even mantissa
  if (units / Nat.pow 2 (lastPlace units)) % 2 = 0 then low ≤ value && value ≤ high
  else low < value && value < high

def onGrid? (units : Nat) (exponent : Int) : Option Nat :=
  let num := units * Nat.pow 10 (-exponent).toNat
  let den := one * Nat.pow 10 exponent.toNat
  let low := num / den
  match readsBack units low exponent, readsBack units (low + 1) exponent with
  | true, true => some (nearest num den)
  | true, false => some low
  | false, true => some (low + 1)
  | false, false => none

def coarsest (units : Nat) : Nat → Int → Nat × Int
  | 0, exponent => (units * Nat.pow 10 (-exponent).toNat / (one * Nat.pow 10 exponent.toNat), exponent)
  | fuel + 1, exponent =>
      match onGrid? units exponent with
      | some point => (point, exponent)
      | none => coarsest units fuel (exponent - 1)

/-- A grid at least as coarse as the number is large: 0.30103 exceeds the logarithm of two. -/
def coarseStart (units : Nat) : Int :=
  ((units.log2 : Int) - 1073) * 30103 / 100000 + 1

-- twenty grids reach seventeen digits, which always read back
def shortest (units : Nat) : Nat × Int := coarsest units 20 (coarseStart units)

def zeros (n : Nat) : List Char := List.replicate n '0'

def layout (digits : List Char) (exponent : Int) : List Char :=
  let first := exponent + digits.length - 1
  if -5 ≤ first ∧ first < 16 then
    if 0 ≤ exponent then digits ++ zeros exponent.toNat ++ ['.', '0']
    else if 0 ≤ first then
      digits.take (first.toNat + 1) ++ '.' :: digits.drop (first.toNat + 1)
    else '0' :: '.' :: zeros (-first - 1).toNat ++ digits
  else
    let fraction := digits.drop 1
    digits.take 1 ++ (if fraction.isEmpty then [] else '.' :: fraction) ++
      'e' :: (if first < 0 then '-' else '+') :: Nat.toDigits 10 first.natAbs

def unsignedText (units : Nat) : List Char :=
  if units = 0 then ['0', '.', '0']
  else
    let (point, exponent) := shortest units
    layout (Nat.toDigits 10 point) exponent

def signedText (negative : Bool) (units : Nat) : List Char :=
  if negative then '-' :: unsignedText units else unsignedText units

end AccountWatch.Binary64
