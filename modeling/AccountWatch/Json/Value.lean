import AccountWatch.Number.Binary64

/-! Documents. An integer fits in 64 bits, signed or unsigned; every other number is a finite double.
The members of an object are an association list: `insert` keeps keys ascending by code point, a
repeated key replacing the earlier value. Payloads that are only printed keep their own order. -/
namespace AccountWatch.Json

structure Integer where
  val : Int
  lower : -9223372036854775808 ≤ val
  upper : val < 18446744073709551616
  deriving DecidableEq, Repr

namespace Integer

def ofInt? (i : Int) : Option Integer :=
  if h : -9223372036854775808 ≤ i ∧ i < 18446744073709551616 then some ⟨i, h.1, h.2⟩ else none

def ofCount (n : UInt64) : Integer :=
  ⟨n.toNat, by omega, by have := n.toNat_lt; omega⟩

def count? (i : Integer) : Option UInt64 :=
  if 0 ≤ i.val then some (UInt64.ofNat i.val.toNat) else none

theorem countOfCount (n : UInt64) : (ofCount n).count? = some n := by
  simp [count?, ofCount]

end Integer

inductive Number where
  | integer (value : Integer)
  | real (negative : Bool) (units : Nat)
  deriving DecidableEq, Repr

namespace Number

def count? : Number → Option UInt64
  | .integer i => i.count?
  | .real _ _ => none

def binary64 : Number → Binary64
  | .integer i => .ofInt i.val
  | .real negative units => .finite negative units

end Number

inductive Value where
  | null
  | boolean (b : Bool)
  | number (n : Number)
  | string (s : String)
  | array (items : List Value)
  | object (members : List (String × Value))
  deriving Repr

mutual

def Value.decEq : (a b : Value) → Decidable (a = b)
  | .null, b => match b with
      | .null => isTrue rfl
      | .boolean _ | .number _ | .string _ | .array _ | .object _ => isFalse nofun
  | .boolean x, b => match b with
      | .boolean y => decidable_of_iff (x = y) (by simp)
      | .null | .number _ | .string _ | .array _ | .object _ => isFalse nofun
  | .number x, b => match b with
      | .number y => decidable_of_iff (x = y) (by simp)
      | .null | .boolean _ | .string _ | .array _ | .object _ => isFalse nofun
  | .string x, b => match b with
      | .string y => decidable_of_iff (x = y) (by simp)
      | .null | .boolean _ | .number _ | .array _ | .object _ => isFalse nofun
  | .array xs, b => match b with
      | .array ys =>
          have := itemsDecEq xs ys
          decidable_of_iff (xs = ys) (by simp)
      | .null | .boolean _ | .number _ | .string _ | .object _ => isFalse nofun
  | .object xs, b => match b with
      | .object ys =>
          have := membersDecEq xs ys
          decidable_of_iff (xs = ys) (by simp)
      | .null | .boolean _ | .number _ | .string _ | .array _ => isFalse nofun

def itemsDecEq : (xs ys : List Value) → Decidable (xs = ys)
  | [], [] => isTrue rfl
  | [], _ :: _ => isFalse nofun
  | _ :: _, [] => isFalse nofun
  | x :: xs, y :: ys =>
      have := x.decEq y
      have := itemsDecEq xs ys
      decidable_of_iff (x = y ∧ xs = ys) (by simp)

def membersDecEq : (xs ys : List (String × Value)) → Decidable (xs = ys)
  | [], [] => isTrue rfl
  | [], _ :: _ => isFalse nofun
  | _ :: _, [] => isFalse nofun
  | (k, x) :: xs, (l, y) :: ys =>
      have := x.decEq y
      have := membersDecEq xs ys
      decidable_of_iff (k = l ∧ x = y ∧ xs = ys) (by simp [and_assoc])

end

instance : DecidableEq Value := Value.decEq

abbrev Members := List (String × Value)

namespace Members

def insert (key : String) (value : Value) : Members → Members
  | [] => [(key, value)]
  | (k, v) :: rest =>
      if key < k then (key, value) :: (k, v) :: rest
      else if key = k then (key, value) :: rest
      else (k, v) :: insert key value rest

def ofList (members : Members) : Members :=
  members.foldl (fun doc (key, value) => insert key value doc) []

end Members

namespace Value

def kindName : Value → String
  | .null => "null"
  | .boolean _ => "boolean"
  | .number _ => "number"
  | .string _ => "string"
  | .array _ => "array"
  | .object _ => "object"

def count (n : UInt64) : Value := .number (.integer (.ofCount n))

def optional (write : α → Value) : Option α → Value
  | none => .null
  | some a => write a

end Value
end AccountWatch.Json
