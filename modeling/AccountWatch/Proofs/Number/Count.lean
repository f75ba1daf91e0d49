import AccountWatch.Proofs.Number.Digits
import AccountWatch.Proofs.Text
import Mathlib.Tactic.SplitIfs

/-! Counts given as text. Reading stops at the first digit that passes the bound, and since further digits never make a
number less, a text is a count exactly when it holds digits only and their value is below the bound. What is read is the
text without the blanks around it, and its digits may stand behind a plus. -/
namespace AccountWatch.Numeral

theorem digitSolid {c : Char} (digit : c.isDigit) : Text.isBlank c = false := by
  have range := Char.isDigit_iff_toNat.mp digit
  have low : 48 ≤ c.toNat := range.1
  have high : c.toNat ≤ 57 := range.2
  simp [Text.isBlank]
  omega

def extended (n : Nat) (digits : List Char) : Nat := digits.foldl (fun n c => 10 * n + digit c) n

theorem extendedCons (n : Nat) (c : Char) (rest : List Char) :
    extended n (c :: rest) = extended (10 * n + digit c) rest := List.foldl_cons

theorem extendedGrows (n : Nat) (digits : List Char) : n ≤ extended n digits := by
  induction digits generalizing n with
  | nil => exact Nat.le_refl n
  | cons c rest ih =>
    have further := ih (10 * n + digit c)
    rw [extendedCons]
    omega

theorem countFromIff {n : Nat} (small : n < countBound) {s : List Char} {m : Nat} :
    countFrom n s = some m ↔ (∀ c ∈ s, c.isDigit) ∧ extended n s = m ∧ m < countBound := by
  induction s generalizing n with
  | nil =>
    rw [countFrom, Option.some_inj]
    constructor
    · rintro rfl
      exact ⟨nofun, rfl, small⟩
    · exact fun given => given.2.1
  | cons c rest ih =>
    rw [List.forall_mem_cons, extendedCons, countFrom]
    by_cases fits : c.isDigit ∧ 10 * n + digit c < countBound
    · rw [if_pos fits, ih fits.2]
      exact and_congr_left fun _ => (and_iff_right fits.1).symm
    · rw [if_neg fits]
      constructor
      · exact nofun
      · -- no digit behind makes the number less
        rintro ⟨⟨first, _⟩, rfl, bounded⟩
        exact (fits ⟨first, Nat.lt_of_le_of_lt (extendedGrows _ rest) bounded⟩).elim

theorem countIff {s : List Char} {n : UInt64} : count? s = some n ↔
    withoutPlus s ≠ [] ∧ (∀ c ∈ withoutPlus s, c.isDigit) ∧ value (withoutPlus s) = n.toNat := by
  unfold count?
  generalize withoutPlus s = digits
  by_cases empty : digits = []
  · simp [empty]
  · rw [if_neg (by simpa using empty), Option.map_eq_some_iff]
    constructor
    · rintro ⟨m, given, rfl⟩
      obtain ⟨all, same, small⟩ := (countFromIff (by decide)).mp given
      exact ⟨empty, all, same.trans (UInt64.toNat_ofNat_of_lt small).symm⟩
    · rintro ⟨_, all, same⟩
      exact ⟨n.toNat, (countFromIff (by decide)).mpr ⟨all, same, n.toNat_lt⟩, UInt64.ofNat_toNat⟩

theorem withoutPlusSplit (s : List Char) : ∃ sign, s = sign ++ withoutPlus s ∧ SpellsSign false sign := by
  unfold withoutPlus
  split
  · exact ⟨['+'], rfl, .plus⟩
  · exact ⟨[], rfl, .none⟩

theorem withoutPlusBehind {sign digits : List Char} (signs : SpellsSign false sign)
    (all : ∀ c ∈ digits, c.isDigit) : withoutPlus (sign ++ digits) = digits := by
  cases signs with
  | plus => rfl
  | none =>
    rw [List.nil_append]
    unfold withoutPlus
    split
    · have digit := all '+' List.mem_cons_self
      cases digit
    · rfl

inductive SpellsCount : Nat → List Char → Prop where
  | digits {before sign digits after : List Char} (leading : ∀ c ∈ before, Text.isBlank c)
      (signs : SpellsSign false sign) (nonempty : digits ≠ []) (all : ∀ c ∈ digits, c.isDigit)
      (trailing : ∀ c ∈ after, Text.isBlank c) :
      SpellsCount (Nat.ofDigitChars 10 digits 0) (before ++ (sign ++ digits ++ after))

theorem SpellsCount.padded {before sign after : List Char} (leading : ∀ c ∈ before, Text.isBlank c)
    (signs : SpellsSign false sign) (zeros n : Nat) (trailing : ∀ c ∈ after, Text.isBlank c) :
    SpellsCount n (before ++ (sign ++ (List.replicate zeros '0' ++ Nat.toDigits 10 n) ++ after)) := by
  have all : ∀ c ∈ List.replicate zeros '0' ++ Nat.toDigits 10 n, c.isDigit :=
    List.forall_mem_append.mpr ⟨fun c mem => List.eq_of_mem_replicate mem ▸ rfl, fun _ => digitOfDigits⟩
  have nonempty : List.replicate zeros '0' ++ Nat.toDigits 10 n ≠ [] :=
    List.append_ne_nil_of_right_ne_nil _ Nat.toDigits_ne_nil
  have spelled := SpellsCount.digits leading signs nonempty all trailing
  rwa [Nat.ofDigitChars_append, Nat.ofDigitChars_replicate_zero, Nat.mul_zero, Nat.ofDigitChars_ten_toDigits] at spelled

theorem spellsCountIff {n : Nat} {s : List Char} : SpellsCount n s ↔ withoutPlus (Text.trim s) ≠ [] ∧
    (∀ c ∈ withoutPlus (Text.trim s), c.isDigit) ∧ value (withoutPlus (Text.trim s)) = n := by
  constructor
  · intro spelled
    cases spelled with | @digits before sign digits after leading signs nonempty all trailing
    have solid : ∀ c ∈ sign ++ digits, Text.isBlank c = false := by
      refine List.forall_mem_append.mpr ⟨?_, fun c mem => digitSolid (all c mem)⟩
      cases signs with
      | none => exact nofun
      | plus => exact List.forall_mem_singleton.mpr rfl
    rw [Text.trimBetween leading solid trailing, withoutPlusBehind signs all]
    exact ⟨nonempty, all, rfl⟩
  · rintro ⟨nonempty, all, rfl⟩
    obtain ⟨before, after, split, leading, trailing⟩ := Text.trimSplit s
    obtain ⟨sign, behind, signs⟩ := withoutPlusSplit (Text.trim s)
    rw [behind] at split
    have spelled := SpellsCount.digits leading signs nonempty all trailing
    rwa [← split] at spelled

theorem SpellsCount.unique {m n : Nat} {s : List Char} (left : SpellsCount m s) (right : SpellsCount n s) : m = n :=
  (spellsCountIff.mp left).2.2.symm.trans (spellsCountIff.mp right).2.2

theorem countTrimmed {s : List Char} {n : UInt64} : count? (Text.trim s) = some n ↔ SpellsCount n.toNat s :=
  countIff.trans spellsCountIff.symm

end AccountWatch.Numeral
