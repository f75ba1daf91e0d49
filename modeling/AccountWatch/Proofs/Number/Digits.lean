import AccountWatch.Number.Numeral

/-! What a numeral is put together from: the decimal digits of a natural number, whose value is the number and which
begin with a zero only if it is zero, and the sign in front of digits. -/
namespace AccountWatch.Numeral

theorem valueDigits (n : Nat) : value (Nat.toDigits 10 n) = n :=
  Nat.ofDigitChars_toDigits (by decide) (by decide)

theorem digitOfDigits {n : Nat} {c : Char} (mem : c ∈ Nat.toDigits 10 n) : c.isDigit :=
  Nat.isDigit_of_mem_toDigits (by decide) (by decide) mem

theorem digitsHead (n : Nat) : ∃ c rest, Nat.toDigits 10 n = c :: rest ∧ c.isDigit := by
  obtain ⟨c, rest, digits⟩ := List.exists_cons_of_ne_nil (Nat.toDigits_ne_nil (b := 10) (n := n))
  exact ⟨c, rest, digits, digitOfDigits (digits ▸ List.mem_cons_self)⟩

theorem digitsLead {n : Nat} (positive : 0 < n) {c : Char} {rest : List Char}
    (digits : Nat.toDigits 10 n = c :: rest) : c ≠ '0' := by
  induction n using Nat.strongRecOn generalizing c rest with
  | ind n ih =>
    rcases Nat.lt_or_ge n 10 with small | large
    · rw [Nat.toDigits_of_lt_base small] at digits
      cases digits
      simpa using Nat.ne_of_gt positive
    · obtain ⟨d, more, leads, _⟩ := digitsHead (n / 10)
      rw [Nat.toDigits_of_base_le (by decide) large, leads] at digits
      obtain rfl : d = c := (List.cons.inj digits).1
      exact ih (n / 10) (by omega) (by omega) leads

inductive SpellsSign : Bool → List Char → Prop where
  | none : SpellsSign false []
  | plus : SpellsSign false ['+']
  | minus : SpellsSign true ['-']

def Unsigned : List Char → Prop
  | [] => True
  | c :: _ => c ≠ '-' ∧ c ≠ '+'

theorem signedSpells (s : List Char) : ∃ sign, s = sign ++ (signed s).2 ∧ SpellsSign (signed s).1 sign := by
  unfold signed
  split
  · exact ⟨['-'], rfl, .minus⟩
  · exact ⟨['+'], rfl, .plus⟩
  · exact ⟨[], rfl, .none⟩

theorem signedBehind {negative : Bool} {sign body : List Char} (spelled : SpellsSign negative sign)
    (unsigned : Unsigned body) : signed (sign ++ body) = (negative, body) := by
  cases spelled with
  | plus | minus => rfl
  | none =>
    cases body with
    | nil => rfl
    | cons c rest =>
      unfold signed
      split
      · rename_i same
        exact (unsigned.1 (List.cons.inj same).1).elim
      · rename_i same
        exact (unsigned.2 (List.cons.inj same).1).elim
      · rfl

theorem digitUnsigned {c : Char} (digit : c.isDigit) (more : List Char) : Unsigned (c :: more) := by
  constructor <;> rintro rfl <;> cases digit

end AccountWatch.Numeral
