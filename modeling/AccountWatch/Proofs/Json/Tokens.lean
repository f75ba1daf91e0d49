import AccountWatch.Proofs.Json.Reading
import AccountWatch.Proofs.Number.Digits
import AccountWatch.Proofs.Text

/-! Numbers and texts as tokens. A reader takes the front of what it is given, and takes the same from any text that
has this front and does not go on with a number. -/
namespace AccountWatch.Json

def Breaks : List Char → Prop
  | [] => True
  | c :: _ => c.isDigit = false

def Points : List Char → Prop
  | [] => True
  | c :: _ => c.isDigit = false ∧ c ≠ '.'

def Stops : List Char → Prop
  | [] => True
  | c :: _ => c.isDigit = false ∧ c ≠ '.' ∧ c ≠ 'e' ∧ c ≠ 'E'

theorem Points.breaks {s : List Char} (points : Points s) : Breaks s := by
  cases s with
  | nil => trivial
  | cons c s => exact points.1

theorem Stops.points {s : List Char} (stops : Stops s) : Points s := by
  cases s with
  | nil => trivial
  | cons c s => exact ⟨stops.1, stops.2.1⟩

theorem takeDigits {digits tail : List Char} (all : ∀ c ∈ digits, c.isDigit) (breaks : Breaks tail) :
    (digits ++ tail).takeWhile Char.isDigit = digits ∧ (digits ++ tail).dropWhile Char.isDigit = tail := by
  refine Text.takeRun all fun c first => ?_
  cases tail with
  | nil => cases first
  | cons d tail => exact Option.some.inj first ▸ breaks

theorem readDigitsTakes {s digits rest : List Char} (read : readDigits s = .ok (digits, rest)) :
    s = digits ++ rest ∧ (∃ c more, digits = c :: more ∧ c.isDigit) ∧
      ∀ tail, Breaks tail → readDigits (digits ++ tail) = .ok (digits, tail) := by
  unfold readDigits at read
  split at read
  · cases read
  · rename_i c more
    split_ifs at read with digit
    obtain ⟨rfl, rfl⟩ := Prod.mk.inj (Except.ok.inj read)
    have all : ∀ d ∈ (c :: more).takeWhile Char.isDigit, d.isDigit := fun d => List.mem_takeWhile_imp
    have split := List.takeWhile_append_dropWhile (p := Char.isDigit) (l := c :: more)
    rw [List.takeWhile_cons_of_pos digit] at all split ⊢
    refine ⟨split.symm, ⟨c, _, rfl, digit⟩, fun tail breaks => ?_⟩
    obtain ⟨taken, left⟩ := takeDigits all breaks
    rw [List.cons_append] at taken left ⊢
    unfold readDigits
    dsimp only
    rw [if_pos digit, taken, left]

theorem readWholeTakes {s digits rest : List Char} (read : readWhole s = .ok (digits, rest)) :
    s = digits ++ rest ∧ ∀ tail, Breaks tail → readWhole (digits ++ tail) = .ok (digits, tail) := by
  unfold readWhole at read
  split at read
  · rename_i more
    have alone : digits = ['0'] ∧ rest = more := by
      split at read
      · cases read; exact ⟨rfl, rfl⟩
      · split_ifs at read
        cases read; exact ⟨rfl, rfl⟩
    obtain ⟨rfl, rfl⟩ := alone
    refine ⟨rfl, fun tail breaks => ?_⟩
    cases tail with
    | nil => rfl
    | cons c tail => exact if_neg (by simp [show c.isDigit = false from breaks])
  · rename_i other
    obtain ⟨rfl, ⟨c, digits, rfl, _⟩, takes⟩ := readDigitsTakes read
    refine ⟨rfl, fun tail breaks => ?_⟩
    unfold readWhole
    split
    · rename_i zero
      obtain rfl := (List.cons.inj zero).1
      exact (other _ rfl).elim
    · exact takes tail breaks

theorem readFractionTakes {s rest : List Char} {fraction : Option (List Char)}
    (read : readFraction s = .ok (fraction, rest)) :
    ∃ text, s = text ++ rest ∧ ∀ tail, Points tail →
      readFraction (text ++ tail) = .ok (fraction, tail) ∧ Breaks (text ++ tail) := by
  unfold readFraction at read
  split at read
  · rename_i more
    obtain ⟨⟨digits, after⟩, digitsRead, same⟩ := mapReads read
    obtain ⟨rfl, rfl⟩ := Prod.mk.inj same
    obtain ⟨rfl, _, takes⟩ := readDigitsTakes digitsRead
    refine ⟨'.' :: digits, rfl, fun tail points => ⟨?_, show Char.isDigit '.' = false by decide⟩⟩
    change (readDigits (digits ++ tail)).map _ = _
    rw [takes tail points.breaks]
    rfl
  · cases read
    refine ⟨[], rfl, fun tail points => ⟨?_, points.breaks⟩⟩
    cases tail with
    | nil => rfl
    | cons c tail =>
      unfold readFraction
      split
      · rename_i same
        exact (points.2 (List.cons.inj same).1).elim
      · rfl

theorem signedTakes (s : List Char) : ∃ sign, s = sign ++ (Numeral.signed s).2 ∧
    ∀ c more, c.isDigit → Numeral.signed (sign ++ c :: more) = ((Numeral.signed s).1, c :: more) := by
  obtain ⟨sign, split, spelled⟩ := Numeral.signedSpells s
  exact ⟨sign, split, fun c more digit => Numeral.signedBehind spelled (Numeral.digitUnsigned digit more)⟩

theorem readExponentTakes {s rest : List Char} {exponent : Option Exponent}
    (read : readExponent s = .ok (exponent, rest)) :
    ∃ text, s = text ++ rest ∧ ∀ tail, Stops tail →
      readExponent (text ++ tail) = .ok (exponent, tail) ∧ Points (text ++ tail) := by
  have none {tail : List Char} (stops : Stops tail) : readExponent tail = .ok (none, tail) := by
    cases tail with
    | nil => rfl
    | cons c tail => exact if_neg (not_or.mpr stops.2.2)
  unfold readExponent at read
  split at read
  · cases read
    exact ⟨[], rfl, fun tail stops => ⟨none stops, stops.points⟩⟩
  · rename_i c more
    split_ifs at read with mark
    · obtain ⟨sign, split, signed⟩ := signedTakes more
      generalize Numeral.signed more = parts at read split signed
      obtain ⟨negative, body⟩ := parts
      dsimp only at read split signed
      obtain ⟨⟨digits, after⟩, digitsRead, same⟩ := mapReads read
      obtain ⟨rfl, rfl⟩ := Prod.mk.inj same
      obtain ⟨rfl, ⟨d, ds, rfl, digit⟩, takes⟩ := readDigitsTakes digitsRead
      refine ⟨c :: (sign ++ d :: ds), by simp [split], fun tail stops => ⟨?_, ?_⟩⟩
      · have again : Numeral.signed (sign ++ (d :: ds) ++ tail) = (negative, d :: ds ++ tail) := by
          rw [List.append_assoc]
          exact signed d (ds ++ tail) digit
        rw [List.cons_append]
        unfold readExponent
        dsimp only
        rw [if_pos mark, again]
        dsimp only
        rw [takes tail stops.points.breaks]
        rfl
      · rcases mark with rfl | rfl
        · exact ⟨by decide, by decide⟩
        · exact ⟨by decide, by decide⟩
    · cases read
      exact ⟨[], rfl, fun tail stops => ⟨none stops, stops.points⟩⟩

theorem readLiteralTakes {negative : Bool} {s rest : List Char} {l : Literal}
    (read : readLiteral negative s = .ok (l, rest)) :
    ∃ text, s = text ++ rest ∧ ∀ tail, Stops tail → readLiteral negative (text ++ tail) = .ok (l, tail) := by
  unfold readLiteral at read
  obtain ⟨⟨whole, behind⟩, wholeRead, read⟩ := bindReads read
  obtain ⟨⟨fraction, after⟩, fractionRead, read⟩ := bindReads read
  obtain ⟨⟨exponent, last⟩, exponentRead, read⟩ := bindReads read
  obtain ⟨rfl, rfl⟩ := Prod.mk.inj (Except.ok.inj read)
  obtain ⟨rfl, takesWhole⟩ := readWholeTakes wholeRead
  obtain ⟨middle, rfl, takesFraction⟩ := readFractionTakes fractionRead
  obtain ⟨power, rfl, takesExponent⟩ := readExponentTakes exponentRead
  refine ⟨whole ++ (middle ++ power), by simp, fun tail stops => ?_⟩
  obtain ⟨exponentAgain, points⟩ := takesExponent tail stops
  obtain ⟨fractionAgain, breaks⟩ := takesFraction (power ++ tail) points
  rw [List.append_assoc, List.append_assoc]
  unfold readLiteral
  rw [takesWhole _ breaks]
  dsimp only [bind, Except.bind]
  rw [fractionAgain]
  dsimp only
  rw [exponentAgain]

theorem readNumberTakes {negative : Bool} {s rest : List Char} {v : Value}
    (read : readNumber negative s = .ok (v, rest)) :
    ∃ text, s = text ++ rest ∧ ∀ tail, Stops tail → readNumber negative (text ++ tail) = .ok (v, tail) := by
  unfold readNumber at read
  obtain ⟨⟨l, after⟩, literal, read⟩ := bindReads read
  dsimp only at read
  split at read
  · rename_i n known
    obtain ⟨rfl, rfl⟩ := Prod.mk.inj (Except.ok.inj read)
    obtain ⟨text, rfl, takes⟩ := readLiteralTakes literal
    refine ⟨text, rfl, fun tail stops => ?_⟩
    unfold readNumber
    rw [takes tail stops]
    dsimp only [bind, Except.bind]
    rw [known]
  · cases read

theorem numberToken {negative : Bool} {s rest : List Char} {v : Value}
    (read : readNumber negative s = .ok (v, rest)) :
    ∃ n text, v = .number n ∧ s = text ++ rest ∧ readNumber negative text = .ok (.number n, []) := by
  obtain ⟨text, rfl, takes⟩ := readNumberTakes read
  have token := takes [] trivial
  rw [List.append_nil] at token
  obtain ⟨⟨l, tail⟩, _, made⟩ := bindReads token
  dsimp only at made
  split at made
  · rename_i n _
    cases made
    exact ⟨n, text, rfl, rfl, token⟩
  · cases made

theorem readStringStep {done s chars rest : List Char} (read : readString done s = .ok (chars, rest)) :
    (s = '"' :: rest ∧ chars = done.reverse) ∨
      ∃ front more behind, front ≠ [] ∧ s = front ++ behind ∧
        (∀ tail, readString done (front ++ tail) = readString more tail) ∧
        readString more behind = .ok (chars, rest) := by
  have unfolds := fun s => readString.eq_def done s
  rw [unfolds] at read
  split at read
  · cases read
  rename_i c tail
  split at read
  case isTrue quote =>
    cases read
    exact .inl ⟨by rw [quote], rfl⟩
  rename_i quote
  refine .inr ?_
  split at read
  case isFalse backslash =>
    split at read
    case isTrue => cases read
    rename_i control
    exact ⟨[c], c :: done, tail, List.cons_ne_nil _ _, rfl,
      fun tail => by simp [unfolds, quote, backslash, control], read⟩
  rename_i backslash
  subst backslash
  split at read
  · cases read
  rename_i e tail
  split at read
  · rename_i plain known
    exact ⟨['\\', e], plain :: done, tail, List.cons_ne_nil _ _, rfl, fun tail => by simp [unfolds, known], read⟩
  rename_i none
  split at read
  case isTrue => cases read
  rename_i unicode
  obtain rfl := not_not.mp unicode
  split at read
  case h_2 => cases read
  rename_i p q r s behind
  split at read
  · cases read
  rename_i unit quad
  split at read
  case isTrue => cases read
  rename_i low
  split at read
  case isFalse high =>
    exact ⟨['\\', 'u', p, q, r, s], Char.ofNat unit :: done, behind, List.cons_ne_nil _ _, rfl,
      fun tail => by simp [unfolds, none, quad, low, high], read⟩
  rename_i high
  split at read
  case h_2 => cases read
  rename_i p' q' r' s' behind
  split at read
  · cases read
  rename_i unit' quad'
  split at read
  case isFalse => cases read
  rename_i low'
  exact ⟨['\\', 'u', p, q, r, s, '\\', 'u', p', q', r', s'], paired unit unit' :: done, behind, List.cons_ne_nil _ _,
    rfl, fun tail => by simp [unfolds, none, quad, low, high, quad', low'], read⟩

theorem readStringTakes {done s chars rest : List Char} (read : readString done s = .ok (chars, rest)) :
    ∃ text, s = text ++ rest ∧ ∀ tail, readString done (text ++ tail) = .ok (chars, tail) := by
  obtain ⟨n, length⟩ : ∃ n, s.length = n := ⟨_, rfl⟩
  induction n using Nat.strongRecOn generalizing done s with
  | ind n ih =>
    obtain ⟨rfl, rfl⟩ | ⟨front, more, behind, nonempty, rfl, step, read⟩ := readStringStep read
    · exact ⟨['"'], rfl, fun tail => by rw [List.singleton_append, readString.eq_def]; rfl⟩
    · have shorter : behind.length < n := by
        have := List.length_pos_iff.mpr nonempty
        simp only [List.length_append] at length
        omega
      obtain ⟨text, rfl, takes⟩ := ih _ shorter read rfl
      refine ⟨front ++ text, (List.append_assoc _ _ _).symm, fun tail => ?_⟩
      rw [List.append_assoc, step, takes]

theorem readTextTakes {s rest : List Char} {text : String} (read : readText s = .ok (text, rest)) :
    ∃ used, s = used ++ rest ∧ ∀ tail, readText (used ++ tail) = .ok (text, tail) := by
  obtain ⟨⟨chars, after⟩, given, same⟩ := mapReads read
  obtain ⟨rfl, rfl⟩ := Prod.mk.inj same
  obtain ⟨used, rfl, takes⟩ := readStringTakes given
  refine ⟨used, rfl, fun tail => ?_⟩
  unfold readText
  rw [takes tail]
  rfl

theorem textToken {s rest : List Char} {text : String} (read : readText s = .ok (text, rest)) :
    ∃ used, s = used ++ rest ∧ readText used = .ok (text, []) := by
  obtain ⟨used, rfl, takes⟩ := readTextTakes read
  exact ⟨used, rfl, by simpa using takes []⟩

end AccountWatch.Json
