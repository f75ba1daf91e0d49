import AccountWatch.Proofs.Json.Tokens
import AccountWatch.Proofs.Number.Overflow

/-! Reals given as text. Behind an optional sign stands a decimal or one of three words, in any case of letters. A
decimal is a finite number while its magnitude is in range, whatever its length, and infinite from there on; so a
text can be a real and yet no number. -/
namespace AccountWatch.Numeral

open Json (Breaks Points takeDigits)

def Signed (Body : List Char → Prop) (negative : Bool) (s : List Char) : Prop :=
  ∃ sign body, s = sign ++ body ∧ SpellsSign negative sign ∧ Body body

theorem signedIff {Body : List Char → Prop} (unsigned : ∀ body, Body body → Unsigned body) {negative : Bool}
    {s : List Char} : Signed Body negative s ↔ (signed s).1 = negative ∧ Body (signed s).2 := by
  constructor
  · rintro ⟨sign, body, rfl, spelled, given⟩
    rw [signedBehind spelled (unsigned body given)]
    exact ⟨rfl, given⟩
  · rintro ⟨rfl, given⟩
    obtain ⟨sign, split, spelled⟩ := signedSpells s
    exact ⟨sign, _, split, spelled, given⟩

def Digits (s : List Char) : Prop := ∀ c ∈ s, c.isDigit

theorem Digits.unsigned {s : List Char} (all : Digits s) : Unsigned s := by
  cases s with
  | nil => trivial
  | cons c rest => exact digitUnsigned (all c List.mem_cons_self) rest

inductive SpellsPower : Int → List Char → Prop where
  | none : SpellsPower 0 []
  | power {mark : Char} {negative : Bool} {sign digits : List Char} (marks : mark = 'e' ∨ mark = 'E')
      (signs : SpellsSign negative sign) (nonempty : digits ≠ []) (all : Digits digits) :
      SpellsPower (if negative then -(value digits : Int) else value digits) (mark :: (sign ++ digits))

inductive SpellsDecimal : Nat → Int → List Char → Prop where
  | plain {whole tail : List Char} {exponent : Int} (nonempty : whole ≠ []) (all : Digits whole)
      (power : SpellsPower exponent tail) : SpellsDecimal (value whole) exponent (whole ++ tail)
  | pointed {whole fraction tail : List Char} {exponent : Int} (nonempty : whole ++ fraction ≠ [])
      (all : Digits (whole ++ fraction)) (power : SpellsPower exponent tail) :
      SpellsDecimal (value (whole ++ fraction)) (exponent - fraction.length) (whole ++ '.' :: (fraction ++ tail))

theorem takenDigits (s : List Char) : Digits (s.takeWhile Char.isDigit) := fun _ => List.mem_takeWhile_imp

theorem powerIff {exponent : Int} {s : List Char} : exponent? s = some exponent ↔ SpellsPower exponent s := by
  constructor
  · intro read
    cases s with
    | nil =>
      obtain rfl : (0 : Int) = exponent := Option.some.inj read
      exact .none
    | cons mark rest =>
      obtain ⟨sign, split, signs⟩ := signedSpells rest
      unfold exponent? at read
      dsimp only at read
      obtain ⟨⟨marks, nonempty, all⟩, made⟩ := Option.ite_none_right_eq_some.mp read
      have spelled := SpellsPower.power marks signs nonempty (List.all_eq_true.mp all)
      rwa [← split, Option.some.inj made] at spelled
  · intro spelled
    cases spelled with
    | none => rfl
    | power marks signs nonempty all =>
      unfold exponent?
      dsimp only
      rw [signedBehind signs all.unsigned]
      exact if_pos ⟨marks, nonempty, List.all_eq_true.mpr all⟩

theorem SpellsPower.points {exponent : Int} {s : List Char} (power : SpellsPower exponent s) : Points s := by
  cases power with
  | none => trivial
  | power marks => rcases marks with rfl | rfl <;> exact ⟨by decide, by decide⟩

theorem leftBreaks (s : List Char) : Breaks (s.dropWhile Char.isDigit) := by
  have stops := Text.runStops Char.isDigit s
  cases left : s.dropWhile Char.isDigit with
  | nil => trivial
  | cons c rest => exact stops c (left ▸ rfl)

theorem decimalShapes (s : List Char) : (∃ whole tail, s = whole ++ tail ∧ Digits whole ∧ Points tail) ∨
    ∃ whole fraction tail, s = whole ++ '.' :: (fraction ++ tail) ∧ Digits (whole ++ fraction) ∧ Breaks tail := by
  have split := Text.splitRun Char.isDigit s
  have breaks := leftBreaks s
  have all := takenDigits s
  generalize s.takeWhile Char.isDigit = whole at split all
  generalize s.dropWhile Char.isDigit = behind at split breaks
  subst split
  rcases behind with _ | ⟨c, rest⟩
  · exact .inl ⟨whole, [], rfl, all, trivial⟩
  · by_cases point : c = '.'
    · subst point
      have further := congrArg (fun rest => whole ++ '.' :: rest) (Text.splitRun Char.isDigit rest)
      exact .inr ⟨whole, _, _, further, List.forall_mem_append.mpr ⟨all, takenDigits rest⟩, leftBreaks rest⟩
    · exact .inl ⟨whole, c :: rest, rfl, all, breaks, point⟩

def pointDigits : List Char → List Char × List Char
  | '.' :: rest => (rest.takeWhile Char.isDigit, rest.dropWhile Char.isDigit)
  | rest => ([], rest)

theorem decimalParts {negative : Bool} {s whole fraction tail : List Char} (taken : s.takeWhile Char.isDigit = whole)
    (parts : pointDigits (s.dropWhile Char.isDigit) = (fraction, tail)) : decimal? negative s =
      if whole ++ fraction = [] then none else (exponent? tail).map fun exponent =>
        Binary64.ofDecimal negative (value (whole ++ fraction)) (exponent - fraction.length) := by
  have unfolds : decimal? negative s =
      let whole := s.takeWhile Char.isDigit
      let behind := pointDigits (s.dropWhile Char.isDigit)
      if whole.isEmpty && behind.1.isEmpty then none else (exponent? behind.2).bind fun exponent =>
        some (Binary64.ofDecimal negative (value (whole ++ behind.1)) (exponent - behind.1.length)) := rfl
  rw [unfolds, taken, parts]
  simp only [Bool.and_eq_true, List.isEmpty_iff, ← List.append_eq_nil_iff, Option.map_eq_bind, Function.comp_def]

theorem decimalPlain {negative : Bool} {whole tail : List Char} (all : Digits whole) (points : Points tail) :
    decimal? negative (whole ++ tail) = if whole = [] then none else
      (exponent? tail).map (Binary64.ofDecimal negative (value whole)) := by
  obtain ⟨taken, left⟩ := takeDigits all points.breaks
  have parts : pointDigits tail = ([], tail) := by
    unfold pointDigits
    split
    · exact (points.2 rfl).elim
    · rfl
  rw [decimalParts taken ((congrArg pointDigits left).trans parts), List.append_nil]
  simp only [List.length_nil, Nat.cast_zero, sub_zero]

theorem decimalPointed {negative : Bool} {whole fraction tail : List Char} (all : Digits (whole ++ fraction))
    (breaks : Breaks tail) : decimal? negative (whole ++ '.' :: (fraction ++ tail)) =
      if whole ++ fraction = [] then none else (exponent? tail).map fun exponent =>
        Binary64.ofDecimal negative (value (whole ++ fraction)) (exponent - fraction.length) := by
  obtain ⟨wholeAll, fractionAll⟩ := List.forall_mem_append.mp all
  have point : Breaks ('.' :: (fraction ++ tail)) := show Char.isDigit '.' = false by decide
  obtain ⟨taken, left⟩ := takeDigits wholeAll point
  obtain ⟨taken', left'⟩ := takeDigits fractionAll breaks
  have parts : pointDigits ('.' :: (fraction ++ tail)) = (fraction, tail) := Prod.ext taken' left'
  exact decimalParts taken ((congrArg pointDigits left).trans parts)

theorem decimalIff {negative : Bool} {s : List Char} {x : Binary64} : decimal? negative s = some x ↔
    ∃ digits exponent, SpellsDecimal digits exponent s ∧ Binary64.ofDecimal negative digits exponent = x := by
  constructor
  · intro read
    obtain ⟨whole, tail, rfl, all, points⟩ | ⟨whole, fraction, tail, rfl, all, breaks⟩ := decimalShapes s
    · rw [decimalPlain all points] at read
      obtain ⟨nonempty, read⟩ := Option.ite_none_left_eq_some.mp read
      obtain ⟨exponent, power, made⟩ := Option.map_eq_some_iff.mp read
      exact ⟨_, _, .plain nonempty all (powerIff.mp power), made⟩
    · rw [decimalPointed all breaks] at read
      obtain ⟨nonempty, read⟩ := Option.ite_none_left_eq_some.mp read
      obtain ⟨exponent, power, made⟩ := Option.map_eq_some_iff.mp read
      exact ⟨_, _, .pointed nonempty all (powerIff.mp power), made⟩
  · rintro ⟨digits, exponent, spelled, rfl⟩
    cases spelled with
    | plain nonempty all power => rw [decimalPlain all power.points, if_neg nonempty, powerIff.mpr power]; rfl
    | pointed nonempty all power =>
      rw [decimalPointed all power.points.breaks, if_neg nonempty, powerIff.mpr power]
      rfl

def InRange (s : List Char) : Prop :=
  ∃ digits exponent, SpellsDecimal digits exponent s ∧ Binary64.decimal digits exponent < Binary64.overflow

def OutOfRange (s : List Char) : Prop :=
  ∃ digits exponent, SpellsDecimal digits exponent s ∧ Binary64.overflow ≤ Binary64.decimal digits exponent

theorem decimalFinite {negative sign : Bool} {s : List Char} :
    (∃ units, decimal? negative s = some (.finite sign units)) ↔ negative = sign ∧ InRange s := by
  constructor
  · rintro ⟨units, read⟩
    obtain ⟨digits, exponent, spelled, made⟩ := decimalIff.mp read
    obtain ⟨same, below⟩ := Binary64.ofDecimalFinite.mp ⟨units, made⟩
    exact ⟨same, digits, exponent, spelled, below⟩
  · rintro ⟨same, digits, exponent, spelled, below⟩
    obtain ⟨units, made⟩ := Binary64.ofDecimalFinite.mpr ⟨same, below⟩
    exact ⟨units, decimalIff.mpr ⟨digits, exponent, spelled, made⟩⟩

theorem decimalInfinite {negative sign : Bool} {s : List Char} :
    decimal? negative s = some (.infinite sign) ↔ negative = sign ∧ OutOfRange s := by
  constructor
  · intro read
    obtain ⟨digits, exponent, spelled, made⟩ := decimalIff.mp read
    obtain ⟨same, above⟩ := Binary64.ofDecimalInfinite.mp made
    exact ⟨same, digits, exponent, spelled, above⟩
  · rintro ⟨same, digits, exponent, spelled, above⟩
    exact decimalIff.mpr ⟨digits, exponent, spelled, Binary64.ofDecimalInfinite.mpr ⟨same, above⟩⟩

theorem decimalNumber (negative : Bool) (s : List Char) : decimal? negative s ≠ some .nan := by
  intro read
  obtain ⟨digits, exponent, _, made⟩ := decimalIff.mp read
  exact Binary64.ofDecimalNumber negative digits exponent made

/-! Words. The first character tells them from decimals, and from signs. -/

def Cased (word : String) (s : List Char) : Prop := s.map Char.toLower = word.toList

def Infinity (s : List Char) : Prop := Cased "inf" s ∨ Cased "infinity" s

def Leads (letter : Char) (s : List Char) : Prop := ∃ c rest, s = c :: rest ∧ c.toLower = letter

theorem Leads.same {first second : Char} {s : List Char} (leads : Leads first s) (others : Leads second s) :
    first = second := by
  obtain ⟨c, rest, rfl, lower⟩ := leads
  obtain ⟨_, _, same, other⟩ := others
  obtain ⟨rfl, rfl⟩ := List.cons.inj same
  exact lower.symm.trans other

theorem Cased.leads {word : String} {first : Char} {others s : List Char} (letters : word.toList = first :: others)
    (cased : Cased word s) : Leads first s := by
  obtain ⟨c, rest, rfl, lower, _⟩ := List.map_eq_cons_iff.mp (cased.trans letters)
  exact ⟨c, rest, rfl, lower⟩

theorem Infinity.leads {s : List Char} (infinity : Infinity s) : Leads 'i' s := by
  rcases infinity with short | long
  · exact short.leads rfl
  · exact long.leads rfl

theorem nanLeads {s : List Char} (nan : Cased "nan" s) : Leads 'n' s := nan.leads rfl

theorem Leads.unsigned {c : Char} {s : List Char} (leads : Leads c s) (plain : c ≠ '-' ∧ c ≠ '+') : Unsigned s := by
  obtain ⟨c, rest, rfl, rfl⟩ := leads
  constructor <;> rintro rfl
  · exact plain.1 rfl
  · exact plain.2 rfl

theorem digitLower {c : Char} (digit : c.isDigit) : c.toLower = c := by
  have high : c.toNat ≤ 57 := (Char.isDigit_iff_toNat.mp digit).2
  refine dif_neg fun upper => ?_
  have low : 65 ≤ c.toNat := UInt32.le_iff_toNat_le.mp upper.1
  omega

theorem SpellsDecimal.leads {digits : Nat} {exponent : Int} {s : List Char}
    (spelled : SpellsDecimal digits exponent s) : ∃ c, (c.isDigit ∨ c = '.') ∧ Leads c s := by
  cases spelled with
  | plain nonempty all =>
    obtain ⟨c, rest, rfl⟩ := List.exists_cons_of_ne_nil nonempty
    have digit := all c List.mem_cons_self
    exact ⟨c, .inl digit, c, _, rfl, digitLower digit⟩
  | @pointed whole fraction tail exponent nonempty all =>
    cases whole with
    | nil => exact ⟨'.', .inr rfl, '.', _, rfl, rfl⟩
    | cons c rest =>
      have digit := all c List.mem_cons_self
      exact ⟨c, .inl digit, c, _, rfl, digitLower digit⟩

theorem SpellsDecimal.unsigned {digits : Nat} {exponent : Int} {s : List Char}
    (spelled : SpellsDecimal digits exponent s) : Unsigned s := by
  obtain ⟨c, figure, leads⟩ := spelled.leads
  refine leads.unsigned ⟨?_, ?_⟩ <;> rintro rfl <;> revert figure <;> decide

theorem SpellsDecimal.noWord {digits : Nat} {exponent : Int} {s : List Char}
    (spelled : SpellsDecimal digits exponent s) : ¬ (Infinity s ∨ Cased "nan" s) := by
  intro word
  obtain ⟨c, figure, leads⟩ := spelled.leads
  have letter : c = 'i' ∨ c = 'n' :=
    word.imp (fun infinity => leads.same infinity.leads) (fun nan => leads.same (nanLeads nan))
  rcases letter with rfl | rfl <;> revert figure <;> decide

theorem realKinds (s : List Char) :
    (Infinity (signed s).2 ∧ real? s = some (.infinite (signed s).1)) ∨
      (Cased "nan" (signed s).2 ∧ ¬ Infinity (signed s).2 ∧ real? s = some .nan) ∨
      (¬ (Infinity (signed s).2 ∨ Cased "nan" (signed s).2) ∧ real? s = decimal? (signed s).1 (signed s).2) := by
  by_cases infinity : Infinity (signed s).2
  · exact .inl ⟨infinity, if_pos infinity⟩
  · by_cases nan : Cased "nan" (signed s).2
    · exact .inr (.inl ⟨nan, infinity, (if_neg infinity).trans (if_pos nan)⟩)
    · exact .inr (.inr ⟨not_or.mpr ⟨infinity, nan⟩, (if_neg infinity).trans (if_neg nan)⟩)

theorem realFinite {s : List Char} {negative : Bool} :
    (∃ units, real? s = some (.finite negative units)) ↔ Signed InRange negative s := by
  rw [signedIff fun body ⟨_, _, spelled, _⟩ => spelled.unsigned]
  obtain ⟨infinity, read⟩ | ⟨nan, _, read⟩ | ⟨_, read⟩ := realKinds s
  · rw [read]
    exact iff_of_false nofun fun ⟨_, _, _, spelled, _⟩ => spelled.noWord (.inl infinity)
  · rw [read]
    exact iff_of_false nofun fun ⟨_, _, _, spelled, _⟩ => spelled.noWord (.inr nan)
  · rw [read]
    exact decimalFinite

theorem realInfinite {s : List Char} {negative : Bool} : real? s = some (.infinite negative) ↔
    Signed (fun body => Infinity body ∨ OutOfRange body) negative s := by
  have unsigned : ∀ body, Infinity body ∨ OutOfRange body → Unsigned body := by
    rintro body (infinity | ⟨_, _, spelled, _⟩)
    · exact infinity.leads.unsigned (by decide)
    · exact spelled.unsigned
  rw [signedIff unsigned]
  obtain ⟨infinity, read⟩ | ⟨nan, finite, read⟩ | ⟨word, read⟩ := realKinds s
  · rw [read]
    simp [infinity]
  · rw [read]
    refine iff_of_false nofun ?_
    rintro ⟨_, infinity | ⟨_, _, spelled, _⟩⟩
    · exact finite infinity
    · exact spelled.noWord (.inr nan)
  · rw [read, decimalInfinite, or_iff_right fun infinity => word (.inl infinity)]

theorem realNan {s : List Char} : real? s = some .nan ↔ ∃ negative, Signed (Cased "nan") negative s := by
  have unsigned : ∀ body, Cased "nan" body → Unsigned body := fun body nan => (nanLeads nan).unsigned (by decide)
  simp only [signedIff unsigned, exists_eq_left']
  obtain ⟨infinity, read⟩ | ⟨nan, _, read⟩ | ⟨word, read⟩ := realKinds s
  · rw [read]
    refine iff_of_false nofun fun nan => ?_
    cases infinity.leads.same (nanLeads nan)
  · rw [read]
    exact iff_of_true rfl nan
  · rw [read]
    exact iff_of_false (decimalNumber _ _) fun nan => word (.inr nan)

end AccountWatch.Numeral
