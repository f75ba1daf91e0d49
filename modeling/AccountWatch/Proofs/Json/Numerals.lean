import AccountWatch.Proofs.Json.RoundTrip
import AccountWatch.Proofs.Number.Count

/-! Numbers as they stand in a text. A token is a whole part of digits, and what stands behind it, if anything does, is
marked by a point or by the letter of an exponent. So a token that holds digits only is an integer, and no other is
a count; and a number that has become a double is written with such a mark again. -/
namespace AccountWatch.Json
open Text (isBlank)

theorem readDigitsAll {s digits rest : List Char} (read : readDigits s = .ok (digits, rest)) :
    ∀ c ∈ digits, c.isDigit := by
  unfold readDigits at read
  split at read
  · cases read
  · split_ifs at read
    obtain ⟨rfl, _⟩ := Prod.mk.inj (Except.ok.inj read)
    exact fun c => List.mem_takeWhile_imp

theorem readWholeAll {s digits rest : List Char} (read : readWhole s = .ok (digits, rest)) :
    digits ≠ [] ∧ ∀ c ∈ digits, c.isDigit := by
  unfold readWhole at read
  split at read
  · have zero : ['0'] ≠ [] ∧ ∀ c ∈ ['0'], c.isDigit := ⟨List.cons_ne_nil _ _, List.forall_mem_singleton.mpr rfl⟩
    split at read
    · cases read
      exact zero
    · split_ifs at read
      cases read
      exact zero
  · obtain ⟨_, ⟨c, more, rfl, _⟩, _⟩ := readDigitsTakes read
    exact ⟨List.cons_ne_nil _ _, readDigitsAll read⟩

inductive Marked : List Char → Prop where
  | plain : Marked []
  | mark {c : Char} {more : List Char} (mark : c.isDigit = false) (solid : ∀ d ∈ c :: more, isBlank d = false) :
      Marked (c :: more)

theorem Marked.solid {s : List Char} (marked : Marked s) : ∀ c ∈ s, isBlank c = false := by
  cases marked with
  | plain => exact nofun
  | mark _ solid => exact solid

theorem readFractionMarks {s rest : List Char} {fraction : Option (List Char)}
    (read : readFraction s = .ok (fraction, rest)) :
    ∃ text, s = text ++ rest ∧ Marked text ∧ (fraction = none ↔ text = []) := by
  unfold readFraction at read
  split at read
  · obtain ⟨⟨digits, after⟩, digitsRead, same⟩ := mapReads read
    obtain ⟨rfl, rfl⟩ := Prod.mk.inj same
    obtain ⟨rfl, _, _⟩ := readDigitsTakes digitsRead
    have all := readDigitsAll digitsRead
    refine ⟨'.' :: digits, rfl, .mark (by decide) ?_, by simp⟩
    exact List.forall_mem_cons.mpr ⟨by decide, fun c mem => Numeral.digitSolid (all c mem)⟩
  · cases read
    exact ⟨[], rfl, .plain, by simp⟩

theorem signedSolid (s : List Char) :
    ∃ sign, s = sign ++ (Numeral.signed s).2 ∧ ∀ c ∈ sign, isBlank c = false := by
  obtain ⟨sign, split, spelled⟩ := Numeral.signedSpells s
  refine ⟨sign, split, ?_⟩
  generalize (Numeral.signed s).1 = negative at spelled
  cases spelled with
  | none => exact nofun
  | plus | minus => exact List.forall_mem_singleton.mpr rfl

theorem readExponentMarks {s rest : List Char} {exponent : Option Exponent}
    (read : readExponent s = .ok (exponent, rest)) :
    ∃ text, s = text ++ rest ∧ Marked text ∧ (exponent = none ↔ text = []) := by
  unfold readExponent at read
  split at read
  · cases read
    exact ⟨[], rfl, .plain, by simp⟩
  · rename_i c more
    split_ifs at read with mark
    · obtain ⟨sign, split, solid⟩ := signedSolid more
      generalize Numeral.signed more = parts at read split
      obtain ⟨negative, body⟩ := parts
      dsimp only at read split
      obtain ⟨⟨digits, after⟩, digitsRead, same⟩ := mapReads read
      obtain ⟨rfl, rfl⟩ := Prod.mk.inj same
      obtain ⟨rfl, _, _⟩ := readDigitsTakes digitsRead
      have all := readDigitsAll digitsRead
      have marks : c.isDigit = false ∧ isBlank c = false := by
        rcases mark with rfl | rfl <;> decide
      refine ⟨c :: (sign ++ digits), by simp [split], .mark marks.1 ?_, by simp⟩
      refine List.forall_mem_cons.mpr ⟨marks.2, fun d mem => ?_⟩
      rcases List.mem_append.mp mem with signs | figures
      · exact solid d signs
      · exact Numeral.digitSolid (all d figures)
    · cases read
      exact ⟨[], rfl, .plain, by simp⟩

theorem Marked.append {s t : List Char} (left : Marked s) (right : Marked t) : Marked (s ++ t) := by
  cases left with
  | plain => exact right
  | @mark c more mark solid =>
    rw [List.cons_append]
    refine .mark mark fun d mem => ?_
    rw [← List.cons_append] at mem
    rcases List.mem_append.mp mem with first | later
    · exact solid d first
    · exact right.solid d later

theorem readLiteralMarks {negative : Bool} {text : List Char} {l : Literal}
    (read : readLiteral negative text = .ok (l, [])) :
    l.negative = negative ∧ (∀ c ∈ text, isBlank c = false) ∧ text ≠ [] ∧
      ((∀ c ∈ text, c.isDigit) → text = l.whole) ∧
      (l.fraction = none ∧ l.exponent = none ↔ ∀ c ∈ text, c.isDigit) := by
  unfold readLiteral at read
  obtain ⟨⟨whole, behind⟩, wholeRead, read⟩ := bindReads read
  obtain ⟨⟨fraction, after⟩, fractionRead, read⟩ := bindReads read
  obtain ⟨⟨exponent, last⟩, exponentRead, read⟩ := bindReads read
  obtain ⟨rfl, rfl⟩ := Prod.mk.inj (Except.ok.inj read)
  obtain ⟨rfl, _⟩ := readWholeTakes wholeRead
  obtain ⟨some, digits⟩ := readWholeAll wholeRead
  obtain ⟨middle, rfl, points, noFraction⟩ := readFractionMarks fractionRead
  obtain ⟨power, rfl, letters, noExponent⟩ := readExponentMarks exponentRead
  rw [List.append_nil]
  have marked := points.append letters
  have bare : fraction = none ∧ exponent = none ↔ middle ++ power = [] := by
    rw [noFraction, noExponent, List.append_eq_nil_iff]
  generalize middle ++ power = tail at marked bare
  have plain : (∀ c ∈ whole ++ tail, c.isDigit) ↔ tail = [] := by
    cases marked with
    | plain => simpa using digits
    | @mark c more mark solid =>
      refine ⟨fun all => ?_, nofun⟩
      have digit := all c (by simp)
      rw [mark] at digit
      cases digit
  refine ⟨rfl, fun c mem => ?_, by simp [some], fun all => by simp [plain.mp all], bare.trans plain.symm⟩
  rcases List.mem_append.mp mem with figures | marks
  · exact Numeral.digitSolid (digits c figures)
  · exact marked.solid c marks

theorem ofIntCount (i : Int) (n : UInt64) : (Integer.ofInt? i).bind Integer.count? = some n ↔ i = n.toNat := by
  have bound := n.toNat_lt
  unfold Integer.ofInt?
  split_ifs with fits
  · rw [Option.bind_some, Integer.count?]
    dsimp only
    split_ifs with positive
    · have small : i.toNat < UInt64.size := (Int.toNat_lt positive).mpr fits.2
      rw [Option.some_inj, ← UInt64.toNat_inj, UInt64.toNat_ofNat_of_lt' small]
      omega
    · simp only [false_iff]
      omega
  · simp only [Option.bind_none, reduceCtorEq, false_iff]
    omega

theorem numberCases {l : Literal} {x : Number} (known : l.number? = some x) :
    (∃ i, l.integer? = some i ∧ x = .integer i) ∨ (l.integer? = none ∧ ∃ units, x = .real l.negative units) := by
  unfold Literal.number? at known
  split at known
  · rename_i i integer
    exact .inl ⟨i, integer, (Option.some.inj known).symm⟩
  · rename_i none
    obtain ⟨units, _, real⟩ := Option.map_eq_some_iff.mp known
    exact .inr ⟨none, units, real.symm⟩

theorem numberCount {l : Literal} {x : Number} (known : l.number? = some x) :
    x.count? = l.integer?.bind Integer.count? := by
  rcases numberCases known with ⟨i, integer, rfl⟩ | ⟨none, units, rfl⟩
  · rw [integer]
    rfl
  · rw [none]
    rfl

theorem literalCount (l : Literal) (n : UInt64) : l.integer?.bind Integer.count? = some n ↔
    (l.fraction = none ∧ l.exponent = none) ∧ l.negative = false ∧ Numeral.value l.whole = n.toNat := by
  unfold Literal.integer?
  simp only [Bool.and_eq_true, Option.isNone_iff_eq_none]
  split_ifs with bare negative zero
  · simp [negative]
  · rw [ofIntCount]
    simp [negative]
    omega
  · rw [ofIntCount]
    simp only [bare, negative, and_self, true_and, Int.natCast_inj]
  · simp [bare]

theorem literalRead {negative : Bool} {text : List Char} {x : Number}
    (read : readNumber negative text = .ok (.number x, [])) :
    ∃ l, readLiteral negative text = .ok (l, []) ∧ l.number? = some x := by
  obtain ⟨⟨l, tail⟩, literal, made⟩ := bindReads read
  dsimp only at made
  split at made
  · rename_i known
    cases made
    exact ⟨l, literal, known⟩
  · cases made

theorem countSpelled {x : Number} {t : List Char} (spelled : Spells (.number x) t) (n : UInt64) :
    x.count? = some n ↔ (∀ c ∈ t, c.isDigit) ∧ Numeral.value t = n.toNat := by
  cases spelled with
  | negative read =>
    obtain ⟨l, literal, known⟩ := literalRead read
    obtain ⟨below, _⟩ := readLiteralMarks literal
    rw [numberCount known, literalCount]
    simp [below]
  | positive read =>
    obtain ⟨l, literal, known⟩ := literalRead read
    obtain ⟨above, _, _, whole, bare⟩ := readLiteralMarks literal
    rw [numberCount known, literalCount, bare]
    refine and_congr_right fun all => ?_
    rw [← whole all]
    exact and_iff_right above

theorem countQuoted {x : Number} {t before after : List Char} (spelled : Spells (.number x) t)
    (ahead : ∀ c ∈ before, isBlank c) (behind : ∀ c ∈ after, isBlank c) :
    Numeral.count? (Text.trim (before ++ (t ++ after))) = x.count? := by
  obtain ⟨solid, some, plus⟩ : (∀ c ∈ t, isBlank c = false) ∧ t ≠ [] ∧ Numeral.withoutPlus t = t := by
    cases spelled with
    | negative read =>
      obtain ⟨l, literal, _⟩ := literalRead read
      obtain ⟨_, solid, _⟩ := readLiteralMarks literal
      exact ⟨List.forall_mem_cons.mpr ⟨by decide, solid⟩, List.cons_ne_nil _ _, rfl⟩
    | positive read =>
      obtain ⟨l, literal, _⟩ := literalRead read
      obtain ⟨_, solid, some, _⟩ := readLiteralMarks literal
      obtain ⟨c, more, rfl, digit⟩ := readNumberDigit read
      refine ⟨solid, some, ?_⟩
      unfold Numeral.withoutPlus
      split
      · rename_i same
        rw [(List.cons.inj same).1] at digit
        cases digit
      · rfl
  apply Option.ext
  intro n
  rw [Text.trimBetween ahead solid behind, Numeral.countIff, plus, countSpelled spelled]
  exact and_iff_right some

theorem layoutMarked (digits : List Char) (exponent : Int) :
    ∃ c ∈ Binary64.layout digits exponent, c.isDigit = false := by
  have point : '.'.isDigit = false := by decide
  unfold Binary64.layout
  dsimp only
  split
  · split
    · exact ⟨'.', by simp, point⟩
    · split <;> exact ⟨'.', by simp, point⟩
  · exact ⟨'e', List.mem_append_right _ List.mem_cons_self, by decide⟩

theorem realMarked (negative : Bool) (units : Nat) :
    ∃ c ∈ Number.written (.real negative units), c.isDigit = false := by
  have unsigned : ∃ c ∈ Binary64.unsignedText units, c.isDigit = false := by
    unfold Binary64.unsignedText
    split
    · exact ⟨'.', by decide, by decide⟩
    · exact layoutMarked _ _
  change ∃ c ∈ Binary64.signedText negative units, c.isDigit = false
  unfold Binary64.signedText
  split
  · exact ⟨'-', List.mem_cons_self, by decide⟩
  · exact unsigned

theorem digitsRead {n : Nat} {x : Number} (spelled : Spells (.number x) (Nat.toDigits 10 n)) :
    (⟨false, Nat.toDigits 10 n, none, none⟩ : Literal).number? = some x := by
  generalize same : Nat.toDigits 10 n = text at spelled ⊢
  cases spelled with
  | negative =>
    have digit := Numeral.digitOfDigits (same ▸ List.mem_cons_self)
    cases digit
  | positive read =>
    obtain ⟨l, literal, known⟩ := literalRead read
    rw [← same, readLiteralDigits] at literal
    cases literal
    exact same ▸ known

theorem digitsWritten {n : Nat} {x : Number} (spelled : Spells (.number x) (Nat.toDigits 10 n)) :
    x.written = Nat.toDigits 10 n ↔ n < Numeral.countBound := by
  have integer : (⟨false, Nat.toDigits 10 n, none, none⟩ : Literal).integer? = Integer.ofInt? n := by
    simp [Literal.integer?, Numeral.valueDigits]
  have known := numberCases (digitsRead spelled)
  rw [integer, Integer.ofInt?] at known
  have fits : (-9223372036854775808 ≤ (n : Int) ∧ (n : Int) < 18446744073709551616) ↔ n < Numeral.countBound := by
    rw [Numeral.countBound]
    omega
  rcases known with ⟨i, given, rfl⟩ | ⟨given, units, rfl⟩
  · split_ifs at given with small
    obtain rfl := Option.some.inj given
    refine iff_of_true ?_ (fits.mp small)
    change Integer.written _ = _
    unfold Integer.written
    rw [if_neg (Int.not_lt.mpr (Int.natCast_nonneg n))]
    rfl
  · split_ifs at given with small
    obtain ⟨c, mem, mark⟩ := realMarked false units
    refine iff_of_false (fun same => ?_) (mt fits.mpr small)
    rw [same] at mem
    rw [Numeral.digitOfDigits mem] at mark
    cases mark

end AccountWatch.Json
