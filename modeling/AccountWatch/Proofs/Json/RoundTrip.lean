import AccountWatch.Proofs.Json.Quoting
import AccountWatch.Proofs.Json.Spelling
import AccountWatch.Proofs.Number.Digits

/-! A written document is a spelling of itself without blanks, and so is read back as the document in order. Doubles are
left out: the text of a double is not read by the rule that it was chosen for. -/
namespace AccountWatch.Json

mutual

def Value.exact : Value → Bool
  | .number (.real _ _) => false
  | .null | .boolean _ | .number (.integer _) | .string _ => true
  | .array items => itemsExact items
  | .object members => membersExact members

def itemsExact : List Value → Bool
  | [] => true
  | item :: rest => item.exact && itemsExact rest

def membersExact : List (String × Value) → Bool
  | [] => true
  | (_, value) :: rest => value.exact && membersExact rest

end

theorem itemsExactAll {items : List Value} : itemsExact items ↔ ∀ item ∈ items, item.exact := by
  induction items with
  | nil => simp [itemsExact]
  | cons item rest ih => simp [itemsExact, ih]

theorem membersExactAll {members : Members} : membersExact members ↔ ∀ member ∈ members, member.2.exact := by
  induction members with
  | nil => simp [membersExact]
  | cons member rest ih => simp [membersExact, ih]

theorem readWholeDigits (n : Nat) : readWhole (Nat.toDigits 10 n) = .ok (Nat.toDigits 10 n, []) := by
  rcases Nat.eq_zero_or_pos n with rfl | positive
  · rfl
  · obtain ⟨c, more, digits, digit⟩ := Numeral.digitsHead n
    have lead := Numeral.digitsLead positive digits
    have all : ∀ d ∈ Nat.toDigits 10 n, d.isDigit := fun d => Numeral.digitOfDigits
    obtain ⟨taken, left⟩ := takeDigits all (show Breaks [] from trivial)
    rw [List.append_nil, digits] at taken left
    rw [digits]
    unfold readWhole
    split
    · rename_i zero
      exact (lead (List.cons.inj zero).1).elim
    · unfold readDigits
      dsimp only
      rw [if_pos digit, taken, left]

theorem readLiteralDigits (n : Nat) (negative : Bool) :
    readLiteral negative (Nat.toDigits 10 n) = .ok (⟨negative, Nat.toDigits 10 n, none, none⟩, []) := by
  unfold readLiteral
  rw [readWholeDigits]
  rfl

theorem numberInteger (i : Integer) :
    (⟨i.val < 0, Nat.toDigits 10 i.val.natAbs, none, none⟩ : Literal).number? = some (.integer i) := by
  have back : Integer.ofInt? i.val = some i := by
    unfold Integer.ofInt?
    rw [dif_pos ⟨i.lower, i.upper⟩]
  have integer : (⟨i.val < 0, Nat.toDigits 10 i.val.natAbs, none, none⟩ : Literal).integer? = some i := by
    unfold Literal.integer?
    simp only [Option.isNone_none, Bool.and_self, if_true, Numeral.valueDigits, decide_eq_true_eq]
    split
    · rw [if_neg (by omega), show -(i.val.natAbs : Int) = i.val by omega, back]
    · rw [show (i.val.natAbs : Int) = i.val by omega, back]
  unfold Literal.number?
  rw [integer]

theorem readNumberDigits (i : Integer) :
    readNumber (i.val < 0) (Nat.toDigits 10 i.val.natAbs) = .ok (.number (.integer i), []) := by
  unfold readNumber
  rw [readLiteralDigits]
  dsimp only [bind, Except.bind]
  rw [numberInteger]

theorem integerSpells (i : Integer) : Spells (.number (.integer i)) i.written := by
  have token := readNumberDigits i
  unfold Integer.written
  split
  · rename_i negative
    rw [decide_eq_true negative] at token
    exact .negative token
  · rename_i positive
    rw [decide_eq_false positive] at token
    exact .positive token

theorem memberSpells {value : Value} (spells : Spells value value.written) (key : String) :
    SpellsMember (key, value) (quoted key ++ ':' :: value.written) := by
  have colon := SpellsMember.colon (readTextReads key []) blankNone blankNone spells
  simpa [quoted] using colon

theorem itemsListed {first : Value} {items : List Value}
    (spells : ∀ v ∈ first :: items, Spells v v.written) :
    Listed Spells ']' (first :: items) (first.written ++ writtenItems items) := by
  induction items generalizing first with
  | nil => exact .last blankNone (spells first List.mem_cons_self) blankNone
  | cons second items ih =>
    obtain ⟨head, tail⟩ := List.forall_mem_cons.mp spells
    exact .more blankNone head blankNone (ih tail)

theorem membersListed {key : String} {value : Value} {members : Members}
    (spells : ∀ member ∈ (key, value) :: members, Spells member.2 member.2.written) :
    Listed SpellsMember '}' ((key, value) :: members)
      (quoted key ++ ':' :: (value.written ++ writtenMembers members)) := by
  induction members generalizing key value with
  | nil =>
    have head := memberSpells (spells (key, value) List.mem_cons_self) key
    simpa [writtenMembers] using Listed.last blankNone head blankNone
  | cons second members ih =>
    obtain ⟨head, tail⟩ := List.forall_mem_cons.mp spells
    simpa [writtenMembers] using Listed.more blankNone (memberSpells head key) blankNone (ih tail)

theorem writtenSpells (v : Value) : v.exact → Spells v v.written := by
  induction v using Value.induction with
  | null => exact fun _ => .null
  | boolean b => cases b <;> intro _ <;> constructor
  | number n =>
    intro exact
    cases n with
    | integer i => exact integerSpells i
    | real negative units => cases exact
  | string s => exact fun _ => .string (readTextReads s [])
  | array items ih =>
    intro exact
    have each := itemsExactAll.mp exact
    cases items with
    | nil => exact .array (.empty blankNone)
    | cons first items => exact .array (itemsListed fun v mem => ih v mem (each v mem))
  | object members ih =>
    intro exact
    have each := membersExactAll.mp exact
    cases members with
    | nil => exact .object (.empty blankNone)
    | cons first members => exact .object (membersListed fun member mem => ih member mem (each member mem))

theorem textSpells {v : Value} (exact : v.exact) : v.SpelledBy v.text :=
  ⟨[], v.written, [], by simp [Value.text], blankNone, writtenSpells v exact, blankNone⟩

theorem parseReads {v : Value} (exact : v.exact) (deep : v.depth ≤ depthLimit) : parse v.text = .ok v.sorted :=
  parseSpelled (textSpells exact) deep

end AccountWatch.Json
