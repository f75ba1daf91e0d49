import AccountWatch.Json.Writer
import AccountWatch.Proofs.Json.Order
import AccountWatch.Proofs.Number.Digits

/-! A written document is a single line: nothing in it stands below U+0020, whatever its texts and numbers are. -/
namespace AccountWatch

def Printable (s : List Char) : Prop := ∀ c ∈ s, 0x20 ≤ c.toNat

theorem printableAll {s : List Char} (all : s.all fun c => 0x20 ≤ c.toNat) : Printable s :=
  fun c mem => of_decide_eq_true (List.all_eq_true.mp all c mem)

theorem Printable.append {s t : List Char} (left : Printable s) (right : Printable t) : Printable (s ++ t) :=
  fun c mem => (List.mem_append.mp mem).elim (left c) (right c)

theorem Printable.cons {c : Char} {s : List Char} (first : 0x20 ≤ c.toNat) (rest : Printable s) :
    Printable (c :: s) := List.forall_mem_cons.mpr ⟨first, rest⟩

theorem Printable.sublist {s t : List Char} (printable : Printable t) (part : s.Sublist t) : Printable s :=
  fun c mem => printable c (part.subset mem)

theorem digitsPrintable (n : Nat) : Printable (Nat.toDigits 10 n) := by
  intro c mem
  have digit := Char.isDigit_iff_toNat.mp (Numeral.digitOfDigits mem)
  exact Nat.le_trans (by decide) digit.1

namespace Binary64

theorem zerosPrintable (n : Nat) : Printable (zeros n) := by
  intro c mem
  rw [(List.mem_replicate.mp mem).2]
  decide

theorem layoutPrintable {digits : List Char} (printable : Printable digits) (exponent : Int) :
    Printable (layout digits exponent) := by
  have leading (n : Nat) : Printable (digits.take n) := printable.sublist (List.take_sublist n digits)
  have later (n : Nat) : Printable (digits.drop n) := printable.sublist (List.drop_sublist n digits)
  have fraction : Printable (if (digits.drop 1).isEmpty then [] else '.' :: digits.drop 1) := by
    split
    · nofun
    · exact .cons (by decide) (later 1)
  unfold layout
  dsimp only
  split
  · split
    · exact (printable.append (zerosPrintable _)).append (.cons (by decide) (.cons (by decide) nofun))
    · split
      · exact (leading _).append (.cons (by decide) (later _))
      · exact (Printable.cons (by decide) (.cons (by decide) (zerosPrintable _))).append printable
  · refine ((leading 1).append fraction).append (.cons (by decide) (.cons ?_ (digitsPrintable _)))
    split <;> decide

theorem signedPrintable (negative : Bool) (units : Nat) : Printable (signedText negative units) := by
  have unsigned : Printable (unsignedText units) := by
    unfold unsignedText
    split
    · exact printableAll (by decide)
    · exact layoutPrintable (digitsPrintable _) _
  unfold signedText
  split
  · exact .cons (by decide) unsigned
  · exact unsigned

end Binary64

namespace Json

theorem numberPrintable (n : Number) : Printable n.written := by
  cases n with
  | real negative units => exact Binary64.signedPrintable negative units
  | integer i =>
    change Printable i.written
    unfold Integer.written
    split
    · exact .cons (by decide) (digitsPrintable _)
    · exact digitsPrintable _

theorem hexPrintable : ∀ n < 16, 0x20 ≤ (hexDigit n).toNat := by decide

theorem escapedPrintable (c : Char) : Printable (escaped c) := by
  unfold escaped
  split_ifs with quote backslash backspace tab line feed carriage control
  iterate 7 exact printableAll (by decide)
  · have high := hexPrintable (c.toNat / 16) (by omega)
    have low := hexPrintable (c.toNat % 16) (by omega)
    exact printableAll (by simp [high, low])
  · exact printableAll (by simpa using control)

theorem quotedPrintable (s : String) : Printable (quoted s) := by
  have inside : Printable (s.toList.flatMap escaped) := by
    intro c mem
    obtain ⟨d, _, mem⟩ := List.mem_flatMap.mp mem
    exact escapedPrintable d c mem
  exact .cons (by decide) (inside.append (.cons (by decide) nofun))

theorem itemsPrintable {items : List Value} (each : ∀ item ∈ items, Printable item.written) :
    Printable (writtenItems items) := by
  induction items with
  | nil => exact .cons (by decide) nofun
  | cons item items ih =>
    obtain ⟨head, tail⟩ := List.forall_mem_cons.mp each
    exact .cons (by decide) (head.append (ih tail))

theorem memberPrintable (key : String) {value : Value} (printable : Printable value.written) {rest : List Char}
    (tail : Printable rest) : Printable (quoted key ++ ':' :: (value.written ++ rest)) :=
  (quotedPrintable key).append (.cons (by decide) (printable.append tail))

theorem membersPrintable {members : Members} (each : ∀ member ∈ members, Printable member.2.written) :
    Printable (writtenMembers members) := by
  induction members with
  | nil => exact .cons (by decide) nofun
  | cons member members ih =>
    obtain ⟨head, tail⟩ := List.forall_mem_cons.mp each
    exact .cons (by decide) (memberPrintable member.1 head (ih tail))

theorem writtenPrintable (v : Value) : Printable v.written := by
  induction v using Value.induction with
  | null => exact printableAll (by decide)
  | boolean b => cases b <;> exact printableAll (by decide)
  | number n => exact numberPrintable n
  | string s => exact quotedPrintable s
  | array items ih =>
    cases items with
    | nil => exact .cons (by decide) (.cons (by decide) nofun)
    | cons first items =>
      obtain ⟨head, tail⟩ := List.forall_mem_cons.mp ih
      exact .cons (by decide) (head.append (itemsPrintable tail))
  | object members ih =>
    cases members with
    | nil => exact .cons (by decide) (.cons (by decide) nofun)
    | cons first members =>
      obtain ⟨head, tail⟩ := List.forall_mem_cons.mp ih
      exact .cons (by decide) (memberPrintable first.1 head (membersPrintable tail))

end Json
end AccountWatch
