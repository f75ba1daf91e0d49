import AccountWatch.Message.Classify
import AccountWatch.Proofs.Number.Digits
import AccountWatch.Proofs.Number.Reals

/-! Prices. A price given as a number is finite, since the reader of documents turns down what no double holds. A price
given as a text is whatever real the text spells, and three of its forms are no number: the words for infinity and
not-a-number, and decimals out of range. The printed line shows each of them as it shows a missing price. -/
namespace AccountWatch

open Json (Value Members Number)
open Numeral (Signed InRange OutOfRange Infinity Cased)

namespace Binary64

theorem layoutLeads {c : Char} (digit : c.isDigit) (rest : List Char) (exponent : Int) :
    ∃ d more, layout (c :: rest) exponent = d :: more ∧ d.isDigit := by
  unfold layout
  dsimp only
  split
  · split
    · exact ⟨c, _, rfl, digit⟩
    · split
      · exact ⟨c, _, rfl, digit⟩
      · exact ⟨'0', _, rfl, rfl⟩
  · exact ⟨c, _, rfl, digit⟩

theorem unsignedLeads (units : Nat) : ∃ d more, unsignedText units = d :: more ∧ d.isDigit := by
  unfold unsignedText
  split_ifs
  · exact ⟨'0', _, rfl, rfl⟩
  · obtain ⟨c, rest, digits, digit⟩ := Numeral.digitsHead (shortest units).1
    dsimp only
    rw [digits]
    exact layoutLeads digit rest _

theorem finiteWritten (negative : Bool) (units : Nat) :
    (json (.finite negative units)).written ≠ Value.null.written := by
  obtain ⟨d, more, text, digit⟩ := unsignedLeads units
  change signedText negative units ≠ ['n', 'u', 'l', 'l']
  unfold signedText
  rw [text]
  cases negative with
  | true => exact nofun
  | false =>
    rintro same
    obtain rfl : d = 'n' := (List.cons.inj same).1
    cases digit

end Binary64

namespace Message

def priceFront (currency : String) : List Char :=
  '{' :: (Json.quoted "kind" ++ ':' :: (Json.quoted "price" ++ ',' :: (Json.quoted "message" ++ ':' :: '{' ::
    (Json.quoted "currency" ++ ':' :: (Json.quoted currency ++ ',' :: (Json.quoted "price" ++ [':']))))))

theorem priceWritten (currency : String) (quote : Option Binary64) : (price currency quote).envelope.written =
    priceFront currency ++ ((Value.optional Binary64.json quote).written ++ ['}', '}']) := by
  simp only [envelope, payload, kind, Kind.text, priceFront, Value.written, Json.writtenMembers, List.append_assoc,
    List.cons_append, List.nil_append]

theorem lineLikeMissing (currency : String) (quote : Option Binary64) :
    (price currency quote).line = (price currency none).line ↔
      ∀ negative units, quote ≠ some (.finite negative units) := by
  have lines : (price currency quote).line = (price currency none).line ↔
      (Value.optional Binary64.json quote).written = Value.null.written := by
    unfold line Value.text
    rw [String.ofList_inj, priceWritten, priceWritten, List.append_cancel_left_eq, List.append_cancel_right_eq]
    rfl
  rw [lines]
  constructor
  · rintro same negative units rfl
    exact Binary64.finiteWritten negative units same
  · intro unbounded
    cases quote with
    | none => rfl
    | some x =>
      cases x with
      | nan | infinite => rfl
      | finite negative units => exact (unbounded negative units rfl).elim

theorem numberFinite (n : Number) : ∃ negative units, n.binary64 = .finite negative units := by
  cases n with
  | real negative units => exact ⟨negative, units, rfl⟩
  | integer i =>
    have lower := i.lower
    have upper := i.upper
    have wide : 18446744073709551616 ≤ Binary64.overflow := by decide +kernel
    have within : i.val.natAbs < Binary64.overflow := by omega
    rw [Number.binary64]
    exact Binary64.ofIntFinite within

theorem priceDocument {frame currency : String} {quote : Option Binary64}
    (decoded : decode frame = .ok (.price currency quote)) :
    ∃ doc, Json.parse frame = .ok (.object doc) ∧ realField doc "price" = quote := by
  unfold decode at decoded
  split at decoded
  · cases decoded
  · rename_i doc read
    have classified : ofDocument doc = .price currency quote := Except.ok.inj decoded
    unfold ofDocument at classified
    split at classified
    · cases classified
    · cases classified
    · exact ⟨doc, read, (Message.price.inj classified).2⟩
    · cases classified
    · cases classified
  · cases decoded

theorem priceByField {frame currency : String} {quote : Option Binary64}
    (decoded : decode frame = .ok (.price currency quote)) :
    ∃ doc, Json.parse frame = .ok (.object doc) ∧
      (∀ n, doc.lookup "price" = some (.number n) → ∃ negative units, quote = some (.finite negative units)) ∧
      (∀ text, doc.lookup "price" = some (.string text) →
        (∀ negative, (∃ units, quote = some (.finite negative units)) ↔
          Signed InRange negative (Text.trim text.toList)) ∧
        (∀ negative, quote = some (.infinite negative) ↔
          Signed (fun body => Infinity body ∨ OutOfRange body) negative (Text.trim text.toList)) ∧
        (quote = some .nan ↔ ∃ negative, Signed (Cased "nan") negative (Text.trim text.toList))) ∧
      ((∀ n, doc.lookup "price" ≠ some (.number n)) → (∀ text, doc.lookup "price" ≠ some (.string text)) →
        quote = none) ∧
      ((price currency quote).line = (price currency none).line ↔
        ∀ negative units, quote ≠ some (.finite negative units)) := by
  obtain ⟨doc, read, rfl⟩ := priceDocument decoded
  refine ⟨doc, read, fun n held => ?_, fun text held => ?_, fun number text => ?_, lineLikeMissing currency _⟩
  · obtain ⟨negative, units, finite⟩ := numberFinite n
    exact ⟨negative, units, by rw [realField, held, ← finite]⟩
  · unfold realField
    rw [held]
    exact ⟨fun _ => Numeral.realFinite, fun _ => Numeral.realInfinite, Numeral.realNan⟩
  · unfold realField
    split
    · rename_i n held
      exact (number n held).elim
    · rename_i s held
      exact (text s held).elim
    · rfl

theorem largestPrice :
    let below := "\x7b\"currency\":\"usd\",\"price\":\" 1.7976931348623158e308 \"\x7d"
    let above := "\x7b\"currency\":\"usd\",\"price\":\"1.7976931348623159e308\"\x7d"
    ∃ units, decode below = .ok (.price "usd" (some (.finite false units))) ∧
      decode above = .ok (.price "usd" (some (.infinite false))) ∧
      Signed InRange false "1.7976931348623158e308".toList ∧
      Signed (fun body => Infinity body ∨ OutOfRange body) false "1.7976931348623159e308".toList ∧
      (price "usd" (some (.finite false units))).line ≠ (price "usd" none).line ∧
      (price "usd" (some (.infinite false))).line = (price "usd" none).line := by
  intro below above
  let document (text : String) : Members := [("currency", .string "usd"), ("price", .string text)]
  have decoded : decode below = .ok (.price "usd" (some (.finite false ((2 ^ 53 - 1) * 2 ^ 2045)))) ∧
      decode above = .ok (.price "usd" (some (.infinite false))) := by
    decide +kernel
  have parsed : Json.parse below = .ok (.object (document " 1.7976931348623158e308 ")) ∧
      Json.parse above = .ok (.object (document "1.7976931348623159e308")) := by
    decide +kernel
  have trimmed : Text.trim " 1.7976931348623158e308 ".toList = "1.7976931348623158e308".toList ∧
      Text.trim "1.7976931348623159e308".toList = "1.7976931348623159e308".toList := by
    decide +kernel
  obtain ⟨doc, read, _, text, _, line⟩ := priceByField decoded.1
  obtain ⟨doc', read', _, text', _, line'⟩ := priceByField decoded.2
  cases parsed.1.symm.trans read
  cases parsed.2.symm.trans read'
  refine ⟨_, decoded.1, decoded.2, ?_, ?_, ?_, ?_⟩
  · rw [← trimmed.1]
    exact ((text _ rfl).1 false).mp ⟨_, rfl⟩
  · rw [← trimmed.2]
    exact ((text' _ rfl).2.1 false).mp rfl
  · exact fun same => line.mp same false _ rfl
  · exact line'.mpr fun _ _ => nofun

/-- Words and decimals out of range are prices too, and the line shows them as no price. -/
theorem pricesWithoutNumber :
    decode "\x7b\"currency\":\"usd\",\"price\":\"nan\"\x7d" = .ok (.price "usd" (some .nan)) ∧
      decode "\x7b\"currency\":\"usd\",\"price\":\"-1e400\"\x7d" = .ok (.price "usd" (some (.infinite true))) ∧
      (price "usd" (some .nan)).line = (price "usd" none).line ∧
      (price "usd" (some (.infinite true))).line = (price "usd" none).line := by
  decide +kernel

end Message
end AccountWatch
