import AccountWatch.Proofs.Json.Numerals
import AccountWatch.Proofs.Message.Frame

/-! The block count of an update is the same whether it is given as a number or as a text of that number, with any
blanks around it. It is there when the number is spelled with digits only and fits in 64 bits. A text may also have a
plus and zeros in front of its digits, which no number of a document has. -/
namespace AccountWatch

open Json (Value Members Number Spells depthLimit)
open Numeral (SpellsCount countBound)

def Json.Value.count? : Value → Option UInt64
  | .number n => n.count?
  | .string s => Numeral.count? (Text.trim s.toList)
  | _ => none

theorem countFieldHeld {doc : Members} {key : String} {v : Value} (held : doc.lookup key = some v) :
    countField doc key = v.count? := by
  unfold countField
  rw [held]
  cases v <;> rfl

def countDocument (ahead behind : Members) (v : Value) : Members := ahead ++ ("block_count", v) :: behind

namespace Message

theorem countDecoded {ahead behind : Members} (named : "frontier" ∈ ahead.keys ++ behind.keys)
    (last : "block_count" ∉ behind.keys) {v : Value} {frame : String}
    (spelled : (Value.object (countDocument ahead behind v)).SpelledBy frame)
    (shallow : (Value.object (countDocument ahead behind v)).depth ≤ depthLimit) :
    ∃ u, decode frame = .ok (.subscribe u) ∧ u.blockCount = v.sorted.count? := by
  have keys : "frontier" ∈ (countDocument ahead behind v).keys := by
    rw [countDocument, Members.keys, List.map_append, List.map_cons]
    exact List.mem_append.mpr ((List.mem_append.mp named).imp_right (List.mem_cons_of_mem _))
  have kind : Kind.ofKeys (countDocument ahead behind v).keys = .subscribe := by
    unfold Kind.ofKeys Kind.marks
    rw [List.find?_cons_of_pos (by simpa using keys)]
  have decoded := decodeSpelled spelled shallow (Json.objectSorted _)
  unfold ofDocument at decoded
  rw [kindOfMembers, kind] at decoded
  exact ⟨_, decoded, countFieldHeld (Json.heldLast last ahead v)⟩

theorem countAsText {x : Number} {t before after : List Char} (number : Spells (.number x) t)
    (leading : ∀ c ∈ before, Text.isBlank c) (trailing : ∀ c ∈ after, Text.isBlank c) {ahead behind : Members}
    (named : "frontier" ∈ ahead.keys ++ behind.keys) (last : "block_count" ∉ behind.keys) {frame quoted : String}
    (given : (Value.object (countDocument ahead behind (.number x))).SpelledBy frame)
    (asText : (Value.object (countDocument ahead behind
      (.string (String.ofList (before ++ (t ++ after)))))).SpelledBy quoted)
    (shallow : (Value.object (countDocument ahead behind .null)).depth ≤ depthLimit) :
    ∃ u v, decode frame = .ok (.subscribe u) ∧ decode quoted = .ok (.subscribe v) ∧
      u.blockCount = v.blockCount ∧
      ∀ n : UInt64, u.blockCount = some n ↔ (∀ c ∈ t, c.isDigit) ∧ Numeral.value t = n.toNat := by
  have depth (v : Value) (flat : v.depth = 0) : (Value.object (countDocument ahead behind v)).depth ≤ depthLimit :=
    (Json.memberDepthSame (w := .null) flat _ _ _).trans_le shallow
  obtain ⟨u, decoded, count⟩ := countDecoded named last given (depth _ rfl)
  obtain ⟨v, decoded', count'⟩ := countDecoded named last asText (depth _ rfl)
  have read : v.blockCount = x.count? := by
    rw [count']
    change Numeral.count? (Text.trim (String.ofList _).toList) = x.count?
    rw [String.toList_ofList]
    exact Json.countQuoted number leading trailing
  refine ⟨u, v, decoded, decoded', count.trans read.symm, fun n => ?_⟩
  rw [count]
  exact Json.countSpelled number n

theorem largestCount :
    let frame := "\x7b\"block_count\":18446744073709551615,\"frontier\":\"F\"\x7d"
    let quoted := "\x7b\"block_count\":\"\u2003 18446744073709551615\u00a0\",\"frontier\":\"F\"\x7d"
    let x := Number.integer ⟨18446744073709551615, by decide, by decide⟩
    let doc := countDocument [] [("frontier", .string "F")]
    (Spells (.number x) "18446744073709551615".toList ∧ (∀ c ∈ ['\u2003', ' '], Text.isBlank c) ∧
      (∀ c ∈ ['\u00a0'], Text.isBlank c) ∧ (Value.object (doc (.number x))).SpelledBy frame ∧
      (Value.object (doc (.string "\u2003 18446744073709551615\u00a0"))).SpelledBy quoted) ∧
      ∃ u v, decode frame = .ok (.subscribe u) ∧ decode quoted = .ok (.subscribe v) ∧
        u.blockCount = some 18446744073709551615 ∧ v.blockCount = some 18446744073709551615 := by
  intro frame quoted x doc
  have number : Spells (.number x) "18446744073709551615".toList := .positive (by decide +kernel)
  have leading : ∀ c ∈ ['\u2003', ' '], Text.isBlank c := List.all_eq_true.mp rfl
  have trailing : ∀ c ∈ ['\u00a0'], Text.isBlank c := List.all_eq_true.mp rfl
  have texts : (Value.object (doc (.number x))).text = frame ∧
      (Value.object (doc (.string "\u2003 18446744073709551615\u00a0"))).text = quoted := by
    decide +kernel
  have given : (Value.object (doc (.number x))).SpelledBy frame := texts.1 ▸ Json.textSpells rfl
  have asText : (Value.object (doc (.string "\u2003 18446744073709551615\u00a0"))).SpelledBy quoted :=
    texts.2 ▸ Json.textSpells rfl
  obtain ⟨u, v, decoded, decoded', same, count⟩ :=
    countAsText number leading trailing (by decide) (by decide) given asText (by decide)
  have known : u.blockCount = some 18446744073709551615 := (count _).mpr ⟨List.all_eq_true.mp rfl, by decide⟩
  exact ⟨⟨number, leading, trailing, given, asText⟩, u, v, decoded, decoded', known, same.symm.trans known⟩

theorem countByDigits {s : String} {ahead behind : Members} (named : "frontier" ∈ ahead.keys ++ behind.keys)
    (last : "block_count" ∉ behind.keys) {frame : String}
    (given : (Value.object (countDocument ahead behind (.string s))).SpelledBy frame)
    (shallow : (Value.object (countDocument ahead behind (.string s))).depth ≤ depthLimit) :
    ∃ u, decode frame = .ok (.subscribe u) ∧
      (∀ n : UInt64, u.blockCount = some n ↔ SpellsCount n.toNat s.toList) ∧
      (∀ n, SpellsCount n s.toList → u.blockCount = if n < countBound then some (UInt64.ofNat n) else none) ∧
      ((∀ n, ¬ SpellsCount n s.toList) → u.blockCount = none) := by
  obtain ⟨u, decoded, count⟩ := countDecoded named last given shallow
  have read : u.blockCount = Numeral.count? (Text.trim s.toList) := count
  have spelled (n : UInt64) : u.blockCount = some n ↔ SpellsCount n.toNat s.toList := by
    rw [read]
    exact Numeral.countTrimmed
  refine ⟨u, decoded, spelled, fun n text => ?_, fun other => ?_⟩
  · split_ifs with small
    · exact (spelled _).mpr ((UInt64.toNat_ofNat_of_lt small).symm ▸ text)
    · rw [Option.eq_none_iff_forall_ne_some]
      intro m known
      have same := text.unique ((spelled m).mp known)
      exact small (same ▸ m.toNat_lt)
  · rw [Option.eq_none_iff_forall_ne_some]
    exact fun n known => other _ ((spelled n).mp known)

theorem longestCount :
    let below := "\u2003+00018446744073709551615 "
    let above := "\u2003+00018446744073709551616 "
    let doc (s : String) := Value.object (countDocument [("frontier", .string "F")] [] (.string s))
    ((doc below).SpelledBy (doc below).text ∧ (doc above).SpelledBy (doc above).text ∧
      SpellsCount 18446744073709551615 below.toList ∧ SpellsCount 18446744073709551616 above.toList) ∧
      ∃ u v, decode (doc below).text = .ok (.subscribe u) ∧ decode (doc above).text = .ok (.subscribe v) ∧
        u.blockCount = some 18446744073709551615 ∧ v.blockCount = none := by
  intro below above doc
  have given (s : String) : (doc s).SpelledBy (doc s).text := Json.textSpells rfl
  let padded (n : Nat) : List Char := ['\u2003'] ++ (['+'] ++ (List.replicate 3 '0' ++ Nat.toDigits 10 n) ++ [' '])
  have spelled (n : Nat) : SpellsCount n (padded n) :=
    .padded (List.all_eq_true.mp rfl) .plus 3 n (List.all_eq_true.mp rfl)
  have texts : below.toList = padded 18446744073709551615 ∧ above.toList = padded 18446744073709551616 := by
    decide +kernel
  have digits : SpellsCount 18446744073709551615 below.toList ∧ SpellsCount 18446744073709551616 above.toList :=
    ⟨texts.1 ▸ spelled _, texts.2 ▸ spelled _⟩
  obtain ⟨u, decoded, count, _⟩ := countByDigits (by decide) (by decide) (given below) (by decide)
  obtain ⟨v, decoded', _, bounded, _⟩ := countByDigits (by decide) (by decide) (given above) (by decide)
  refine ⟨⟨given below, given above, digits⟩, u, v, decoded, decoded', (count _).mpr digits.1, ?_⟩
  rw [bounded _ digits.2]
  rfl

end Message
end AccountWatch
