import AccountWatch.Message.Classify
import AccountWatch.Proofs.Json.Repetition
import AccountWatch.Proofs.Json.RoundTrip

/-! What a frame says does not depend on how it is laid out: the same members in another order, with other blanks
between them, or without those that a later one of the same key replaces, make the same message. -/
namespace AccountWatch

open Json (Value Members Blank SpellsMember blankNone readTextReads depthLimit)

def Kind.marks : List (String × Kind) :=
  [("frontier", .subscribe), ("history", .history), ("currency", .price), ("work", .work)]

def Kind.ofKeys (keys : List String) : Kind :=
  match marks.find? fun mark => mark.1 ∈ keys with
  | some mark => mark.2
  | none => .unknown

theorem hasKeyIff (doc : Members) (key : String) : hasKey doc key ↔ key ∈ doc.keys := by
  simp [hasKey, Members.keys]

theorem kindByKeys (doc : Members) : Kind.ofDocument doc = Kind.ofKeys doc.keys := by
  unfold Kind.ofDocument Kind.ofKeys Kind.marks
  simp only [hasKeyIff, List.find?_cons]
  split_ifs with frontier history currency work <;> simp [*]

theorem kindOfSameKeys {keys others : List String} (same : ∀ key, key ∈ keys ↔ key ∈ others) :
    Kind.ofKeys keys = Kind.ofKeys others := by
  unfold Kind.ofKeys
  simp only [same]

theorem kindOfMembers {members : Members} : Kind.ofDocument
    (Members.ofList (members.map fun member => (member.1, member.2.sorted))) = Kind.ofKeys members.keys := by
  rw [kindByKeys]
  apply kindOfSameKeys
  intro key
  rw [Members.ofListKeys, Members.keysMap]

namespace Message

theorem kindOfDocument (doc : Members) : (ofDocument doc).kind = Kind.ofDocument doc := by
  unfold ofDocument
  split <;> simp [kind, *]

theorem decodeSpelled {raw : Value} {frame : String} (spelled : raw.SpelledBy frame)
    (shallow : raw.depth ≤ depthLimit) {doc : Members} (sorted : raw.sorted = .object doc) :
    decode frame = .ok (ofDocument doc) := by
  unfold decode
  rw [Json.parseSpelled spelled shallow, sorted]

theorem decodedSpelled {frame : String} {m : Message} (decoded : decode frame = .ok m) :
    ∃ members : Members, (Value.object members).SpelledBy frame ∧ (Value.object members).depth ≤ depthLimit := by
  unfold decode at decoded
  split at decoded
  · cases decoded
  · rename_i doc read
    obtain ⟨raw, spelled, shallow, sorted⟩ := Json.spelledParse read
    cases raw with
    | object members => exact ⟨members, spelled, shallow⟩
    | null | boolean | number | string | array => cases sorted
  · cases decoded

theorem decodedByMembers :
    (∀ frame m, decode frame = .ok m →
      ∃ members : Members, (Value.object members).SpelledBy frame ∧ (Value.object members).depth ≤ depthLimit) ∧
    ∀ (members : Members) (frame : String), (Value.object members).SpelledBy frame →
      (Value.object members).depth ≤ depthLimit →
      ∃ m, decode frame = .ok m ∧ m.kind = Kind.ofKeys members.keys ∧
        (∀ other, (Value.object members).SpelledBy other ∨ (Value.object members.lastOnly).SpelledBy other →
          decode other = .ok m) ∧
        (members.keys.Nodup → ∀ (reordered : Members) (other : String), reordered.Perm members →
          (Value.object reordered).SpelledBy other → decode other = .ok m) := by
  refine ⟨fun frame m => decodedSpelled, fun members frame spelled shallow => ?_⟩
  have sorted := Json.objectSorted members
  refine ⟨_, decodeSpelled spelled shallow sorted, ?_, ?_, ?_⟩
  · rw [kindOfDocument, kindByKeys]
    apply kindOfSameKeys
    intro key
    rw [Members.ofListKeys, Members.keysMap]
  · rintro other (again | last)
    · exact decodeSpelled again shallow sorted
    · have within := Json.objectDepth (Members.lastSublist members).subset
      exact decodeSpelled last (Nat.le_trans within shallow) ((Json.objectLast members).trans sorted)
  · intro distinct reordered other perm again
    have within := Json.objectDepth perm.subset
    exact decodeSpelled again (Nat.le_trans within shallow) ((Json.objectPerm perm.symm distinct).symm.trans sorted)

theorem currencyBetweenTwo :
    let frame := " \x7b\"work\" :1,\"currency\": null,\n\"work\":\"a\"\x7d\t"
    let shorter := "\x7b\"currency\":null,\"work\":\"a\"\x7d"
    let swapped := "\x7b\"work\":\"a\",\"currency\":null\x7d"
    let one := Value.number (.integer ⟨1, by decide, by decide⟩)
    let members : Members := [("work", one), ("currency", .null), ("work", .string "a")]
    let distinct : Members := [("currency", .null), ("work", .string "a")]
    ((Value.object members).SpelledBy frame ∧ (Value.object members.lastOnly).SpelledBy shorter ∧
      distinct.keys.Nodup ∧ (Value.object distinct.reverse).SpelledBy swapped) ∧
      ∃ m, m.kind = .price ∧ decode frame = .ok m ∧ decode shorter = .ok m ∧ decode swapped = .ok m := by
  intro frame shorter swapped one members distinct
  have blank : Blank [' '] ∧ Blank ['\n'] ∧ Blank ['\t'] := by simp [Blank, Json.isSpace]
  have number : SpellsMember ("work", one) "\"work\" :1".toList :=
    .colon (readTextReads "work" []) blank.1 blankNone (.positive (by decide +kernel))
  have currency : SpellsMember ("currency", .null) "\"currency\": null".toList :=
    .colon (readTextReads "currency" []) blankNone blank.1 .null
  have work : SpellsMember ("work", .string "a") "\"work\":\"a\"".toList :=
    .colon (readTextReads "work" []) blankNone blankNone (.string (readTextReads "a" []))
  have spelled : (Value.object members).SpelledBy frame :=
    ⟨[' '], _, ['\t'], by decide +kernel, blank.1, .object (.more blankNone number blankNone
      (.more blankNone currency blankNone (.last blank.2.1 work blankNone))), blank.2.2⟩
  have texts : (Value.object distinct).text = shorter ∧ (Value.object distinct.reverse).text = swapped := by
    decide +kernel
  have last : (Value.object distinct).SpelledBy shorter := texts.1 ▸ Json.textSpells rfl
  have turned : (Value.object distinct.reverse).SpelledBy swapped := texts.2 ▸ Json.textSpells rfl
  obtain ⟨m, decoded, kind, shorterDecoded, _⟩ := decodedByMembers.2 members frame spelled (by decide)
  have same := shorterDecoded shorter (.inr last)
  obtain ⟨m', decoded', _, _, reordered⟩ := decodedByMembers.2 distinct shorter last (by decide)
  obtain rfl : m' = m := Except.ok.inj (decoded'.symm.trans same)
  have nodup : distinct.keys.Nodup := by decide
  exact ⟨⟨spelled, last, nodup, turned⟩, m', kind, decoded, same,
    reordered nodup distinct.reverse swapped distinct.reverse_perm turned⟩

end Message
end AccountWatch
