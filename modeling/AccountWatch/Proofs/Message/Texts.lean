import AccountWatch.Proofs.Json.Numerals
import AccountWatch.Proofs.Message.Frame

/-! What the text fields of a message hold. A text is held as it is given, and a number as it is written again: the
digits of a natural number below 2⁶⁴ are the same text either way. From there on the number has become a
double, and what is held is the text of the double. -/
namespace AccountWatch

open Json (Value Members Number Spells depthLimit)

inductive Place where
  | own (key : String)
  | entry (index : Nat) (key : String)

def Kind.textKeys : Kind → List String
  | .subscribe => ["frontier", "account", "balance", "pending", "representative", "open_block"]
  | .price => ["currency"]
  | .work => ["work"]
  | .history | .unknown => []

def HistoryEntry.textKeys : List String := ["type", "account", "amount", "hash"]

def AccountUpdate.texts (u : AccountUpdate) : List (String × Option String) :=
  [("frontier", some u.frontier), ("account", u.account), ("balance", u.balance), ("pending", u.pending),
    ("representative", u.representative), ("open_block", u.openBlock)]

def HistoryEntry.texts (e : HistoryEntry) : List (String × Option String) :=
  [("type", e.kind), ("account", e.account), ("amount", e.amount), ("hash", e.hash)]

def Message.textAt : Message → Place → Option String
  | .subscribe update, .own key => (update.texts.lookup key).join
  | .history entries, .entry index key => entries[index]?.bind fun e => (e.texts.lookup key).join
  | .price currency _, .own key => if key = "currency" then some currency else none
  | .work result, .own key => if key = "work" then some result else none
  | _, _ => none

/-- A document of the kind with the value in one of its text fields left open. Earlier members of the same
key may stand beside the one that counts, and in a list what is no object is no entry. -/
inductive LeftOpen : Kind → Place → (Value → Members) → Prop where
  | own {kind : Kind} {key : String} {ahead behind : Members} (field : key ∈ kind.textKeys)
      (last : key ∉ behind.keys) (named : Kind.ofKeys (ahead.keys ++ key :: behind.keys) = kind) :
      LeftOpen kind (.own key) fun v => ahead ++ (key, v) :: behind
  | entry {key : String} {ahead behind front back : Members} {earlier later : List Value}
      (field : key ∈ HistoryEntry.textKeys) (last : key ∉ back.keys) (lastList : "history" ∉ behind.keys)
      (named : Kind.ofKeys (ahead.keys ++ "history" :: behind.keys) = .history) :
      LeftOpen .history (.entry (earlier.countP fun v => v.kindName = "object") key) fun v =>
        ahead ++ ("history", .array (earlier ++ .object (front ++ (key, v) :: back) :: later)) :: behind

def Json.Value.shown : Value → Option String
  | .null => none
  | .string s => some s
  | other => some other.text

theorem textFieldShown {doc : Members} {key : String} {v : Value} (held : doc.lookup key = some v) :
    textField doc key = v.shown := by
  unfold textField
  rw [held]
  cases v <;> rfl

theorem ownText {doc : Members} {kind : Kind} {key text : String} (named : Kind.ofDocument doc = kind)
    (field : key ∈ kind.textKeys) (shown : textField doc key = some text) :
    (Message.ofDocument doc).textAt (.own key) = some text := by
  unfold Message.ofDocument
  rw [named]
  cases kind with
  | subscribe =>
    have keys : key = "frontier" ∨ key = "account" ∨ key = "balance" ∨ key = "pending" ∨
        key = "representative" ∨ key = "open_block" := by simpa [Kind.textKeys] using field
    rcases keys with rfl | rfl | rfl | rfl | rfl | rfl <;>
      simp [Message.textAt, AccountUpdate.texts, AccountUpdate.ofDocument, List.lookup_cons, shown]
  | price =>
    obtain rfl : key = "currency" := by simpa [Kind.textKeys] using field
    simp [Message.textAt, shown]
  | work =>
    obtain rfl : key = "work" := by simpa [Kind.textKeys] using field
    simp [Message.textAt, shown]
  | history | unknown => cases field

theorem entryText {doc : Members} {key text : String} (field : key ∈ HistoryEntry.textKeys)
    (shown : textField doc key = some text) :
    ∃ e, HistoryEntry.ofValue? (.object doc) = some e ∧ (e.texts.lookup key).join = some text := by
  refine ⟨_, rfl, ?_⟩
  have keys : key = "type" ∨ key = "account" ∨ key = "amount" ∨ key = "hash" := by
    simpa [HistoryEntry.textKeys] using field
  rcases keys with rfl | rfl | rfl | rfl <;> simp [HistoryEntry.texts, List.lookup_cons, shown]

theorem entryObject (v : Value) : (HistoryEntry.ofValue? v.sorted).isSome = decide (v.kindName = "object") := by
  cases v <;> rfl

theorem entryCount (items : List Value) :
    ((items.map Value.sorted).filterMap HistoryEntry.ofValue?).length =
      items.countP fun v => v.kindName = "object" := by
  rw [List.length_filterMap_eq_countP, List.countP_map]
  exact List.countP_congr fun v _ => by simp [entryObject]

theorem LeftOpen.kind {kind : Kind} {place : Place} {doc : Value → Members} (left : LeftOpen kind place doc)
    (v : Value) : Kind.ofKeys (doc v).keys = kind := by
  cases left with
  | own _ _ named => simpa [Members.keys] using named
  | entry _ _ _ named => simpa [Members.keys] using named

theorem LeftOpen.depth {kind : Kind} {place : Place} {doc : Value → Members} (left : LeftOpen kind place doc)
    {v w : Value} (same : v.depth = w.depth) : (Value.object (doc v)).depth = (Value.object (doc w)).depth := by
  cases left with
  | own => exact Json.memberDepthSame same _ _ _
  | entry =>
    exact Json.memberDepthSame (Json.itemDepthSame (Json.memberDepthSame same _ _ _) _ _) _ _ _

theorem LeftOpen.text {kind : Kind} {place : Place} {doc : Value → Members} (left : LeftOpen kind place doc)
    {v : Value} {text : String} (shown : v.sorted.shown = some text) :
    (Message.ofDocument (Members.ofList ((doc v).map fun member => (member.1, member.2.sorted)))).textAt place =
      some text := by
  have named : Kind.ofDocument _ = kind := kindOfMembers.trans (left.kind v)
  cases left with
  | own field last =>
    exact ownText named field ((textFieldShown (Json.heldLast last _ v)).trans shown)
  | @entry key ahead behind front back earlier later field last lastList =>
    let items := earlier ++ .object (front ++ (key, v) :: back) :: later
    have list := Json.heldLast lastList ahead (.array items)
    rw [Value.sorted, Json.sortedItemsMap] at list
    obtain ⟨e, made, given⟩ := entryText field ((textFieldShown (Json.heldLast last front v)).trans shown)
    rw [← Json.objectSorted] at made
    have found : ((items.map Value.sorted).filterMap HistoryEntry.ofValue?)[earlier.countP fun v =>
        v.kindName = "object"]? = some e := by
      rw [List.map_append, List.map_cons, List.filterMap_append, List.filterMap_cons_some made, ← entryCount,
        List.getElem?_append_right (Nat.le_refl _), Nat.sub_self]
      rfl
    unfold Message.ofDocument historyEntries
    rw [named, list]
    dsimp only [Message.textAt]
    rw [found]
    exact given

namespace Message

theorem textDecoded {kind : Kind} {place : Place} {doc : Value → Members} (left : LeftOpen kind place doc)
    {v : Value} {text frame : String} (shown : v.sorted.shown = some text)
    (spelled : (Value.object (doc v)).SpelledBy frame) (shallow : (Value.object (doc v)).depth ≤ depthLimit) :
    ∃ m, decode frame = .ok m ∧ m.kind = kind ∧ m.textAt place = some text := by
  refine ⟨_, decodeSpelled spelled shallow (Json.objectSorted _), ?_, left.text shown⟩
  rw [kindOfDocument, kindOfMembers, left.kind]

theorem digitsAsText {kind : Kind} {place : Place} {doc : Value → Members} (left : LeftOpen kind place doc)
    {n : Nat} {x : Number} (number : Spells (.number x) (Nat.toDigits 10 n)) {frame quoted : String}
    (given : (Value.object (doc (.number x))).SpelledBy frame)
    (asText : (Value.object (doc (.string (String.ofList (Nat.toDigits 10 n))))).SpelledBy quoted)
    (shallow : (Value.object (doc .null)).depth ≤ depthLimit) :
    ∃ m m', decode frame = .ok m ∧ decode quoted = .ok m' ∧ m.kind = kind ∧ m'.kind = kind ∧
      m.textAt place = some (String.ofList x.written) ∧
      m'.textAt place = some (String.ofList (Nat.toDigits 10 n)) ∧
      (m.textAt place = m'.textAt place ↔ n < Numeral.countBound) := by
  have numberDepth := left.depth (show (Value.number x).depth = Value.null.depth from rfl)
  have textDepth (s : String) := left.depth (show (Value.string s).depth = Value.null.depth from rfl)
  have shown : (Value.number x).sorted.shown = some (String.ofList x.written) := rfl
  obtain ⟨m, decoded, kind, text⟩ := textDecoded left shown given (numberDepth ▸ shallow)
  obtain ⟨m', decoded', kind', text'⟩ := textDecoded left rfl asText (textDepth _ ▸ shallow)
  refine ⟨m, m', decoded, decoded', kind, kind', text, text', ?_⟩
  rw [text, text', Option.some_inj, String.ofList_inj]
  exact Json.digitsWritten number

theorem largestAmount :
    let frame := "\x7b\"history\":[\"\",\x7b\"amount\":18446744073709551615\x7d]\x7d"
    let quoted := "\x7b\"history\":[\"\",\x7b\"amount\":\"18446744073709551615\"\x7d]\x7d"
    let x := Number.integer ⟨18446744073709551615, by decide, by decide⟩
    let doc (v : Value) : Members := [("history", .array [.string "", .object [("amount", v)]])]
    (LeftOpen .history (.entry 0 "amount") doc ∧ (Value.object (doc (.number x))).SpelledBy frame ∧
      (Value.object (doc (.string "18446744073709551615"))).SpelledBy quoted) ∧
      ∃ m m', decode frame = .ok m ∧ decode quoted = .ok m' ∧ m.kind = .history ∧
        m.textAt (.entry 0 "amount") = m'.textAt (.entry 0 "amount") := by
  intro frame quoted x doc
  have left : LeftOpen .history (.entry 0 "amount") doc :=
    @LeftOpen.entry "amount" [] [] [] [] [.string ""] [] (by decide) (by decide) (by decide) (by decide)
  have digits : String.ofList (Nat.toDigits 10 18446744073709551615) = "18446744073709551615" := by decide +kernel
  have texts : (Value.object (doc (.number x))).text = frame ∧
      (Value.object (doc (.string "18446744073709551615"))).text = quoted := by
    decide +kernel
  have given : (Value.object (doc (.number x))).SpelledBy frame := texts.1 ▸ Json.textSpells rfl
  have asText : (Value.object (doc (.string "18446744073709551615"))).SpelledBy quoted :=
    texts.2 ▸ Json.textSpells rfl
  have number : Spells (.number x) (Nat.toDigits 10 18446744073709551615) := .positive (by decide +kernel)
  obtain ⟨m, m', decoded, decoded', kind, _, _, _, same⟩ :=
    digitsAsText left number given (digits ▸ asText) (by decide)
  exact ⟨⟨left, given, asText⟩, m, m', decoded, decoded', kind, same.mpr (by decide)⟩

theorem largestBalanceAltered :
    let textOf (frame : String) : Option String :=
      (decode frame).toOption.bind fun m => m.textAt (.own "balance")
    let given := textOf "\x7b\"frontier\":\"F\",\"balance\":340282366920938463463374607431768211455\x7d"
    let asText := textOf "\x7b\"frontier\":\"F\",\"balance\":\"340282366920938463463374607431768211455\"\x7d"
    given = some "3.402823669209385e+38" ∧ asText = some "340282366920938463463374607431768211455" ∧
      given ≠ asText := by
  decide +kernel

end Message
end AccountWatch
