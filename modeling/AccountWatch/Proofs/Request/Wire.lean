import AccountWatch.Proofs.Json.Printing
import AccountWatch.Proofs.Json.RoundTrip
import AccountWatch.Request

/-! The wire text of a request is read as the object of its shape. What an address or a currency holds stays inside
its own text: it adds no member, hides none and changes none, so that a wire text belongs to one request.
Whether an address names an account is not treated. -/
namespace AccountWatch.Request

open Json (Value Members)

def written (r : Request) : Members := ("action", .string r.action) :: r.members

def shape : Request → Members
  | .subscribe account currency =>
      [("account", .string account.text), ("action", .string "subscribe"), ("currency", .string currency)]
  | .price currency => [("action", .string "price"), ("currency", .string currency)]
  | .history account count =>
      [("account", .string account.text), ("action", .string "history"), ("count", .count count)]

theorem accountInjective {a b : Address} (same : a.text = b.text) : a = b := by
  cases a
  cases b
  exact congrArg Address.mk same

theorem countInjective {m n : UInt64} (same : Value.count m = .count n) : m = n := by
  have integers : Json.Integer.ofCount m = .ofCount n := Json.Number.integer.inj (Value.number.inj same)
  have read := congrArg Json.Integer.count? integers
  rw [Json.Integer.countOfCount, Json.Integer.countOfCount] at read
  exact Option.some.inj read

theorem shapeInjective {r other : Request} (same : other.shape = r.shape) : other = r := by
  cases r with
  | subscribe account currency =>
    cases other with
    | subscribe _ _ =>
      obtain ⟨accounts, currencies⟩ := by simpa [shape] using same
      rw [accountInjective accounts, currencies]
    | price | history => simp [shape] at same
  | price currency =>
    cases other with
    | price _ => simpa [shape] using same
    | subscribe | history => simp [shape] at same
  | history account count =>
    cases other with
    | history _ _ =>
      obtain ⟨accounts, counts⟩ := by simpa [shape] using same
      rw [accountInjective accounts, countInjective counts]
    | subscribe | price => simp [shape] at same

theorem documentExact (r : Request) : r.document.exact := by
  cases r <;> rfl

theorem documentDepth (r : Request) : r.document.depth = 1 := by
  cases r <;> rfl

theorem documentSorted (r : Request) : r.document.sorted = .object r.shape := by
  cases r <;> rfl

theorem readsShape (r : Request) : Json.parse r.text = .ok (.object r.shape) := by
  rw [← documentSorted]
  refine Json.parseReads r.documentExact ?_
  rw [documentDepth]
  decide

/-! What the text lists, before a reader puts it in order. -/

theorem writtenFlat (r : Request) : ∀ member ∈ r.written, member.2.exact ∧ member.2.depth = 0 := by
  cases r <;> simp [written, members, Address.json, Value.count, Value.exact, Value.depth]

theorem flatSorted (r : Request) : r.written.map (fun member => (member.1, member.2.sorted)) = r.written := by
  cases r <;> rfl

theorem textLists (r : Request) {count : Nat} (enough : 3 ≤ count) :
    Json.readMembers (Json.readValue 126) count (r.text.toList.drop 1) = .ok (r.written, []) := by
  have listed : Json.Listed Json.SpellsMember '}' r.written _ :=
    Json.membersListed fun member mem => Json.writtenSpells member.2 (r.writtenFlat member mem).1
  have few : r.written.length ≤ count := by
    have most : r.written.length ≤ 3 := by cases r <;> simp [written, members]
    omega
  obtain ⟨next, opens, read⟩ := Json.readMembersReads listed (List.cons_ne_nil _ _)
    (fun member mem => Json.readValueReads member.2 126 (by rw [(r.writtenFlat member mem).2]; omega)) few []
  rw [List.append_nil, Json.quoted, List.cons_append, Json.skipStands (by decide)] at opens
  rw [flatSorted, ← opens] at read
  have text : r.text.toList = _ := String.toList_ofList
  rw [text]
  exact read

theorem wireReadsBack (r : Request) :
    Json.parse r.text = .ok (.object r.shape) ∧
      ("action", .string r.action) ∈ r.shape ∧
      (∀ count, 3 ≤ count →
        Json.readMembers (Json.readValue 126) count (r.text.toList.drop 1) = .ok (r.written, [])) ∧
      (r.written.map Prod.fst).Nodup ∧
      (∀ c ∈ r.text.toList, 0x20 ≤ c.toNat) ∧
      ∀ other : Request, other.text = r.text → other = r := by
  have apart : (r.written.map Prod.fst).Nodup := by cases r <;> simp [written, members]
  refine ⟨r.readsShape, by cases r <;> simp [shape, action], fun _ => r.textLists, apart, ?_, ?_⟩
  · intro c mem
    exact Json.writtenPrintable r.document c (by simpa [text, Value.text] using mem)
  · intro other same
    have shapes := other.readsShape
    rw [same, r.readsShape] at shapes
    exact shapeInjective (Value.object.inj (Except.ok.inj shapes)).symm

end AccountWatch.Request
