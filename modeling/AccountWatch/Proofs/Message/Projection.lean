import AccountWatch.Message.Classify
import AccountWatch.Proofs.Json.Order
import Mathlib.Algebra.Group.Nat.Defs

/-! Classification is a projection: the payload of a classified message, as a reader keeps it, is classified as that
message. Every field is written so that its own reader finds it again, and no payload has a key that names an
earlier kind. A price that is not finite is the exception, since it is written as null. -/
namespace AccountWatch

open Json (Value Members)

theorem textFieldGives {doc : Members} {key : String} (text : Option String)
    (held : doc.lookup key = some (Value.optional .string text).sorted) : textField doc key = text := by
  unfold textField
  rw [held]
  cases text <;> rfl

theorem countFieldGives {doc : Members} {key : String} (count : Option UInt64)
    (held : doc.lookup key = some (Value.optional .count count).sorted) : countField doc key = count := by
  unfold countField
  rw [held]
  cases count with
  | none => rfl
  | some n => exact Json.Integer.countOfCount n

theorem realFieldGives {doc : Members} {key : String} {quote : Option Binary64}
    (finite : ∀ x, quote = some x → x ≠ .nan ∧ ∀ negative, x ≠ .infinite negative)
    (held : doc.lookup key = some (Value.optional Binary64.json quote).sorted) : realField doc key = quote := by
  unfold realField
  rw [held]
  cases quote with
  | none => rfl
  | some x =>
    obtain ⟨number, bounded⟩ := finite x rfl
    cases x with
    | nan => exact (number rfl).elim
    | infinite negative => exact (bounded negative rfl).elim
    | finite negative units => rfl

theorem entryAgain (entry : HistoryEntry) : HistoryEntry.ofValue? entry.json.sorted = some entry := by
  change some (HistoryEntry.mk _ _ _ _) = _
  rw [textFieldGives entry.kind rfl, textFieldGives entry.account rfl, textFieldGives entry.amount rfl,
    textFieldGives entry.hash rfl]

namespace Message

def held (m : Message) : Members :=
  match m.payload.sorted with
  | .object doc => doc
  | _ => []

theorem payloadHeld (m : Message) : m.payload.sorted = .object m.held := by
  cases m <;> rfl

theorem updateAgain (update : AccountUpdate) : AccountUpdate.ofDocument (held (.subscribe update)) = update := by
  unfold AccountUpdate.ofDocument
  rw [textFieldGives (some update.frontier) rfl, countFieldGives update.blockCount rfl,
    textFieldGives update.account rfl, textFieldGives update.balance rfl, textFieldGives update.pending rfl,
    textFieldGives update.representative rfl, textFieldGives update.openBlock rfl]
  rfl

theorem entriesAgain (entries : List HistoryEntry) : historyEntries (held (.history entries)) = entries := by
  change (Json.sortedItems (entries.map HistoryEntry.json)).filterMap HistoryEntry.ofValue? = entries
  rw [Json.sortedItemsMap, List.map_map, List.filterMap_map]
  have each : HistoryEntry.ofValue? ∘ Value.sorted ∘ HistoryEntry.json = some := funext entryAgain
  rw [each, List.filterMap_some]

theorem knownAgain {m : Message} (known : m.kind ≠ .unknown)
    (finite : ∀ currency x, m = .price currency (some x) → x ≠ .nan ∧ ∀ negative, x ≠ .infinite negative) :
    ofDocument m.held = m := by
  cases m with
  | subscribe update => exact congrArg Message.subscribe (updateAgain update)
  | history entries => exact congrArg Message.history (entriesAgain entries)
  | price currency quote =>
    have quoted : ∀ x, quote = some x → x ≠ .nan ∧ ∀ negative, x ≠ .infinite negative := by
      rintro x rfl
      exact finite currency x rfl
    change price _ _ = _
    rw [textFieldGives (some currency) rfl, realFieldGives quoted rfl]
    rfl
  | work result =>
    change work _ = _
    rw [textFieldGives (some result) rfl]
    rfl
  | unknown => exact (known rfl).elim

theorem classifiedAgain (doc : Members) (ordered : (Value.object doc).Ordered)
    (finite : ∀ currency x, ofDocument doc = .price currency (some x) →
      x ≠ .nan ∧ ∀ negative, x ≠ .infinite negative) :
    ∃ again : Members, (ofDocument doc).payload.sorted = .object again ∧
      ofDocument again = ofDocument doc := by
  refine ⟨(ofDocument doc).held, payloadHeld _, ?_⟩
  by_cases known : (ofDocument doc).kind = .unknown
  · obtain ⟨document, same⟩ : ∃ document, ofDocument doc = .unknown document := by
      cases classified : ofDocument doc with
      | unknown document => exact ⟨document, rfl⟩
      | subscribe | history | price | work => simp [classified, kind] at known
    obtain rfl := unknownDocument same
    have kept : (ofDocument document).held = document := by
      have held := payloadHeld (ofDocument document)
      rw [same] at held ⊢
      exact Value.object.inj (held.symm.trans ordered.sorted)
    rw [kept]
  · exact knownAgain known finite

theorem quotedPrice :
    let doc : Members := [("currency", .number (.integer ⟨7, by decide, by decide⟩)),
      ("price", .string " 25e-1\n"), ("work", .null)]
    ofDocument doc = .price "7" (some (.finite false (5 * 2 ^ 1073))) ∧
      ∃ again : Members, (ofDocument doc).payload.sorted = .object again ∧
        ofDocument again = ofDocument doc := by
  intro doc
  have classified : ofDocument doc = .price "7" (some (.finite false (5 * 2 ^ 1073))) := by decide +kernel
  have ascending : Members.Ascending doc :=
    show List.Pairwise (· < ·) ["currency", "price", "work"] by decide
  have ordered : (Value.object doc).Ordered := .object ascending
    (List.forall_mem_cons.mpr ⟨.number _, List.forall_mem_cons.mpr ⟨.string _,
      List.forall_mem_cons.mpr ⟨.null, nofun⟩⟩⟩)
  refine ⟨classified, classifiedAgain doc ordered ?_⟩
  intro currency x same
  obtain ⟨_, ⟨⟩⟩ := Message.price.inj (classified.symm.trans same)
  exact ⟨nofun, fun _ => nofun⟩

end Message
end AccountWatch
