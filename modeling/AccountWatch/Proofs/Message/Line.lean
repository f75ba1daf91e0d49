import AccountWatch.Message.Classify
import AccountWatch.Proofs.Json.Printing
import AccountWatch.Proofs.Json.RoundTrip

/-! The printed line of a message is one line and is read back as its kind beside its payload. The payload of an
unknown message is its document, whatever that holds. -/
namespace AccountWatch

open Json (Value Members)

theorem optionalDepth {α : Type} {write : α → Value} (flat : ∀ a, (write a).depth = 0) (a : Option α) :
    (Value.optional write a).depth = 0 := by
  cases a with
  | none => rfl
  | some a => exact flat a

theorem updateDepth (update : AccountUpdate) : update.json.depth = 1 := by
  have text (s : Option String) : (Value.optional .string s).depth = 0 := optionalDepth (fun _ => rfl) s
  have count (n : Option UInt64) : (Value.optional .count n).depth = 0 := optionalDepth (fun _ => rfl) n
  simp [AccountUpdate.json, Value.depth, Json.membersDepth, text, count]

theorem entryDepth (entry : HistoryEntry) : entry.json.depth = 1 := by
  have text (s : Option String) : (Value.optional .string s).depth = 0 := optionalDepth (fun _ => rfl) s
  simp [HistoryEntry.json, Value.depth, Json.membersDepth, text]

theorem quoteDepth (quote : Option Binary64) : (Value.optional Binary64.json quote).depth = 0 :=
  optionalDepth (fun x => by cases x <;> rfl) quote

namespace Message

theorem payloadDepth {m : Message} (known : m.kind ≠ .unknown) : m.payload.depth ≤ 3 := by
  cases m with
  | subscribe update =>
    change update.json.depth ≤ 3
    rw [updateDepth]
    decide
  | history entries =>
    have items : Json.itemsDepth (entries.map HistoryEntry.json) ≤ 1 := by
      apply Json.itemsDepthLe.mpr
      intro item mem
      obtain ⟨entry, _, rfl⟩ := List.mem_map.mp mem
      exact Nat.le_of_eq (entryDepth entry)
    change max (Json.itemsDepth (entries.map HistoryEntry.json) + 1) 0 + 1 ≤ 3
    omega
  | price currency quote =>
    simp [payload, Value.depth, Json.membersDepth, quoteDepth]
  | work result => simp [payload, Value.depth, Json.membersDepth]
  | unknown => exact (known rfl).elim

theorem envelopeSorted (m : Message) :
    m.envelope.sorted = .object [("kind", .string m.kind.text), ("message", m.payload.sorted)] := by
  have ascending : Members.Ascending [("kind", .string m.kind.text), ("message", m.payload.sorted)] :=
    List.pairwise_pair.mpr (show "kind" < "message" by decide)
  rw [envelope, Value.sorted, Json.sortedMembersMap]
  exact congrArg Value.object ascending.ofList

theorem unknownOrdered {frame : String} {document : Members}
    (decoded : decode frame = .ok (.unknown document)) : (Value.object document).Ordered := by
  unfold decode at decoded
  split at decoded
  · cases decoded
  · rename_i doc read
    have same : ofDocument doc = .unknown document := Except.ok.inj decoded
    rw [unknownDocument same]
    exact Json.parseOrders read
  · cases decoded

theorem lineReadsBack (m : Message) (exact : m.payload.exact)
    (shallow : ∀ document, m = .unknown document → (Value.object document).depth ≤ 126) :
    (∀ c ∈ m.line.toList, 0x20 ≤ c.toNat) ∧
      Json.parse m.line = .ok (.object [("kind", .string m.kind.text), ("message", m.payload.sorted)]) ∧
      ∀ document, m = .unknown document →
        (Value.object document).Ordered ∨ (∃ frame, decode frame = .ok m) →
          m.payload.sorted = .object document := by
  have depth : m.payload.depth ≤ 126 := by
    cases m with
    | unknown document => exact shallow document rfl
    | subscribe | history | price | work => exact Nat.le_trans (payloadDepth nofun) (by decide)
  have exactEnvelope : m.envelope.exact := by simpa [envelope, Value.exact, Json.membersExact] using exact
  have deep : m.envelope.depth ≤ Json.depthLimit := by
    change max 0 (max m.payload.depth 0) + 1 ≤ 127
    omega
  refine ⟨?_, ?_, ?_⟩
  · intro c mem
    exact Json.writtenPrintable m.envelope c (by simpa [line, Value.text] using mem)
  · rw [← envelopeSorted]
    exact Json.parseReads exactEnvelope deep
  · rintro document rfl (ordered | ⟨frame, decoded⟩)
    · exact ordered.sorted
    · exact (unknownOrdered decoded).sorted

theorem deepestLine :
    let nested := Nat.repeat (fun v => Value.array [v]) 124 (.array [])
    let document : Members := [("kind", .string "price \"\n\\"), ("message", nested)]
    (Value.object document).depth = 126 ∧ Json.parse (Message.unknown document).line =
      .ok (.object [("kind", .string "unknown"), ("message", .object document)]) := by
  intro nested document
  have ordered (n : Nat) : (Nat.repeat (fun v => Value.array [v]) n (.array [])).Ordered := by
    induction n with
    | zero => exact .array nofun
    | succ n ih => exact .array (List.forall_mem_cons.mpr ⟨ih, nofun⟩)
  have depth : (Value.object document).depth = 126 := by decide +kernel
  have shallow : ∀ other, Message.unknown document = .unknown other → (Value.object other).depth ≤ 126 := by
    rintro other ⟨⟩
    exact Nat.le_of_eq depth
  obtain ⟨_, read, same⟩ := lineReadsBack (.unknown document) (by decide +kernel) shallow
  have inOrder : (Value.object document).Ordered := .object (List.pairwise_pair.mpr (by decide))
    (List.forall_mem_cons.mpr ⟨.string _, List.forall_mem_cons.mpr ⟨ordered 124, nofun⟩⟩)
  rw [same document rfl (.inl inOrder)] at read
  exact ⟨depth, read⟩

end Message
end AccountWatch
