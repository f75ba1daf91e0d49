import AccountWatch.Publisher.Filter
import AccountWatch.Proofs.Service.Connection
import AccountWatch.Proofs.Service.Publications

/-! A service with one subscription, which refuses nothing. What it publishes when it is only listened to is the
message in each frame that a listener handles, and all of it waits for the subscription. No filter
crashes there. -/
namespace AccountWatch

namespace Publisher

def solo (queue : List Message) : Publisher := ⟨1, [⟨0, Filter.everything, true, queue⟩], false⟩

theorem soloPublish (queue : List Message) (m : Message) :
    (solo queue).publish m = (solo (queue ++ [m]), .delivered 1) := rfl

theorem soloPoll (queue : List Message) : (solo queue).poll 0 = match queue with
    | [] => (solo [], .pending)
    | m :: rest => (solo rest, .message m) := by
  cases queue <;> rfl

end Publisher

namespace Service

def Input.Outside : Input → Prop
  | .arrive _ _ | .cut _ | .turn _ | .answerSend _ | .failSends _ | .holdSends | .grantSends _ | .freeSends => True
  | _ => False

def next? (s : Service) (stream : Nat) : Option Message :=
  match s.listener? stream with
  | some ⟨_, .frame text :: _, _⟩ =>
      if s.suspended stream = false ∧ s.phase.active then (Message.decode text).toOption else none
  | _ => none

def news (s : Service) : Input → List Message
  | .turn stream => (s.next? stream).toList
  | _ => []

theorem unpublished {f : Service → Service} {s : Service}
    (blind : ∀ p crashes, f (s.hosting p crashes) = (f s).hosting p crashes) :
    (f s).publisher = s.publisher ∧ (f s).crashes = s.crashes := by
  have kept : f s = (f s).hosting s.publisher s.crashes := blind s.publisher s.crashes
  exact ⟨(congrArg Service.publisher kept).trans rfl, (congrArg Service.crashes kept).trans rfl⟩

theorem nextFrame {s : Service} {stream : Nat} {m : Message} (next : s.next? stream = some m) :
    ∃ text rest ended, s.listener? stream = some ⟨stream, .frame text :: rest, ended⟩ ∧
      s.suspended stream = false ∧ s.phase.active ∧ Message.decode text = .ok m := by
  unfold next? at next
  split at next
  · rename_i own text rest ended found
    split at next
    · rename_i turn
      obtain rfl : own = stream := (readerOfListener found).1
      cases decoded : Message.decode text with
      | error cause => simp [decoded, Except.toOption] at next
      | ok message =>
        obtain rfl : message = m := by simpa [decoded, Except.toOption] using next
        exact ⟨text, rest, ended, found, turn.1, turn.2, decoded⟩
    · cases next
  · cases next

theorem frameNext {s : Service} {stream : Nat} {text : String} {rest : List Signal} {ended : Bool} {m : Message}
    (found : s.listener? stream = some ⟨stream, .frame text :: rest, ended⟩) (ready : s.suspended stream = false)
    (active : s.phase.active) (good : Message.decode text = .ok m) : s.next? stream = some m := by
  unfold next?
  rw [found]
  simp [ready, active, good, Except.toOption]

theorem turnNews {s : Service} {queue : List Message} (solo : s.publisher = .solo queue) (stream : Nat) :
    (s.turn stream).publisher = .solo (queue ++ s.news (.turn stream)) ∧ (s.turn stream).crashes = s.crashes := by
  cases next : s.next? stream with
  | some m =>
    obtain ⟨text, rest, ended, found, ready, active, good⟩ := nextFrame next
    have published : s.publisher.publish m = (.solo (queue ++ [m]), .delivered 1) := by
      rw [solo, Publisher.soloPublish]
    have taken : s.turn stream = _ := turnReady found ready
      (takeMessage (s := s.setQueue stream rest) stream active good
        (show (s.publisher.publish m).2 ≠ .crashed by rw [published]; nofun))
    rw [taken, news, next]
    exact ⟨congrArg Prod.fst published, rfl⟩
  | none =>
    have silent := unpublished (f := (turn · stream)) fun p crashes => hostingTurn s p crashes stream
      fun text rest ended found ready active => by
        cases decoded : Message.decode text with
        | error cause => exact ⟨cause, rfl⟩
        | ok m => cases next.symm.trans (frameNext found ready active decoded)
    rw [news, next]
    exact ⟨by simpa [solo] using silent.1, silent.2⟩

theorem outsideNews {s : Service} {queue : List Message} (solo : s.publisher = .solo queue) {i : Input}
    (outside : i.Outside) :
    (s.step i).1.publisher = .solo (queue ++ s.news i) ∧ (s.step i).1.crashes = s.crashes := by
  have quiet {t : Service} (kept : t.publisher = s.publisher ∧ t.crashes = s.crashes) :
      t.publisher = .solo (queue ++ []) ∧ t.crashes = s.crashes := by
    rw [List.append_nil]
    exact ⟨kept.1.trans solo, kept.2⟩
  cases i with
  | turn stream => exact turnNews solo stream
  | arrive stream signals =>
    exact quiet (unpublished (f := fun s => (s.arrive stream signals).1)
      fun p crashes => congrArg Prod.fst (hostingArrive s p crashes stream signals))
  | answerSend caller =>
    exact quiet (unpublished (f := (answerSend · caller)) fun p crashes => hostingAnswerSend s p crashes caller)
  | cut | failSends | holdSends | grantSends | freeSends => exact quiet ⟨rfl, rfl⟩
  | _ => exact outside.elim

end Service

end AccountWatch
