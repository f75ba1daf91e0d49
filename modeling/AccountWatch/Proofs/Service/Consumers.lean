import AccountWatch.Proofs.Service.Moves
import AccountWatch.Proofs.Service.Publications
import AccountWatch.Publisher.Filter

/-! Consumers and the session. Holders of subscriptions see the session but do not touch it: a run in which no filter
crashes is, apart from its subscriptions, the run in which nobody subscribes, and to the holder of one
subscription it is the run in which nobody else does. -/
namespace AccountWatch.Service

def sole (who : Option Nat) (s : Service) : Service := { s with publisher := s.publisher.sole who }

/-- What the others do with their subscriptions is not seen. The number of one's own is zero. -/
def Input.seen (who : Option Nat) : Input → Option Input
  | .subscribe _ => none
  | .unsubscribe n => if some n = who then some (.unsubscribe 0) else none
  | .poll n => if some n = who then some (.poll 0) else none
  | .drain n => if some n = who then some (.drain 0) else none
  | i => some i

def Input.told : Input → Reply → Option Reply
  | .publish _, _ | .subscribe _, _ | .unsubscribe _, _ => none
  | _, reply => some reply

def course (who : Option Nat) (s : Service) : List Input → List (Service × Option Reply)
  | [] => []
  | i :: rest =>
      let (t, reply) := s.step i
      if (i.seen who).isSome then (t.sole who, i.told reply) :: course who t rest else course who t rest

def trace (s : Service) : List Input → List (Service × Option Reply)
  | [] => []
  | i :: rest =>
      let (t, reply) := s.step i
      (t, i.told reply) :: trace t rest

def Calm (s : Service) : List Input → Prop
  | [] => True
  | i :: rest => s.Passes i ∧ (s.step i).1.Calm rest

def calmDecidable (s : Service) : (inputs : List Input) → Decidable (s.Calm inputs)
  | [] => isTrue trivial
  | i :: rest =>
      have := calmDecidable (s.step i).1 rest
      inferInstanceAs (Decidable (s.Passes i ∧ _))

instance (s : Service) (inputs : List Input) : Decidable (s.Calm inputs) := calmDecidable s inputs

theorem seenApart {i : Input} (apart : ¬ i.Holds) (who : Option Nat) : i.seen who = some i := by
  cases i with
  | subscribe | unsubscribe | poll | drain => exact (apart trivial).elim
  | _ => rfl

theorem toldHosting (s : Service) (p : Publisher) (crashes : List Nat) {i : Input} (apart : ¬ i.Holds) :
    i.told ((s.hosting p crashes).step i).2 = i.told (s.step i).2 := by
  cases i with
  | openUp => exact congrArg (fun r => some r.2) (hostingOpenUp s p crashes)
  | shutDown => exact congrArg (fun r => some r.2) (hostingShutDown s p crashes)
  | requestUpdate => exact congrArg (fun r => some r.2) (hostingRequestUpdate s p crashes)
  | arrive stream signals | emit stream signals =>
    exact congrArg (fun r => some (Reply.count r.2)) (hostingArrive s p crashes stream signals)
  | subscribe | unsubscribe | poll | drain => exact (apart trivial).elim
  | _ => rfl

theorem soleStep {s : Service} {i : Input} (apart : ¬ i.Holds) (passes : s.Passes i) (who : Option Nat) :
    ((s.sole who).step i).1 = (s.step i).1.sole who ∧ i.told ((s.sole who).step i).2 = i.told (s.step i).2 := by
  obtain ⟨ms, pass, publisher, same⟩ := passesPublishing apart passes
  obtain ⟨solePass, reached⟩ := Publisher.publishAllSole pass who
  refine ⟨?_, toldHosting s (s.publisher.sole who) s.crashes apart⟩
  calc ((s.sole who).step i).1
    _ = (s.step i).1.hosting ((s.publisher.sole who).publishAll ms) s.crashes := same _ s.crashes solePass
    _ = (s.step i).1.hosting ((s.step i).1.publisher.sole who) (s.step i).1.crashes := by
      rw [reached, publisher, passes.1]
    _ = (s.step i).1.sole who := rfl

theorem soleOwn {s : Service} {i j : Input} {who : Option Nat} (holds : i.Holds) (seen : i.seen who = some j) :
    ((s.sole who).step j).1 = (s.step i).1.sole who ∧ j.told ((s.sole who).step j).2 = i.told (s.step i).2 := by
  cases i with
  | subscribe filter => cases seen
  | unsubscribe n =>
    obtain ⟨rfl, ⟨⟩⟩ := Option.ite_none_right_eq_some.mp seen
    exact ⟨congrArg (fun publisher => { s with publisher }) (Publisher.unsubscribeSole s.publisher n).symm, rfl⟩
  | poll n =>
    obtain ⟨rfl, ⟨⟩⟩ := Option.ite_none_right_eq_some.mp seen
    have polled := Publisher.pollSole s.publisher n
    refine ⟨congrArg (fun r : Publisher × Poll => { s with publisher := r.1 }) polled, ?_⟩
    change some (Reply.poll ((s.publisher.sole (some n)).poll 0).2) = some (Reply.poll (s.publisher.poll n).2)
    rw [polled]
  | drain n =>
    obtain ⟨rfl, ⟨⟩⟩ := Option.ite_none_right_eq_some.mp seen
    have drained := Publisher.drainSole s.publisher n
    exact ⟨congrArg (fun r : Publisher × List Message => { s with publisher := r.1 }) drained,
      congrArg (fun r : Publisher × List Message => some (Reply.messages r.2)) drained⟩
  | _ => exact holds.elim

theorem soleOther {s : Service} {i : Input} {who : Option Nat} (made : ∀ n, who = some n → n < s.publisher.created)
    (unseen : i.seen who = none) : (s.step i).1.sole who = s.sole who := by
  cases i with
  | subscribe filter =>
    have other : some s.publisher.created ≠ who := fun same => Nat.lt_irrefl _ (made _ same.symm)
    exact congrArg (fun publisher => { s with publisher }) (Publisher.subscribeSoleOther other filter)
  | unsubscribe n =>
    have other : some n ≠ who := by simpa [Input.seen] using unseen
    exact congrArg (fun publisher => { s with publisher })
      (Publisher.updateSoleOther s.publisher other (f := fun x => { x with live := false, queue := [] }) fun _ => rfl)
  | poll n =>
    have other : some n ≠ who := by simpa [Input.seen] using unseen
    exact congrArg (fun publisher => { s with publisher }) (Publisher.pollSoleOther s.publisher other)
  | drain n =>
    have other : some n ≠ who := by simpa [Input.seen] using unseen
    exact congrArg (fun publisher => { s with publisher })
      (Publisher.updateSoleOther s.publisher other (f := fun x => { x with queue := [] }) fun _ => rfl)
  | _ => cases unseen

theorem stepNumbered {s : Service} {i : Input} (passes : s.Passes i) (numbered : s.publisher.Numbered) :
    (s.step i).1.publisher.Numbered ∧ s.publisher.created ≤ (s.step i).1.publisher.created := by
  by_cases holds : i.Holds
  · cases i with
    | subscribe filter => exact ⟨numbered.subscribe filter, Nat.le_succ _⟩
    | unsubscribe n => exact ⟨numbered.update n fun _ => rfl, Nat.le_refl _⟩
    | poll n =>
      change (s.publisher.poll n).1.Numbered ∧ s.publisher.created ≤ (s.publisher.poll n).1.created
      unfold Publisher.poll
      split
      · exact ⟨numbered, Nat.le_refl _⟩
      · exact ⟨numbered.update n fun _ => rfl, Nat.le_refl _⟩
    | drain n => exact ⟨numbered.update n fun _ => rfl, Nat.le_refl _⟩
    | _ => exact holds.elim
  · obtain ⟨ms, _, publisher, _⟩ := passesPublishing holds passes
    obtain ⟨after, created⟩ := Publisher.publishAllNumbered numbered ms
    rw [publisher]
    exact ⟨after, Nat.le_of_eq created.symm⟩

structure Serves (s : Service) (who : Option Nat) : Prop where
  made : ∀ n, who = some n → n < s.publisher.created
  numbered : s.publisher.Numbered

theorem Serves.step {s : Service} {who : Option Nat} {i : Input} (serves : s.Serves who) (passes : s.Passes i) :
    (s.step i).1.Serves who := by
  obtain ⟨numbered, later⟩ := stepNumbered passes serves.numbered
  exact ⟨fun n same => Nat.lt_of_lt_of_le (serves.made n same) later, numbered⟩

theorem seenStep {s : Service} {who : Option Nat} {i j : Input} (passes : s.Passes i) (seen : i.seen who = some j) :
    ((s.sole who).step j).1 = (s.step i).1.sole who ∧ j.told ((s.sole who).step j).2 = i.told (s.step i).2 := by
  by_cases holds : i.Holds
  · exact soleOwn holds seen
  · obtain rfl : i = j := Option.some.inj ((seenApart holds who).symm.trans seen)
    exact soleStep holds passes who

theorem courseAlone {s : Service} {who : Option Nat} (serves : s.Serves who) {inputs : List Input}
    (calm : s.Calm inputs) : s.course who inputs = (s.sole who).trace (inputs.filterMap (Input.seen who)) := by
  induction inputs generalizing s with
  | nil => rfl
  | cons i rest ih =>
    obtain ⟨passes, later⟩ := calm
    have remaining := ih (serves.step passes) later
    unfold course
    dsimp only
    cases seen : i.seen who with
    | none =>
      rw [List.filterMap_cons_none seen, ← soleOther serves.made seen]
      exact remaining
    | some j =>
      obtain ⟨reached, told⟩ := seenStep passes seen
      rw [List.filterMap_cons_some seen, trace]
      dsimp only
      rw [reached, told, ← remaining]
      rfl

theorem runAlone {s : Service} {who : Option Nat} (serves : s.Serves who) {inputs : List Input}
    (calm : s.Calm inputs) :
    (s.run inputs).sole who = (s.sole who).run (inputs.filterMap (Input.seen who)) ∧ (s.run inputs).Serves who := by
  induction inputs generalizing s with
  | nil => exact ⟨rfl, serves⟩
  | cons i rest ih =>
    obtain ⟨passes, later⟩ := calm
    obtain ⟨same, after⟩ := ih (serves.step passes) later
    refine ⟨?_, after⟩
    rw [runCons, same]
    cases seen : i.seen who with
    | none => rw [List.filterMap_cons_none seen, soleOther serves.made seen]
    | some j => rw [List.filterMap_cons_some seen, runCons, (seenStep passes seen).1]

theorem startServes (account : Option Address) (currency : String) (fallback : UInt64) :
    (start account currency fallback).Serves none := ⟨nofun, Publisher.emptyLists.numbered⟩

theorem calmAppend {s : Service} {left right : List Input} :
    s.Calm (left ++ right) ↔ s.Calm left ∧ (s.run left).Calm right := by
  induction left generalizing s with
  | nil => exact (iff_of_eq (true_and _)).symm
  | cons i left ih => simp only [List.cons_append, Calm, runCons, ih, and_assoc]

theorem Serves.subscribed {s : Service} {who : Option Nat} (serves : s.Serves who) (filter : Filter) :
    (s.step (.subscribe filter)).1.Serves (some s.publisher.created) := by
  refine ⟨?_, serves.numbered.subscribe filter⟩
  rintro n ⟨⟩
  exact Nat.lt_succ_self _

theorem soleSubscribed {s : Service} (numbered : s.publisher.Numbered) (filter : Filter) :
    (s.step (.subscribe filter)).1.sole (some s.publisher.created) = { s.sole none with
      publisher := { (s.sole none).publisher with subscribers := [⟨0, filter, true, []⟩] } } :=
  congrArg (fun publisher => { s with publisher }) (Publisher.subscribeSole numbered filter)

theorem consumersApart (account : Option Address) (currency : String) (fallback : UInt64) {left right : List Input}
    (leftCalm : (start account currency fallback).Calm left)
    (rightCalm : (start account currency fallback).Calm right)
    (same : left.filterMap (Input.seen none) = right.filterMap (Input.seen none)) :
    let s := start account currency fallback
    s.course none left = s.course none right ∧
      ∀ (filter : Filter) (before after before' after' : List Input),
        left = before ++ .subscribe filter :: after → right = before' ++ .subscribe filter :: after' →
        before.filterMap (Input.seen none) = before'.filterMap (Input.seen none) →
        let t := s.run before
        let t' := s.run before'
        after.filterMap (Input.seen (some t.publisher.created)) =
            after'.filterMap (Input.seen (some t'.publisher.created)) →
          (t.step (.subscribe filter)).1.course (some t.publisher.created) after =
            (t'.step (.subscribe filter)).1.course (some t'.publisher.created) after' := by
  intro s
  have serves := startServes account currency fallback
  refine ⟨?_, ?_⟩
  · rw [courseAlone serves leftCalm, courseAlone serves rightCalm, same]
  · rintro filter before after before' after' rfl rfl together t t' own
    obtain ⟨calm, _, calmAfter⟩ := calmAppend.mp leftCalm
    obtain ⟨calm', _, calmAfter'⟩ := calmAppend.mp rightCalm
    obtain ⟨reached, served⟩ := runAlone serves calm
    obtain ⟨reached', served'⟩ := runAlone serves calm'
    have alike : t.sole none = t'.sole none := by rw [reached, reached', together]
    have subscribed : (t.step (.subscribe filter)).1.sole (some t.publisher.created) =
        (t'.step (.subscribe filter)).1.sole (some t'.publisher.created) := by
      rw [soleSubscribed served.numbered, soleSubscribed served'.numbered, alike]
    rw [courseAlone (served.subscribed filter) calmAfter, courseAlone (served'.subscribed filter) calmAfter',
      subscribed, own]

theorem everythingAmongOthers :
    let s := start (some ⟨"account"⟩) "USD" 10
    let signals : List Signal := [.opened, .frame "\x7b\"work\":\"a\"\x7d"]
    let before : List Input := [.openUp]
    let before' : List Input := [.subscribe (.ofKind .price), .openUp, .unsubscribe 0]
    let after : List Input := [.holdSends, .emit 1 signals, .poll 0, .subscribe (.crashOn .history), .releaseSends,
      .publish (.work "b"), .poll 1, .drain 0, .shutDown]
    let after' : List Input := [.holdSends, .emit 1 signals, .poll 1, .releaseSends, .publish (.work "b"), .drain 1,
      .subscribe .everything, .shutDown, .drain 2]
    let left := before ++ .subscribe .everything :: after
    let right := before' ++ .subscribe .everything :: after'
    (s.Calm left ∧ s.Calm right) ∧ s.course none left = s.course none right ∧
      ((s.run (before ++ [.subscribe .everything])).course (some 0) after).map Prod.snd =
        ((s.run (before' ++ [.subscribe .everything])).course (some 1) after').map Prod.snd ∧
      some (Reply.messages [.work "a", .work "b"]) ∈
        ((s.run (before ++ [.subscribe .everything])).course (some 0) after).map Prod.snd := by
  intro s signals before before' after after' left right
  have calm : s.Calm left ∧ s.Calm right := by decide +kernel
  obtain ⟨session, own⟩ := consumersApart (some ⟨"account"⟩) "USD" 10 calm.1 calm.2 rfl
  have received := own .everything before after before' after' rfl rfl rfl rfl
  refine ⟨calm, session, congrArg (List.map Prod.snd) received, ?_⟩
  decide +kernel

-- a filter that crashes takes the listener with it, and with it what the stream had left for the session
example :
    let s := start none "USD" 10
    let signals : List Signal := [.opened, .frame "\x7b\"work\":\"a\"\x7d",
      .frame "\x7b\"frontier\":\"b\",\"block_count\":5\x7d"]
    (s.run [.openUp, .emit 1 signals]).session.blockCount = some 5 ∧
      (s.run [.subscribe (.crashOn .work), .openUp, .emit 1 signals]).session.blockCount = none := by
  decide +kernel

end AccountWatch.Service
