import AccountWatch.Proofs.Service.Bystanders
import AccountWatch.Proofs.Service.Soundness

/-! A call that asks for an update, from the moment it is made to its return. Its requests are settled in order,
however long each of them waits and whoever else does what meanwhile; when the last one is settled it
returns, once, how many were accepted, and the others have been reported one by one. -/
namespace AccountWatch

theorem filterErasedOwn {α : Type} (p : α → Bool) (xs : List α) : (xs.eraseP p).filter p = (xs.filter p).tail := by
  induction xs with
  | nil => rfl
  | cons x rest ih =>
    cases own : p x with
    | true => rw [List.eraseP_cons_of_pos own, List.filter_cons_of_pos own, List.tail_cons]
    | false =>
      rw [List.eraseP_cons_of_neg (by simp [own]), List.filter_cons_of_neg (by simp [own]),
        List.filter_cons_of_neg (by simp [own]), ih]

inductive Stands (requests : List Request) (settled : List Settlement) : List Burst → Option Nat → Prop where
  | waits {b : Burst} (order : settled.map Settlement.request ++ b.current :: b.rest = requests)
      (counted : b.accepted = settled.countP Settlement.accepted) : Stands requests settled [b] none
  | through (order : settled.map Settlement.request = requests) :
      Stands requests settled [] (some (settled.countP Settlement.accepted))

def Returned (number : Nat) (reply : Service.Reply) (outcomes : List Outcome) : Option Nat → Prop
  | none => reply = .pending number ∧ outcomes = []
  | some count => reply = .ended (.accepted count) ∧ outcomes = [] ∨
      reply = .pending number ∧ outcomes = [.accepted count]

theorem requestsAnswered (t : Transport) (caller : Caller) (taken : List Request) :
    (taken.map (t.answer caller)).map Settlement.request = taken := by
  rw [List.map_map]
  exact List.map_id taken

namespace Service

theorem Delivers.own {number : Nat} {taken : List Request} {s t : Service}
    (delivers : Delivers (.call number) taken s t) :
    t.settledOf number = s.settledOf number ++ taken.map (s.transport.answer (.call number)) := by
  have all : (taken.map (s.transport.answer (.call number))).filter (fun x => x.handed.caller = .call number) =
      taken.map (s.transport.answer (.call number)) := by
    refine List.filter_eq_self.mpr fun x mem => ?_
    obtain ⟨r, _, rfl⟩ := List.mem_map.mp mem
    exact decide_eq_true rfl
  unfold settledOf
  rw [delivers.settled, List.filter_append, all]

theorem Sends.stands {number accepted : Nat} {requests rest : List Request} {s t : Service} {count : Option Nat}
    (sends : Sends (.call number) accepted rest s t count)
    (order : (s.settledOf number).map Settlement.request ++ rest = requests)
    (counted : accepted = (s.settledOf number).countP Settlement.accepted) (idle : s.burstsOf number = []) :
    Stands requests (t.settledOf number) (t.burstsOf number) count := by
  subst counted
  cases sends with
  | all delivers bursts =>
    have own := delivers.own
    have still : t.burstsOf number = [] := (congrArg (List.filter _) bursts).trans idle
    rw [← List.countP_append, ← own, still]
    refine .through ?_
    rw [own, List.map_append, requestsAnswered, order]
  | @halts taken later current split delivers bursts =>
    have own := delivers.own
    rw [← List.countP_append, ← own] at bursts
    have waits : t.burstsOf number =
        [⟨.call number, current, later, (t.settledOf number).countP Settlement.accepted⟩] := by
      unfold burstsOf at idle ⊢
      rw [bursts, List.filter_append, idle]
      simp
    rw [waits]
    refine .waits ?_ rfl
    rw [own, List.map_append, requestsAnswered, List.append_assoc, ← split, order]

def Balanced (s : Service) : Prop := s.failures = s.settled.filterMap Settlement.complaint?

theorem Aside.balanced {number : Nat} {s t : Service} (aside : Aside number s t) (balanced : s.Balanced) :
    t.Balanced := by
  obtain ⟨news, settled, failures, _⟩ := aside.settles
  unfold Balanced
  rw [failures, settled, List.filterMap_append, balanced]

theorem Delivers.balanced {caller : Caller} {taken : List Request} {s t : Service}
    (delivers : Delivers caller taken s t) (balanced : s.Balanced) : t.Balanced := by
  unfold Balanced
  rw [delivers.failures, delivers.settled, List.filterMap_append, balanced]

theorem outcomesFinish (s : Service) (number : Nat) (outcome : Outcome) :
    (s.finish number outcome).outcomesOf number = s.outcomesOf number ++ [outcome] := by
  simp [outcomesOf, finish]

structure Underway (number : Nat) (requests : List Request) (reply : Reply) (s : Service) : Prop where
  known : number ≤ s.calls
  apart : s.Apart number
  balanced : s.Balanced
  stands : ∃ count, Stands requests (s.settledOf number) (s.burstsOf number) count ∧
    Returned number reply (s.outcomesOf number) count

variable {number : Nat} {requests : List Request} {reply : Reply}

theorem Underway.aside {s t : Service} (underway : Underway number requests reply s) (calls : s.calls ≤ t.calls)
    (aside : Aside number s t) : Underway number requests reply t := by
  refine ⟨Nat.le_trans underway.known calls, aside.apart, aside.balanced underway.balanced, ?_⟩
  rw [aside.settled, aside.bursts, aside.outcomes]
  exact underway.stands

theorem Underway.answer {s : Service} (underway : Underway number requests reply s) :
    Underway number requests reply (s.answerSend (.call number)) := by
  rcases answerSends s (.call number) with ⟨_, same⟩ | ⟨b, t, count, found, sends, same⟩
  · exact same.symm ▸ underway
  · obtain ⟨known, apart, balanced, before, stands, returned⟩ := underway
    obtain ⟨taken, delivers⟩ := sends.delivers
    have waiting : (s.burstsOf number).head? = some b := by
      rw [burstsOf, List.head?_filter]
      exact found
    have idle : (s.bursts.eraseP fun b => b.caller = .call number).filter (fun b => b.caller = .call number) =
        (s.burstsOf number).tail := filterErasedOwn _ _
    generalize s.burstsOf number = bursts at stands waiting idle
    cases stands with
    | through => cases waiting
    | waits order counted =>
      obtain rfl := Option.some.inj waiting
      have stands := sends.stands order counted idle
      have outcomes : t.outcomesOf number = [] := by
        rw [← returned.2]
        unfold outcomesOf
        rw [delivers.finished]
      have calls : number ≤ t.calls := delivers.calls ▸ known
      have apart := delivers.apart (s := { s with bursts := _ }) ⟨apart.connecting, apart.entrants, apart.closings⟩
      have balanced := delivers.balanced balanced
      rw [same]
      cases count with
      | none => exact ⟨calls, apart, balanced, none, stands, returned.1, outcomes⟩
      | some count =>
        have ended : (t.finish number (.accepted count)).outcomesOf number = [.accepted count] := by
          rw [outcomesFinish, outcomes]
          rfl
        exact ⟨calls, ⟨apart.connecting, apart.entrants, apart.closings⟩, balanced, some count, stands,
          .inr ⟨returned.1, ended⟩⟩

theorem Effect.calls {s t : Service} {i : Input} (effect : Effect s i t) : s.calls ≤ t.calls := by
  have same {a : Traffic} (kept : t.traffic = a) (calls : a.calls = s.calls) : s.calls ≤ t.calls :=
    Nat.le_of_eq ((congrArg Traffic.calls kept).trans calls).symm
  cases effect with
  | quiet _ quiets => exact quiets.kept.calls
  | deed _ deed =>
    cases deed with
    | quiet quiet => exact quiet.kept.calls
    | answer _ _ _ hands | establish _ _ _ _ _ hands => exact Nat.le_of_eq hands.kept.2.symm
    | detach _ _ _ _ _ traffic => exact same traffic rfl
  | asks asks => exact Nat.le_of_succ_le (Nat.le_of_eq asks.hands.kept.2.symm)
  | leaves leaves quiets => exact (leaves.kept.trans quiets.kept).calls

theorem Underway.move {s : Service} (underway : Underway number requests reply s) (sound : s.Sound) {i : Input}
    (single : i.Single) : Underway number requests reply (s.step i).1 := by
  have calls := (moveEffect sound.stage single).calls
  by_cases answer : i = .answerSend (.call number)
  · subst answer
    exact underway.answer
  · exact underway.aside calls (moveAside single underway.apart (.inl underway.known) answer)

theorem Underway.run {s : Service} (underway : Underway number requests reply s) (sound : s.Sound)
    (later : List Input) : Underway number requests reply (s.run later) := by
  obtain ⟨moves, unwinds⟩ := unwound s later
  rw [← unwinds.reaches]
  have single := unwinds.singles
  clear unwinds
  induction moves generalizing s with
  | nil => exact underway
  | cons i rest ih =>
    obtain ⟨first, single⟩ := List.forall_mem_cons.mp single
    exact ih (underway.move sound first) (runSound sound [i]) single

structure Unmade (number : Nat) (s : Service) : Prop where
  apart : s.Apart number
  settled : s.settledOf number = []
  bursts : s.burstsOf number = []
  outcomes : s.outcomesOf number = []

structure Numbered (s : Service) : Prop where
  sound : s.Sound
  balanced : s.Balanced
  unmade : ∀ number, s.calls < number → Unmade number s

theorem Numbered.move {s : Service} (numbered : s.Numbered) {i : Input} (single : i.Single) :
    (s.step i).1.Numbered := by
  have calls := (moveEffect numbered.sound.stage single).calls
  have aside (number : Nat) (new : (s.step i).1.calls < number) : Aside number s (s.step i).1 := by
    have unmade := numbered.unmade number (Nat.lt_of_le_of_lt calls new)
    by_cases answer : i = .answerSend (.call number)
    · subst answer
      have still : s.answerSend (.call number) = s := by
        rcases answerSends s (.call number) with ⟨_, same⟩ | ⟨b, _, _, found, _⟩
        · exact same
        · rw [← List.head?_filter] at found
          cases found.symm.trans (congrArg List.head? unmade.bursts)
      change Aside number s (s.answerSend (.call number))
      rw [still]
      exact Spares.aside ⟨rfl, unmade.apart⟩
    · exact moveAside single unmade.apart (.inr new) answer
  refine ⟨runSound numbered.sound [i], (aside _ (Nat.lt_succ_self _)).balanced numbered.balanced, ?_⟩
  intro number new
  obtain ⟨_, settled, bursts, outcomes⟩ := numbered.unmade number (Nat.lt_of_le_of_lt calls new)
  have left := aside number new
  exact ⟨left.apart, left.settled.trans settled, left.bursts.trans bursts, left.outcomes.trans outcomes⟩

theorem startNumbered (account : Option Address) (currency : String) (fallback : UInt64) :
    (start account currency fallback).Numbered :=
  ⟨startSound account currency fallback, rfl, fun _ _ => ⟨⟨nofun, nofun, nofun⟩, rfl, rfl, rfl⟩⟩

theorem Numbered.run {s : Service} (numbered : s.Numbered) (inputs : List Input) : (s.run inputs).Numbered := by
  obtain ⟨moves, unwinds⟩ := unwound s inputs
  rw [← unwinds.reaches]
  have single := unwinds.singles
  clear unwinds
  induction moves generalizing s with
  | nil => exact numbered
  | cons i rest ih =>
    obtain ⟨first, single⟩ := List.forall_mem_cons.mp single
    exact ih (numbered.move first) single

theorem requestUnset {s : Service} (unset : s.session.address = none) : s.requestUpdate =
    (({ s with calls := s.calls + 1 } : Service).asking (.call (s.calls + 1)), .ended (.failed .addressUnset)) := by
  unfold requestUpdate
  dsimp only
  rw [updateUnset (s := { s with calls := s.calls + 1 }) unset]

theorem requestSends {s : Service} (known : s.session.requests? s.currency = some requests) :
    ∃ count, Sends (.call (s.calls + 1)) 0 requests { s with calls := s.calls + 1 } s.requestUpdate.1 count ∧
      s.requestUpdate.2 = match count with
        | none => .pending (s.calls + 1)
        | some n => .ended (.accepted n) := by
  obtain ⟨count, sends, outcome⟩ := updateSends (s := { s with calls := s.calls + 1 }) known (.call (s.calls + 1))
  refine ⟨count, ?_⟩
  unfold requestUpdate
  dsimp only
  split <;> rename_i same <;> rw [same] at sends outcome <;> cases count <;> cases outcome <;> exact ⟨sends, rfl⟩

structure Proceeds (number : Nat) (s t : Service) : Prop where
  connection : t.connection = s.connection
  session : t.session = s.session
  publisher : t.publisher = s.publisher
  sends : ∃ taken : List Request, t.settled = s.settled ++ taken.map (s.transport.answer (.call number)) ∧
    t.reports = s.reports ++ (taken.map (s.transport.answer (.call number))).filterMap Settlement.complaint?

theorem Delivers.proceeds {taken : List Request} {s t : Service} (delivers : Delivers (.call number) taken s t) :
    Proceeds number s t :=
  ⟨delivers.connection, delivers.session, delivers.publisher, taken, delivers.settled, delivers.reports⟩

theorem requestProceeds (s : Service) : Proceeds (s.calls + 1) s s.requestUpdate.1 := by
  cases known : s.session.requests? s.currency with
  | none =>
    rw [requestUnset (Option.map_eq_none_iff.mp known)]
    exact ⟨rfl, rfl, rfl, [], (List.append_nil _).symm, (List.append_nil _).symm⟩
  | some requests =>
    obtain ⟨count, sends, _⟩ := requestSends known
    obtain ⟨taken, delivers⟩ := sends.delivers
    obtain ⟨connection, session, publisher, taken, settled, reports⟩ := delivers.proceeds
    exact ⟨connection, session, publisher, taken, settled, reports⟩

theorem answerProceeds (s : Service) (number : Nat) : Proceeds number s (s.answerSend (.call number)) := by
  rcases answerSends s (.call number) with ⟨_, same⟩ | ⟨b, t, count, _, sends, same⟩
  · rw [same]
    exact ⟨rfl, rfl, rfl, [], (List.append_nil _).symm, (List.append_nil _).symm⟩
  · obtain ⟨taken, delivers⟩ := sends.delivers
    obtain ⟨connection, session, publisher, taken, settled, reports⟩ := delivers.proceeds
    rw [same]
    cases count <;> exact ⟨connection, session, publisher, taken, settled, reports⟩

theorem Numbered.underway {s : Service} (numbered : s.Numbered)
    (known : s.session.requests? s.currency = some requests) :
    Underway (s.calls + 1) requests s.requestUpdate.2 s.requestUpdate.1 := by
  obtain ⟨apart, settled, bursts, outcomes⟩ := numbered.unmade (s.calls + 1) (Nat.lt_succ_self _)
  obtain ⟨count, sends, reply⟩ := requestSends known
  obtain ⟨taken, delivers⟩ := sends.delivers
  have nothing : ({ s with calls := s.calls + 1 } : Service).settledOf (s.calls + 1) = [] := settled
  have stands : Stands requests _ _ count := sends.stands (by rw [nothing]; rfl) (by rw [nothing]; rfl) bursts
  have returned : s.requestUpdate.1.outcomesOf (s.calls + 1) = [] := by
    rw [← outcomes]
    unfold outcomesOf
    rw [delivers.finished]
  refine ⟨Nat.le_of_eq delivers.calls.symm, delivers.apart ⟨apart.connecting, apart.entrants, apart.closings⟩,
    delivers.balanced numbered.balanced, count, stands, ?_⟩
  rw [reply]
  cases count with
  | none => exact ⟨rfl, returned⟩
  | some n => exact .inl ⟨rfl, returned⟩

/-- A call for an update fails when there is no address, and then it does nothing else. Otherwise it returns once its
four requests are settled, and returns how many were accepted; each of the others has been reported, with
its action and its own error, in the order in which they were settled. -/
theorem updateReturns (account : Option Address) (currency : String) (fallback : UInt64) (before : List Input) :
    let s := (start account currency fallback).run before
    let number := s.calls + 1
    let t := (s.step .requestUpdate).1
    let reply := (s.step .requestUpdate).2
    (reply = .ended (.failed .addressUnset) ↔ s.session.address = none) ∧
      (s.session.address = none →
        t = { s with calls := number, asked := s.asked ++ [⟨.call number, s.session, s.currency⟩] }) ∧
      Proceeds number s t ∧ (∀ v : Service, Proceeds number v (v.answerSend (.call number))) ∧
      ∀ later, let u := t.run later
        u.failures = u.settled.filterMap Settlement.complaint? ∧
        ∀ address, s.session.address = some address → ∃ count,
          Stands [.subscribe address s.currency, .price s.currency, .price "BTC",
            .history address (s.session.blockCount.getD s.session.fallback)] (u.settledOf number)
              (u.burstsOf number) count ∧
          Returned number reply (u.outcomesOf number) count ∧
          ∀ k, count = some k → ((u.settledOf number).filterMap Settlement.complaint?).length = 4 - k := by
  intro s number t reply
  have numbered : s.Numbered := (startNumbered account currency fallback).run before
  have underway (address : Address) (set : s.session.address = some address) :
      Underway number [.subscribe address s.currency, .price s.currency, .price "BTC",
        .history address (s.session.blockCount.getD s.session.fallback)] reply t :=
    numbered.underway (congrArg (Option.map _) set)
  refine ⟨⟨fun failed => ?_, fun unset => congrArg Prod.snd (requestUnset unset)⟩,
    fun unset => congrArg Prod.fst (requestUnset unset), requestProceeds s, fun v => answerProceeds v number,
    fun later => ⟨?_, fun address set => ?_⟩⟩
  · cases address : s.session.address with
    | none => rfl
    | some given =>
      obtain ⟨_, _, _, count, _, returned⟩ := underway given address
      cases count with
      | none => cases failed.symm.trans returned.1
      | some count => rcases returned with ⟨ended, _⟩ | ⟨pending, _⟩ <;> cases failed.symm.trans ‹_›
  · exact (((numbered.move (i := .requestUpdate) trivial).run later)).balanced
  · obtain ⟨_, _, _, count, stands, returned⟩ :=
      (underway address set).run (numbered.move (i := .requestUpdate) trivial).sound later
    refine ⟨count, stands, returned, fun k counted => ?_⟩
    have all := acceptedOrNot ((t.run later).settledOf number)
    generalize (t.run later).settledOf number = settled at stands all
    generalize (t.run later).burstsOf number = bursts at stands
    cases stands with
    | waits => cases counted
    | through order =>
      obtain rfl := Option.some.inj counted
      have length : settled.length = 4 := by rw [← List.length_map Settlement.request, order]; rfl
      omega

theorem refusedWhileWaiting :
    let s := (start none "USD" 10).run [.setSessionAddress (some ⟨"account"⟩), .holdSends, .grantSends 1]
    let later := [.failSends [⟨"price", .send "reset"⟩], .answerSend (.call 1), .freeSends,
      .failSends [⟨"BTC", .notConnected⟩], .answerSend (.call 1)]
    let u := (s.step .requestUpdate).1.run later
    (s.session.address = some ⟨"account"⟩ ∧ (s.step .requestUpdate).2 = .pending (s.calls + 1)) ∧
      u.outcomesOf (s.calls + 1) = [.accepted 2] ∧ u.failures =
        [.sendFailure "price" "failed to send price request: send failed: reset",
          .sendFailure "price" "failed to send price request: transport is not connected"] := by
  intro s later u
  have set : s.session.address = some ⟨"account"⟩ := by decide +kernel
  have reply : (s.step .requestUpdate).2 = .pending (s.calls + 1) := by decide +kernel
  have idle : u.burstsOf (s.calls + 1) = [] := by decide +kernel
  have accepted : (u.settledOf (s.calls + 1)).countP Settlement.accepted = 2 := by decide +kernel
  have complaints : u.settled.filterMap Settlement.complaint? =
      [.sendFailure "price" "failed to send price request: send failed: reset",
        .sendFailure "price" "failed to send price request: transport is not connected"] := by
    decide +kernel
  obtain ⟨failures, returns⟩ := (updateReturns none "USD" 10
    [.setSessionAddress (some ⟨"account"⟩), .holdSends, .grantSends 1]).2.2.2.2 later
  obtain ⟨count, stands, returned, _⟩ := returns ⟨"account"⟩ set
  change Stands _ (u.settledOf (s.calls + 1)) (u.burstsOf (s.calls + 1)) count at stands
  rw [idle] at stands
  obtain rfl : count = some 2 := by
    cases stands
    exact congrArg some accepted
  rcases returned with ⟨ended, _⟩ | ⟨_, returned⟩
  · cases reply.symm.trans ended
  · exact ⟨⟨set, reply⟩, returned, failures.trans complaints⟩

end Service
end AccountWatch
