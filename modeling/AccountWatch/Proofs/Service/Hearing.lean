import AccountWatch.Proofs.Publisher.Delivery
import AccountWatch.Proofs.Service.Departure
import AccountWatch.Proofs.Service.Taking
import AccountWatch.Proofs.Session

/-! What a listener makes of a list of signals, from a connection that is opening to the end of its stream, when
sends are not held and no filter crashes. Each point of its way is described by the signals taken so far:
those from the first that closes on do not count, and the others fall into those before the connection
comes up and those from then on. -/
namespace AccountWatch

namespace Signal

def ends : Signal → Bool
  | .closed _ => true
  | .opened | .frame _ | .failure _ => false

def message? : Signal → Option Message
  | .frame text => (Message.decode text).toOption
  | .opened | .closed _ | .failure _ => none

def complaint? : Signal → Option Report
  | .frame text =>
      match Message.decode text with
      | .ok _ => none
      | .error cause => some (.malformed (WatchError.malformed cause).message)
  | .failure text => some (.transportFailure text)
  | .opened | .closed _ => none

def counted (xs : List Signal) : List Signal := xs.takeWhile fun x => !x.ends

def early (xs : List Signal) : List Signal := xs.takeWhile fun x => x ≠ .opened

def late (xs : List Signal) : List Signal := xs.dropWhile fun x => x ≠ .opened

def messages (xs : List Signal) : List Message := xs.filterMap message?

def complaints (xs : List Signal) : List Report := xs.filterMap complaint?

theorem earlyDown {xs : List Signal} (down : .opened ∉ xs) : early xs = xs ∧ late xs = [] := by
  have all : ∀ x ∈ xs, decide (x ≠ .opened) := fun x mem =>
    decide_eq_true fun same => down (same ▸ mem)
  exact ⟨List.takeWhile_eq_self_iff.mpr all, List.dropWhile_eq_nil_iff.mpr all⟩

theorem earlyUp {xs : List Signal} (up : .opened ∈ xs) (x : Signal) :
    early (xs ++ [x]) = early xs ∧ late (xs ++ [x]) = late xs ++ [x] := by
  unfold early late
  induction xs with
  | nil => simp at up
  | cons y rest ih =>
    by_cases same : y = .opened
    · simp [same]
    · have later : Signal.opened ∈ rest := by simpa [eq_comm, same] using up
      simpa [same] using ih later

theorem earlyComing {xs : List Signal} (down : .opened ∉ xs) :
    early (xs ++ [.opened]) = xs ∧ late (xs ++ [.opened]) = [.opened] := by
  have all : ∀ x ∈ xs, decide (x ≠ .opened) := fun x mem =>
    decide_eq_true fun same => down (same ▸ mem)
  unfold early late
  rw [List.takeWhile_append_of_pos all, List.dropWhile_append_of_pos all]
  simp

end Signal

open Signal (counted early late messages complaints)

namespace Service

def startsWith (s : Service) (xs : List Signal) : List Request :=
  let count := (Session.lastCount (messages (early xs)) s.session.blockCount).getD s.session.fallback
  if .opened ∈ xs then
    s.session.address.elim [] fun account =>
      [.subscribe account s.currency, .price s.currency, .price "BTC", .history account count]
  else []

def narrative (s : Service) (xs : List Signal) : List Report :=
  complaints (early xs) ++
    (if .opened ∈ xs then
      .phase .connected :: (s.startsWith xs).filterMap s.transport.complaint? else []) ++
    complaints (late xs)

theorem startsWithDown {s : Service} {xs : List Signal} (down : .opened ∉ xs) : s.startsWith xs = [] :=
  if_neg down

theorem startsWithSet {s : Service} {xs : List Signal} {account : Address} (set : s.session.address = some account)
    (up : .opened ∈ xs) :
    let known := Session.lastCount (messages (early xs)) s.session.blockCount
    s.startsWith xs = [.subscribe account s.currency, .price s.currency, .price "BTC",
      .history account (known.getD s.session.fallback)] := by
  unfold startsWith
  dsimp only
  rw [if_pos up, set]
  rfl

theorem startsWithOther {s : Service} {xs : List Signal} {x : Signal}
    (other : .opened ∈ xs ∨ x ≠ .opened) : s.startsWith (xs ++ [x]) = s.startsWith xs := by
  unfold startsWith
  dsimp only
  by_cases up : .opened ∈ xs
  · rw [if_pos up, if_pos (List.mem_append_left _ up), (Signal.earlyUp up x).1]
  · have different : x ≠ .opened := other.resolve_left up
    rw [if_neg up, if_neg (by simp [up, different.symm])]

theorem narrativeOther {s : Service} {xs : List Signal} {x : Signal} (other : .opened ∈ xs ∨ x ≠ .opened) :
    s.narrative (xs ++ [x]) = s.narrative xs ++ x.complaint?.toList := by
  unfold narrative
  rw [startsWithOther other]
  have last : complaints [x] = x.complaint?.toList := by
    unfold complaints
    rw [List.filterMap_cons]
    cases x.complaint? <;> rfl
  by_cases up : .opened ∈ xs
  · obtain ⟨before, after⟩ := Signal.earlyUp up x
    rw [before, after, if_pos up, if_pos (List.mem_append_left _ up), ← last]
    simp [complaints]
  · have different : x ≠ .opened := other.resolve_left up
    have down : .opened ∉ xs ++ [x] := by simp [up, different.symm]
    rw [if_neg up, if_neg down, (Signal.earlyDown up).1, (Signal.earlyDown up).2,
      (Signal.earlyDown down).1, (Signal.earlyDown down).2, ← last]
    simp [complaints]

theorem narrativeComing {s : Service} {xs : List Signal} (down : .opened ∉ xs) :
    s.narrative (xs ++ [.opened]) = s.narrative xs ++ .phase .connected ::
      (s.startsWith (xs ++ [.opened])).filterMap s.transport.complaint? := by
  have up : Signal.opened ∈ xs ++ [.opened] := by simp
  have silent : complaints [.opened] = [] := rfl
  unfold narrative
  rw [if_pos up, if_neg down, (Signal.earlyComing down).1, (Signal.earlyComing down).2,
    (Signal.earlyDown down).1, (Signal.earlyDown down).2, silent]
  simp [complaints]

/-- What a service has become when its listener has taken some signals, of which these count. -/
structure Heard (s t : Service) (stream : Nat) (xs : List Signal) (lost : Bool) : Prop where
  phase : t.phase = if lost then .closed else if .opened ∈ xs then .connected else .opening
  session : t.session =
    { s.session with blockCount := Session.lastCount (messages xs) s.session.blockCount }
  publisher : t.publisher = s.publisher.publishAll (messages xs)
  sent : t.sent = s.sent ++ (s.startsWith xs).map (Handed.mk (.listener stream))
  reports : t.reports = s.reports ++ s.narrative xs ++ if lost then [.phase .closed] else []

structure Listening (s t : Service) (stream : Nat) (xs queue : List Signal) (ended : Bool) : Prop where
  heard : Heard s t stream xs false
  listener : t.listener? stream = some ⟨stream, queue, ended⟩
  ready : t.suspended stream = false
  transport : t.transport = s.transport
  currency : t.currency = s.currency
  calm : t.publisher.Calm

theorem Listening.active {s t : Service} {stream : Nat} {xs queue : List Signal} {ended : Bool}
    (l : Listening s t stream xs queue ended) : t.phase.active := by
  rw [l.heard.phase]
  by_cases up : .opened ∈ xs <;> simp [up, Phase.active]

theorem Listening.other {s t u : Service} {stream : Nat} {xs rest : List Signal} {x : Signal} {ended : Bool}
    (l : Listening s t stream xs (x :: rest) ended) (other : .opened ∈ xs ∨ x ≠ .opened)
    (same : u = { t.setQueue stream rest with
      session := x.message?.elim t.session t.session.observe
      publisher := x.message?.elim t.publisher fun m => (t.publisher.publish m).1
      reports := t.reports ++ x.complaint?.toList }) :
    Listening s u stream (xs ++ [x]) rest ended := by
  obtain ⟨⟨phase, session, publisher, sent, reports⟩, found, ready, transport, currency, calm⟩ := l
  have up : .opened ∈ xs ++ [x] ↔ .opened ∈ xs := by
    rcases other with up | different
    · simp [up]
    · simp [different.symm]
  have messages : messages (xs ++ [x]) = messages xs ++ x.message?.toList := by
    unfold Signal.messages
    rw [List.filterMap_append, List.filterMap_cons]
    cases x.message? <;> rfl
  subst same
  refine ⟨⟨?_, ?_, ?_, ?_, ?_⟩, listenerSetQueue found rest, ready, transport, currency, ?_⟩
  · change t.phase = _
    simp only [phase, up]
  · dsimp only
    rw [messages, session]
    cases x.message? with
    | none => simp
    | some m => simp [Session.observeCount, Session.lastCountConcat]
  · dsimp only
    rw [messages, publisher]
    unfold Publisher.publishAll
    cases x.message? <;> simp
  · change t.sent = _
    rw [startsWithOther other, sent]
  · dsimp only
    rw [narrativeOther other, reports]
    simp
  · dsimp only
    cases x.message? with
    | none => exact calm
    | some m => exact calm.publish m

theorem Listening.coming {s t : Service} {stream : Nat} {xs rest : List Signal} {ended : Bool}
    (l : Listening s t stream xs (.opened :: rest) ended) (down : .opened ∉ xs) :
    Listening s (({ t.setQueue stream rest with
      phase := .connected
      reports := t.reports ++ [.phase .connected]
      asked := t.asked ++ [⟨.listener stream, t.session, t.currency⟩] } : Service).delivered
        (.listener stream) t.startup) stream (xs ++ [.opened]) rest ended := by
  obtain ⟨⟨_, session, publisher, sent, reports⟩, found, ready, transport, currency, calm⟩ := l
  have messages : messages (xs ++ [.opened]) = messages xs := by
    unfold Signal.messages
    rw [List.filterMap_append]
    exact List.append_nil _
  have requests : s.startsWith (xs ++ [.opened]) = t.startup := by
    unfold startsWith startup Session.requests?
    rw [if_pos (by simp), (Signal.earlyComing down).1, session, currency]
    cases s.session.address <;> rfl
  refine ⟨⟨?_, ?_, ?_, ?_, ?_⟩, listenerSetQueue found rest, ready, transport, currency, calm⟩
  · simp [delivered]
  · rw [messages]
    exact session
  · rw [messages]
    exact publisher
  · rw [requests]
    change t.sent ++ _ = _
    rw [sent, startsWithDown down]
    simp
  · rw [narrativeComing down, requests]
    change t.reports ++ [.phase .connected] ++ t.startup.filterMap t.transport.complaint? = _
    rw [reports, transport]
    simp

theorem Listening.next {s t : Service} {stream : Nat} {xs rest : List Signal} {x : Signal} {ended : Bool}
    (l : Listening s t stream xs (x :: rest) ended) (free : s.transport.permits = none)
    (goes : x.ends = false) : Listening s (t.turn stream) stream (xs ++ [x]) rest ended := by
  have active : (t.setQueue stream rest).phase.active := l.active
  cases x with
  | closed reason => cases goes
  | failure text =>
    rw [turnReady l.listener l.ready rfl]
    exact l.other (.inr nofun) rfl
  | frame text =>
    cases decoded : Message.decode text with
    | error cause =>
      rw [turnReady l.listener l.ready (takeMalformed stream active decoded)]
      have silent : (Signal.frame text).message? = none := by simp [Signal.message?, decoded, Except.toOption]
      have told : (Signal.frame text).complaint? = some (.malformed (WatchError.malformed cause).message) := by
        simp [Signal.complaint?, decoded]
      exact l.other (.inr nofun) (by rw [silent, told]; rfl)
    | ok m =>
      have passes : ((t.setQueue stream rest).publisher.publish m).2 ≠ .crashed :=
        (Publisher.publishCalm fun x mem live => l.calm x mem live m).2
      rw [turnReady l.listener l.ready (takeMessage stream active decoded passes)]
      have heard : (Signal.frame text).message? = some m := by simp [Signal.message?, decoded, Except.toOption]
      have quiet : (Signal.frame text).complaint? = none := by simp [Signal.complaint?, decoded]
      exact l.other (.inr nofun) (by rw [heard, quiet, Option.toList, List.append_nil]; rfl)
  | opened =>
    have phase := l.heard.phase
    by_cases up : .opened ∈ xs
    · have again : (t.setQueue stream rest).phase ≠ .opening := by
        change t.phase ≠ .opening
        simp [phase, up]
      rw [turnReady l.listener l.ready (takeAgain stream again)]
      exact l.other (.inl up) (by rw [Signal.complaint?, Option.toList, List.append_nil]; rfl)
    · have opening : (t.setQueue stream rest).phase = .opening := by
        change t.phase = .opening
        simp [phase, up]
      have unheld : (t.setQueue stream rest).transport.permits = none := by
        change t.transport.permits = none
        rw [l.transport, free]
      rw [turnReady l.listener l.ready (takeOpened stream opening unheld)]
      exact l.coming up

theorem turnsGone {s : Service} {stream : Nat} (gone : s.listener? stream = none) (n : Nat) :
    turns stream n s = s := by
  have still : s.turn stream = s := by
    unfold turn
    rw [gone]
  induction n with
  | zero => rfl
  | succ n ih => rw [turns, still, ih]

theorem Listening.lost {s t : Service} {stream : Nat} {xs queue : List Signal} {ended : Bool}
    (l : Listening s t stream xs queue ended) :
    Heard s ((t.enter .closed).endListener stream) stream xs true ∧
      ((t.enter .closed).endListener stream).listener? stream = none := by
  have active := l.active
  have up : t.phase ≠ .closed := by
    intro down
    simp [down, Phase.active] at active
  obtain ⟨_, session, publisher, sent, reports⟩ := l.heard
  rw [enterOther up]
  constructor
  · refine ⟨rfl, session, publisher, sent, ?_⟩
    change t.reports ++ [.phase .closed] = _
    rw [reports]
    simp
  · apply List.find?_eq_none.mpr
    intro u mem
    have other := (List.mem_filter.mp mem).2
    simpa using other

def lostBy (queue : List Signal) (ended : Bool) (n : Nat) : Bool :=
  (queue.take n).any Signal.ends || (ended && queue.length < n)

theorem Listening.turns {s t : Service} {stream : Nat} {xs queue : List Signal} {ended : Bool}
    (l : Listening s t stream xs queue ended) (free : s.transport.permits = none) (n : Nat) :
    Heard s (turns stream n t) stream (xs ++ counted (queue.take n)) (lostBy queue ended n) := by
  -- the start is fixed: only the signals taken and those left move. A lost connection needs no
  -- hypothesis, as no turn does anything for a listener that is gone
  induction n generalizing t xs queue with
  | zero => simpa [lostBy, counted, Service.turns] using l.heard
  | succ n ih =>
    rw [Service.turns]
    cases queue with
    | nil =>
      cases ended with
      | true =>
        have lost : t.turn stream = (t.enter .closed).endListener stream := by
          unfold turn
          rw [l.listener]
          simp [l.ready, l.active]
        obtain ⟨heard, gone⟩ := l.lost
        rw [lost, turnsGone gone]
        simpa [lostBy, counted] using heard
      | false =>
        have still : t.turn stream = t := by
          unfold turn
          rw [l.listener]
          simp [l.ready]
        rw [still]
        simpa [lostBy, counted] using ih l
    | cons x rest =>
      cases ends : x.ends with
      | true =>
        have lost : t.turn stream = (t.enter .closed).endListener stream := by
          cases x with
          | closed reason => rw [turnOver l.listener l.ready rfl, enterSetQueue, endSetQueue]
          | opened | frame | failure => cases ends
        obtain ⟨heard, gone⟩ := l.lost
        rw [lost, turnsGone gone]
        simpa [lostBy, counted, ends] using heard
      | false =>
        have later := ih (l.next free ends)
        simpa [lostBy, counted, ends] using later

theorem Listening.reach {s t : Service} {stream : Nat} {xs queue : List Signal} {ended : Bool}
    (l : Listening s t stream xs queue ended) (free : s.transport.permits = none) {n : Nat} {x : Signal}
    (counts : (counted queue)[n]? = some x) :
    ∃ ys rest, Listening s (Service.turns stream n t) stream ys (x :: rest) ended := by
  induction n generalizing t xs queue with
  | zero =>
    cases queue with
    | nil => simp [counted] at counts
    | cons y rest =>
      cases ends : y.ends with
      | true => simp [counted, ends] at counts
      | false =>
        obtain rfl : y = x := by simpa [counted, ends] using counts
        exact ⟨xs, rest, l⟩
  | succ n ih =>
    cases queue with
    | nil => simp [counted] at counts
    | cons y rest =>
      cases ends : y.ends with
      | true => simp [counted, ends] at counts
      | false =>
        rw [Service.turns]
        exact ih (l.next free ends) (by simpa [counted, ends] using counts)

theorem Listening.stored {s t : Service} {stream : Nat} {xs rest : List Signal} {text : String}
    {ended : Bool} (l : Listening s t stream xs (.frame text :: rest) ended) {m : Message}
    (good : Message.decode text = .ok m) (publisher : Publisher) :
    (({ t with publisher } : Service).turn stream).session = t.session.observe m ∧
      (({ t with publisher } : Service).turn stream).publisher = (publisher.publish m).1 := by
  have found : ({ t with publisher } : Service).listener? stream = some ⟨stream, .frame text :: rest, ended⟩ :=
    l.listener
  have ready : ({ t with publisher } : Service).suspended stream = false := l.ready
  have active : (({ t with publisher } : Service).setQueue stream rest).phase.active := l.active
  by_cases crash : (publisher.publish m).2 = .crashed
  · rw [turnOver found ready (takeCrash stream active good crash)]
    exact ⟨rfl, rfl⟩
  · rw [turnReady found ready (takeMessage stream active good crash)]
    exact ⟨rfl, rfl⟩

theorem Sound.listening {s : Service} (sound : s.Sound) {u : Listener} (mem : u ∈ s.listeners)
    (opening : s.phase = .opening) (calm : s.publisher.Calm) :
    Listening s s u.stream [] u.queue u.ended := by
  have reader : u.stream ∈ s.connection.readers := List.mem_map_of_mem mem
  have only : s.listeners.map Listener.stream = [s.transport.streams] :=
    (sound.stage.read reader).2.2.1
  have found : s.listener? u.stream = some u := by
    obtain ⟨v, one⟩ : ∃ v, s.listeners = [v] := List.length_eq_one_iff.mp (by simpa using congrArg List.length only)
    unfold listener?
    rw [one] at mem ⊢
    obtain rfl := List.mem_singleton.mp mem
    simp
  have ready : s.suspended u.stream = false := by
    apply List.any_eq_false.mpr
    intro b waits own
    exact sound.apart (by simp [opening]) b waits u.stream (of_decide_eq_true own)
  have silent : s.narrative [] = [] := rfl
  refine ⟨⟨opening, rfl, rfl, ?_, ?_⟩, found, ready, rfl, rfl, calm⟩
  · rw [startsWithDown List.not_mem_nil]
    exact (List.append_nil _).symm
  · rw [silent]
    simp

/-- What any list of signals comes to, and the same after each turn. The last clause lets anybody subscribe
before a message is taken. -/
theorem listenerHears (account : Option Address) (currency : String) (fallback : UInt64)
    (inputs : List Input) (u : Listener) :
    let s := (start account currency fallback).run inputs
    u ∈ s.listeners → s.phase = .opening → s.transport.permits = none → s.publisher.Calm →
      Heard s (s.wake u.stream) u.stream (counted u.queue) (u.ended || u.queue.any Signal.ends) ∧
      (∀ account, s.session.address = some account → .opened ∈ counted u.queue →
        let known := Session.lastCount (messages (early (counted u.queue))) s.session.blockCount
        (s.wake u.stream).sent = s.sent ++ ([.subscribe account s.currency, .price s.currency, .price "BTC",
          .history account (known.getD s.session.fallback)] : List Request).map (Handed.mk (.listener u.stream))) ∧
      ∀ n, let t := turns u.stream n s
        let xs := counted (u.queue.take n)
        Heard s t u.stream xs (lostBy u.queue u.ended n) ∧
        (∀ x ∈ s.publisher.subscribers, x.live →
          { x with queue := x.queue ++ (messages xs).filter fun m => x.filter m = .accept } ∈
            t.publisher.subscribers) ∧
        ∀ text m, (counted u.queue)[n]? = some (.frame text) → Message.decode text = .ok m →
          ∀ publisher, let next := ({ t with publisher } : Service).turn u.stream
            next.session = t.session.observe m ∧ next.publisher = (publisher.publish m).1 := by
  intro s mem opening free calm
  have sound : s.Sound := runSound (startSound account currency fallback) inputs
  have listening := sound.listening mem opening calm
  have heard : ∀ n, Heard s (turns u.stream n s) u.stream (counted (u.queue.take n))
      (lostBy u.queue u.ended n) := listening.turns free
  have woken : s.wake u.stream = turns u.stream (u.queue.length + 1) s := by
    unfold wake
    rw [listening.listener]
  have done : lostBy u.queue u.ended (u.queue.length + 1) = (u.ended || u.queue.any Signal.ends) := by
    unfold lostBy
    rw [List.take_of_length_le (Nat.le_succ _)]
    simp [Bool.or_comm]
  have all := heard (u.queue.length + 1)
  rw [← woken, List.take_of_length_le (Nat.le_succ _), done] at all
  refine ⟨all, fun account set up => ?_, fun n => ⟨heard n, fun x old live => ?_, ?_⟩⟩
  · rw [all.sent, startsWithSet set up]
  · rw [(heard n).publisher]
    exact calm.reached _ old live
  · intro text m counts good publisher
    obtain ⟨ys, rest, l⟩ := listening.reach free counts
    exact l.stored good publisher

theorem heardToTheEnd :
    let queue : List Signal := [.failure "slow", .opened, .frame "[", .opened,
      .frame "\x7b\"currency\":\"usd\"\x7d", .closed none, .frame "\x7b\x7d"]
    let s := (start (some ⟨"account"⟩) "USD" 10).run
      [.subscribe fun _ => .accept, .openUp, .arrive 1 queue, .cut 1]
    Heard s (s.wake 1) 1 (counted queue) true ∧
      messages (counted queue) = [.price "usd" none] ∧
      (s.wake 1).sent = [⟨.listener 1, .subscribe ⟨"account"⟩ "USD"⟩, ⟨.listener 1, .price "USD"⟩,
        ⟨.listener 1, .price "BTC"⟩, ⟨.listener 1, .history ⟨"account"⟩ 10⟩] := by
  intro queue s
  have calm : s.publisher.Calm := by
    intro x mem _ m
    obtain rfl := List.mem_singleton.mp mem
    nofun
  obtain ⟨heard, sent, _⟩ := listenerHears (some ⟨"account"⟩) "USD" 10
    [.subscribe fun _ => .accept, .openUp, .arrive 1 queue, .cut 1] ⟨1, queue, true⟩
    (by decide +kernel) (by decide +kernel) (by decide +kernel) calm
  exact ⟨heard, by decide +kernel, sent ⟨"account"⟩ (by decide +kernel) (by decide +kernel)⟩

end Service
end AccountWatch
