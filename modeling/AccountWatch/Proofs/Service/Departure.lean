import AccountWatch.Proofs.Service.Soundness

/-! Connections that have gone. Once a connection is no longer the one that is coming up or is up, nobody reads
its stream and nothing of it waits: what is queued there goes with the listener, and whatever the
stream is given later changes nothing, no matter what the rest of the run does. -/
namespace AccountWatch

namespace Connection

def Current (c : Connection) (stream : Nat) : Prop :=
  stream = c.streams ∧ c.phase.active ∧ c.connecting = none

def Left (c : Connection) (stream : Nat) : Prop := stream ≤ c.streams ∧ ¬ c.Current stream

instance (c : Connection) (stream : Nat) : Decidable (c.Current stream) :=
  inferInstanceAs (Decidable (_ ∧ _ ∧ _))

instance (c : Connection) (stream : Nat) : Decidable (c.Left stream) := inferInstanceAs (Decidable (_ ∧ _))

theorem Left.unread {c : Connection} {stream : Nat} (left : c.Left stream) (stage : c.Stage) :
    stream ∉ c.readers := by
  intro reader
  obtain ⟨latest, active, _, _, free, _⟩ := stage.read reader
  exact left.2 ⟨latest, active, free⟩

theorem Left.move {c d : Connection} {stream : Nat} (left : c.Left stream) (moved : Moves c d) :
    d.Left stream := by
  obtain ⟨known, gone⟩ := left
  cases moved with
  | establish reader opening =>
    refine ⟨by simpa using known, ?_⟩
    rintro ⟨latest, _, free⟩
    exact gone ⟨by simpa using latest, by simp [opening, Phase.active], by simpa using free⟩
  | crash | fade => exact ⟨known, gone⟩
  | lose reader =>
    refine ⟨by simpa [release] using known, ?_⟩
    rintro ⟨_, active, _⟩
    simp [release, Phase.active] at active
  | dial number free down =>
    refine ⟨by simpa [dial] using known, ?_⟩
    rintro ⟨_, _, free⟩
    simp [dial] at free
  | refuse connecting =>
    refine ⟨by simpa [refuse] using known, ?_⟩
    rintro ⟨_, active, _⟩
    simp [refuse, Phase.active] at active
  | accept connecting =>
    rw [acceptKeeps]
    refine ⟨Nat.le_succ_of_le known, ?_⟩
    rintro ⟨latest, _, _⟩
    dsimp only at latest
    omega
  | leave number free active =>
    rw [leaveKeeps]
    refine ⟨known, ?_⟩
    rintro ⟨_, active, _⟩
    simp [Phase.active] at active
  | left inside =>
    refine ⟨by simpa [Connection.left] using known, ?_⟩
    rintro ⟨_, active, _⟩
    simp [Connection.left, Phase.active] at active

theorem Left.path {c d : Connection} {stream : Nat} (left : c.Left stream) (path : Path c d) :
    d.Left stream := by
  induction path with
  | refl => exact left
  | tail _ last ih => exact ih.move last

end Connection

namespace Service

def Input.concerns (stream : Nat) : Input → Bool
  | .arrive n _ | .cut n | .turn n | .emit n _ | .endStream n => n = stream
  | .answerSend caller => caller = .listener stream
  | _ => false

theorem unreadListener {s : Service} {stream : Nat} (unread : stream ∉ s.connection.readers) :
    s.listener? stream = none := by
  apply List.find?_eq_none.mpr
  intro t mem same
  exact unread (List.mem_map.mpr ⟨t, mem, by simpa using same⟩)

theorem unreadListeners {s : Service} {stream : Nat} (unread : stream ∉ s.connection.readers)
    (f : Listener → Listener) :
    (s.listeners.map fun t => if t.stream = stream then f t else t) = s.listeners := by
  conv => rhs; rw [← List.map_id s.listeners]
  apply List.map_congr_left
  intro t mem
  exact if_neg fun same => unread (List.mem_map.mpr ⟨t, mem, same⟩)

theorem unreadSetQueue {s : Service} {stream : Nat} (unread : stream ∉ s.connection.readers)
    (queue : List Signal) : s.setQueue stream queue = s := by
  unfold setQueue
  rw [unreadListeners unread fun t => { t with queue }]

theorem unheard {s : Service} {stream : Nat} (sound : s.Sound) (unread : stream ∉ s.connection.readers)
    {i : Input} (concerns : i.concerns stream) : (s.step i).1 = s := by
  have absent := unreadListener unread
  have arrived (signals : List Signal) : s.arrive stream signals = (s, 0) := by
    unfold arrive
    rw [absent]
  have slept : s.wake stream = s := by
    unfold wake
    rw [absent]
  have uncut : s.cut stream = s := by
    unfold cut
    rw [unreadListeners unread fun t => { t with ended := true }]
  cases i with
  | arrive n signals =>
    obtain rfl : n = stream := by simpa [Input.concerns] using concerns
    exact congrArg Prod.fst (arrived signals)
  | cut n =>
    obtain rfl : n = stream := by simpa [Input.concerns] using concerns
    exact uncut
  | turn n =>
    obtain rfl : n = stream := by simpa [Input.concerns] using concerns
    change s.turn n = s
    unfold turn
    rw [absent]
  | emit n signals =>
    obtain rfl : n = stream := by simpa [Input.concerns] using concerns
    change (s.arrive n signals).1.wake n = s
    rw [arrived, slept]
  | endStream n =>
    obtain rfl : n = stream := by simpa [Input.concerns] using concerns
    change (s.cut n).wake n = s
    rw [uncut, slept]
  | answerSend caller =>
    obtain rfl : caller = .listener stream := by simpa [Input.concerns] using concerns
    have idle : s.bursts.find? (fun b => b.caller = .listener stream) = none := by
      apply List.find?_eq_none.mpr
      intro b mem same
      exact unread (sound.tied b mem stream (by simpa using same)).1
    change s.answerSend (.listener stream) = s
    unfold answerSend
    rw [idle]
  | _ => simp [Input.concerns] at concerns

theorem runUnheard {s : Service} {stream : Nat} (sound : s.Sound) (left : s.connection.Left stream)
    (inputs : List Input) : s.run inputs = s.run (inputs.filter fun i => ¬ i.concerns stream) := by
  induction inputs generalizing s with
  | nil => rfl
  | cons i rest ih =>
    by_cases concerns : i.concerns stream
    · rw [List.filter_cons_of_neg (by simpa using concerns), runCons,
        unheard sound (left.unread sound.stage) concerns]
      exact ih sound left
    · rw [List.filter_cons_of_pos (by simpa using concerns), runCons, runCons]
      exact ih (runSound sound [i]) (left.path (runPath sound [i]))

theorem handedOfSent {s t : Service} (sent : t.sent = s.sent) (caller : Caller) :
    t.handedBy caller = s.handedBy caller := by
  change (t.sent.filter _).map _ = (s.sent.filter _).map _
  rw [sent]

theorem Effect.unsent {s t : Service} {i : Input} {stream : Nat} (sound : s.Sound)
    (unread : stream ∉ s.connection.readers) (effect : Effect s i t) :
    t.handedBy (.listener stream) = s.handedBy (.listener stream) := by
  cases effect with
  | quiet _ quiets => exact handedOfSent quiets.kept.sent _
  | deed _ deed =>
    cases deed with
    | quiet quiet => exact handedOfSent quiet.kept.sent _
    | answer b waits _ hands =>
      refine hands.other ?_
      intro same
      exact unread (sound.tied b waits stream same.symm).1
    | establish reading reader _ _ _ hands =>
      refine hands.other ?_
      intro same
      cases same
      exact unread reader
    | detach _ _ _ _ ups traffic => exact handedOfSent (keptTraffic traffic ups).sent _
  | asks asks => exact asks.hands.other nofun
  | leaves leaves quiets => exact handedOfSent (leaves.kept.trans quiets.kept).sent _

theorem movesUnsent {s : Service} {stream : Nat} (sound : s.Sound) (left : s.connection.Left stream)
    {moves : List Input} (single : ∀ i ∈ moves, i.Single) :
    (s.run moves).handedBy (.listener stream) = s.handedBy (.listener stream) := by
  induction moves generalizing s with
  | nil => rfl
  | cons i rest ih =>
    have effect := moveEffect sound.stage (single i List.mem_cons_self)
    have later := ih (effect.sound sound) (left.path effect.path)
      fun j mem => single j (List.mem_cons_of_mem i mem)
    exact later.trans (effect.unsent sound (left.unread sound.stage))

theorem runUnsent {s : Service} {stream : Nat} (sound : s.Sound) (left : s.connection.Left stream)
    (inputs : List Input) :
    (s.run inputs).handedBy (.listener stream) = s.handedBy (.listener stream) := by
  obtain ⟨moves, unwinds⟩ := unwound s inputs
  exact unwinds.reaches ▸ movesUnsent sound left unwinds.singles

/-! The move by which a connection goes: a call closes it, or its listener takes a signal that it was closed or
finds that its stream has ended. -/

structure Departs (s : Service) (stream : Nat) (i : Input) : Prop where
  single : i.Single
  before : s.connection.Current stream
  after : (s.step i).1.connection.Left stream

theorem Departs.changes {s : Service} {stream : Nat} {i : Input} (departs : s.Departs stream i) :
    (s.step i).1.connection ≠ s.connection := by
  intro same
  have after := departs.after
  rw [same] at after
  exact after.2 departs.before

theorem openUpActive {s : Service} (active : s.phase.active) (free : s.connecting = none) :
    s.openUp.1.connection = s.connection := by
  have began := beginOpenCases { s with session := s.session.setAddress s.account } (s.calls + 1)
  unfold openUp
  dsimp only
  rw [if_neg (by simp [free])]
  rcases began with ⟨outcome, same⟩ | ⟨down, _⟩
  · rw [same]
    rfl
  · change s.phase = .closed at down
    simp [down, Phase.active] at active

theorem Departs.ways {s : Service} {stream : Nat} {i : Input} (sound : s.Sound)
    (departs : s.Departs stream i) : i = .shutDown ∨ i = .turn stream := by
  obtain ⟨latest, active, free⟩ := departs.before
  cases i with
  | shutDown => exact .inl rfl
  | turn n =>
    by_cases same : n = stream
    · exact .inr (same ▸ rfl)
    · have unread : n ∉ s.connection.readers := by
        intro reader
        exact same ((sound.stage.read reader).1.trans latest.symm)
      have idle := unheard sound unread (i := .turn n) (by simp [Input.concerns])
      exact (departs.changes (congrArg connection idle)).elim
  | openUp => exact (departs.changes (openUpActive active free)).elim
  | requestUpdate => exact (departs.changes (requestUpdateAsks s).connection).elim
  | arrive n signals => exact (departs.changes (connectionArrive s n signals)).elim
  | cut n => exact (departs.changes (connectionCut s n)).elim
  | answerSend caller => exact (departs.changes (connectionAnswer s caller)).elim
  | answerOpen =>
    have idle : s.answerOpen = s := by
      unfold answerOpen
      rw [show s.connecting = none from free]
    exact (departs.changes (congrArg connection idle)).elim
  | answerClose number =>
    have idle : s.answerClose number = s := by
      unfold answerClose
      apply if_neg
      intro inside
      have closing := sound.stage.closed (List.ne_nil_of_mem inside)
      simp [closing, Phase.active] at active
    exact (departs.changes (congrArg connection idle)).elim
  | emit | endStream | permitSends | releaseSends | releaseClose => exact departs.single.elim
  | _ => exact (departs.changes rfl).elim

theorem enterSetQueue (s : Service) (stream : Nat) (queue : List Signal) (next : Phase) :
    (s.setQueue stream queue).enter next = (s.enter next).setQueue stream queue := by
  unfold enter
  change (if s.phase = next then _ else _) = _
  split <;> rfl

theorem endSetQueue (s : Service) (stream : Nat) (queue : List Signal) :
    (s.setQueue stream queue).endListener stream = s.endListener stream := by
  have same : ((s.listeners.map fun t => if t.stream = stream then { t with queue } else t).filter
      fun t => t.stream ≠ stream) = s.listeners.filter fun t => t.stream ≠ stream := by
    induction s.listeners with
    | nil => rfl
    | cons t rest ih =>
      by_cases own : t.stream = stream
      · simpa [own] using ih
      · simpa [own] using ih
  unfold endListener setQueue
  dsimp only
  rw [same]

theorem beginCloseUnqueued {s : Service} {stream : Nat} (handle : s.handle = some stream)
    (queue : List Signal) (number : Nat) (active : s.phase.active) :
    (s.setQueue stream queue).beginClose number = s.beginClose number := by
  have held : (s.enter .closing).handle = some stream := by
    unfold enter
    split <;> exact handle
  have dropped : ((s.setQueue stream queue).enter .closing).abortHandle =
      (s.enter .closing).abortHandle := by
    rw [enterSetQueue]
    unfold abortHandle
    rw [show ((s.enter .closing).setQueue stream queue).handle = some stream from held, held]
    unfold abort
    dsimp only
    rw [endSetQueue]
  unfold beginClose
  rw [show (s.setQueue stream queue).phase = s.phase from rfl]
  cases phase : s.phase with
  | opening | connected =>
    dsimp only
    rw [dropped]
  | closed | closing => simp [phase, Phase.active] at active

theorem shutDownUnqueued {s : Service} {stream : Nat} (handle : s.handle = some stream)
    (current : s.connection.Current stream) (queue : List Signal) :
    (s.setQueue stream queue).shutDown = s.shutDown := by
  obtain ⟨_, active, free⟩ := current
  replace free : ¬ s.connecting.isSome := by
    rw [show s.connecting = none from free]
    exact nofun
  have began : ({ s.setQueue stream queue with calls := (s.setQueue stream queue).calls + 1 } :
      Service).beginClose ((s.setQueue stream queue).calls + 1) =
        ({ s with calls := s.calls + 1 } : Service).beginClose (s.calls + 1) :=
    beginCloseUnqueued (s := { s with calls := s.calls + 1 }) handle queue (s.calls + 1) active
  unfold shutDown
  dsimp only
  rw [if_neg free, if_neg (show ¬ (s.setQueue stream queue).connecting.isSome from free)]
  rw [began]
  rfl

theorem Taken.leaves {s t : Service} {stream : Nat} (taken : Taken s stream t)
    (current : s.connection.Current stream) (left : t.connection.Left stream) :
    t = (s.enter .closed).endListener stream := by
  obtain ⟨_, gone⟩ := left
  cases taken with
  | ignore => exact (gone current).elim
  | establish =>
    rw [connectionUpdate, connectionEnter] at gone
    obtain ⟨latest, _, free⟩ := current
    exact (gone ⟨by simpa using latest, by simp [Phase.active], by simpa using free⟩).elim
  | receive text =>
    rw [connectionReceive] at gone
    exact (gone current).elim
  | crash text =>
    have same := connectionReceive s text
    rw [connectionEnd] at gone
    refine (gone ?_).elim
    change (s.receive text).1.connection.Current stream
    rw [same]
    exact current
  | lose => rfl
  | fail text =>
    rw [connectionReport _ _ rfl] at gone
    exact (gone current).elim

theorem turnLeaves {s : Service} {stream : Nat} (current : s.connection.Current stream)
    (left : (s.turn stream).connection.Left stream) :
    s.turn stream = (s.enter .closed).endListener stream := by
  have turned := turnTurned s stream
  generalize s.turn stream = t at turned left
  cases turned with
  | still => exact (left.2 current).elim
  | takes _ _ rest taken =>
    have still : (s.setQueue stream rest).connection.Current stream := by
      rw [connectionSetQueue]
      exact current
    rw [taken.leaves still left, enterSetQueue, endSetQueue]
  | ends =>
    have active : s.phase.active := current.2.1
    rw [if_pos active]

theorem Departs.sent {s : Service} {stream : Nat} {i : Input} (sound : s.Sound)
    (departs : s.Departs stream i) : (s.step i).1.sent = s.sent := by
  rcases departs.ways sound with rfl | rfl
  · rcases shutDownQuiets s with quiets | ⟨t, leaves, quiets⟩
    · exact quiets.kept.sent
    · exact (leaves.kept.trans quiets.kept).sent
  · change (s.turn stream).sent = s.sent
    rw [turnLeaves departs.before departs.after]
    exact congrArg Traffic.sent (trafficEnter s .closed)

theorem Departs.alike {s : Service} {stream : Nat} {i : Input} {queue : List Signal} (sound : s.Sound)
    (departs : s.Departs stream i) (other : (s.setQueue stream queue).Departs stream i) :
    ((s.setQueue stream queue).step i).1 = (s.step i).1 := by
  by_cases reader : stream ∈ s.connection.readers
  · rcases departs.ways sound with rfl | rfl
    · exact congrArg Prod.fst (shutDownUnqueued (sound.stage.held stream reader) departs.before queue)
    · change (s.setQueue stream queue).turn stream = s.turn stream
      rw [turnLeaves departs.before departs.after, turnLeaves other.before other.after, enterSetQueue,
        endSetQueue]
  · rw [unreadSetQueue reader queue]

/-- After a connection has gone, the run is the same without whatever its stream is given, and its listener
hands nothing over. Neither does the move by which it goes, after which the run is the same whatever was
queued. -/
theorem departedIsSilent (account : Option Address) (currency : String) (fallback : UInt64)
    (before : List Input) (stream : Nat) :
    let s := (start account currency fallback).run before
    (s.connection.Left stream → ∀ later,
      s.run later = s.run (later.filter fun i => ¬ i.concerns stream) ∧
        (s.run later).connection.Left stream ∧
        (s.run later).handedBy (.listener stream) = s.handedBy (.listener stream)) ∧
      ∀ i, s.Departs stream i → ∀ later,
        (s.run (i :: later)).handedBy (.listener stream) = s.handedBy (.listener stream) ∧
          ∀ queue, (s.setQueue stream queue).Departs stream i →
            (s.setQueue stream queue).run (i :: later) = s.run (i :: later) := by
  intro s
  have sound : s.Sound := runSound (startSound account currency fallback) before
  constructor
  · intro left later
    exact ⟨runUnheard sound left later, left.path (runPath sound later), runUnsent sound left later⟩
  · intro i departs later
    constructor
    · have after : (s.step i).1.Sound := runSound sound [i]
      exact (runUnsent after departs.after later).trans (handedOfSent (departs.sent sound) _)
    · intro queue other
      rw [runCons, runCons, departs.alike sound other]

theorem interruptedStartup :
    let s := (start (some ⟨"account"⟩) "USD" 10).run
      [.holdSends, .openUp, .arrive 1 [.opened, .frame "late"], .turn 1]
    let t := (start (some ⟨"account"⟩) "USD" 10).run
      [.holdSends, .openUp, .arrive 1 [.opened, .frame "late"], .turn 1, .shutDown]
    let later := [.openUp, .arrive 1 [.opened], .freeSends, .turn 1, .arrive 2 [.opened], .turn 2]
    (s.Departs 1 .shutDown ∧
      (s.run (.shutDown :: later)).handedBy (.listener 1) = [.subscribe ⟨"account"⟩ "USD"] ∧
      (s.setQueue 1 []).run (.shutDown :: later) = s.run (.shutDown :: later)) ∧
    (t.connection.Left 1 ∧ t.run later = t.run [.openUp, .freeSends, .arrive 2 [.opened], .turn 2]) := by
  intro s t later
  constructor
  · have departs : s.Departs 1 .shutDown := ⟨trivial, by decide, by decide⟩
    obtain ⟨handed, queued⟩ := (departedIsSilent (some ⟨"account"⟩) "USD" 10
      [.holdSends, .openUp, .arrive 1 [.opened, .frame "late"], .turn 1] 1).2 .shutDown departs later
    exact ⟨departs, handed, queued [] ⟨trivial, by decide, by decide⟩⟩
  · exact ⟨by decide, ((departedIsSilent (some ⟨"account"⟩) "USD" 10
      [.holdSends, .openUp, .arrive 1 [.opened, .frame "late"], .turn 1, .shutDown] 1).1
        (by decide) later).1⟩

end Service
end AccountWatch
