import AccountWatch.Proofs.Publisher.Delivery
import AccountWatch.Proofs.Service.Cargo
import AccountWatch.Proofs.Service.Soundness
import AccountWatch.Proofs.Service.Taking

/-! A service can be closed, opened and used again from every state that it reaches, once nothing is held back
and the transport no longer fails. Closing and opening carry their cargo along; the stage of the connection
says that nothing is left of an earlier one. -/
namespace AccountWatch.Service

structure Freed (s : Service) : Prop where
  sends : s.transport.permits = none
  opens : s.transport.openHeld = false
  closes : s.transport.closeHeld = false
  opening : s.transport.openFailure = none
  closing : s.transport.closeFailure = none
  free : s.connecting = none
  closings : s.closings = []

theorem Freed.carried {s t : Service} (freed : s.Freed) (cargo : t.cargo = s.cargo)
    (free : t.connecting = none) (closings : t.closings = []) : t.Freed :=
  ⟨(congrArg (fun c => c.settings.permits) cargo).trans freed.sends,
    (congrArg (fun c => c.settings.openHeld) cargo).trans freed.opens,
    (congrArg (fun c => c.settings.closeHeld) cargo).trans freed.closes,
    (congrArg (fun c => c.settings.openFailure) cargo).trans freed.opening,
    (congrArg (fun c => c.settings.closeFailure) cargo).trans freed.closing, free, closings⟩

/-! Letting go of everything that is held. While sends are not held, nothing that goes on then touches the
transport. -/

def release : List Input :=
  [.failOpen none, .failClose none, .releaseSends, .freeOpen, .answerOpen, .releaseClose]

theorem enterTransport (s : Service) (next : Phase) : (s.enter next).transport = s.transport := by
  unfold enter
  split <;> rfl

theorem receiveTransport (s : Service) (text : String) : (s.receive text).1.transport = s.transport := by
  unfold receive
  split <;> rfl

theorem settleTransport (s : Service) (h : Handed) : (s.settle h).1.transport = s.transport := by
  unfold settle
  dsimp only
  split <;> rfl

section Unheld
variable {s : Service} (free : s.transport.permits = none)
include free

theorem takenTransport {t : Service} {stream : Nat} (taken : Taken s stream t) : t.transport = s.transport := by
  cases taken with
  | ignore | fail => rfl
  | establish =>
    have up := enterTransport s .connected
    rw [(updateUnheld (up ▸ free) (.listener stream)).1]
    exact up
  | receive text => exact receiveTransport s text
  | crash text => exact receiveTransport s text
  | lose => exact enterTransport s .closed

theorem turnTransport (stream : Nat) : (s.turn stream).transport = s.transport := by
  have turned := turnTurned s stream
  generalize s.turn stream = t at turned
  cases turned with
  | still => rfl
  | takes reader ready rest taken => exact takenTransport (s := s.setQueue stream rest) free taken
  | ends =>
    change (if s.phase.active then s.enter .closed else s).transport = s.transport
    split
    · exact enterTransport s .closed
    · rfl

theorem turnsTransport (stream n : Nat) : (turns stream n s).transport = s.transport := by
  induction n generalizing s with
  | zero => rfl
  | succ n ih =>
    have same := turnTransport free stream
    exact (ih (same ▸ free)).trans same

theorem answerTransport (caller : Caller) : (s.answerSend caller).transport = s.transport := by
  unfold answerSend
  split
  · rfl
  · rename_i b _
    let t : Service := { s with bursts := s.bursts.eraseP fun b => b.caller = caller }
    change (t.resume b).transport = s.transport
    have same : (t.settle ⟨b.caller, b.current⟩).1.transport = s.transport := settleTransport t _
    have sent : ((t.settle ⟨b.caller, b.current⟩).1.send b.caller
        (b.accepted + (t.settle ⟨b.caller, b.current⟩).2) b.rest).1.transport = s.transport := by
      rw [(sendUnheld (same ▸ free) _ _ _).1]
      exact same
    unfold resume
    dsimp only
    split <;> rename_i result _ <;> rw [result] at sent <;> exact sent

theorem serveTransport (caller : Caller) : (s.serve caller).transport = s.transport := by
  have answered := answerTransport free caller
  cases caller with
  | call number => exact answered
  | listener stream =>
    change ((s.answerSend (.listener stream)).wake stream).transport = s.transport
    unfold wake
    split
    · exact answered
    · exact (turnsTransport (answered ▸ free) stream _).trans answered

theorem servesTransport (callers : List Caller) : (callers.foldl serve s).transport = s.transport := by
  induction callers generalizing s with
  | nil => rfl
  | cons caller rest ih =>
    have same := serveTransport free caller
    exact (ih (same ▸ free)).trans same

end Unheld

theorem releaseFrees (s : Service) : (s.run release).Freed := by
  let sending : Service := { s with transport := { s.transport with openFailure := none, closeFailure := none } }
  let opening : Service := sending.releaseSends.setOpenHeld false
  let closing : Service := opening.answerOpen.setCloseHeld false
  change closing.settleCloses.Freed
  have sent : sending.releaseSends.transport = { sending.transport with permits := none } :=
    servesTransport (s := sending.freeSends) rfl _
  have opened : opening.cargo.settings = { sending.cargo.settings with
      permits := none
      openHeld := false } := by
    change Transport.settings { sending.releaseSends.transport with openHeld := false } = _
    rw [sent]
    rfl
  have settings : closing.settleCloses.cargo.settings = { sending.cargo.settings with
      permits := none
      openHeld := false
      closeHeld := false } := by
    rw [cargoSettle]
    change { opening.answerOpen.cargo.settings with closeHeld := false } = _
    rw [cargoAnswerOpen, opened]
  have free : opening.answerOpen.connecting = none := answerOpenFrees (congrArg (fun t => t.openHeld) opened)
  obtain ⟨connecting, closings⟩ := settleEmpties closing
  exact ⟨congrArg (fun t => t.permits) settings, congrArg (fun t => t.openHeld) settings,
    congrArg (fun t => t.closeHeld) settings, congrArg (fun t => t.openFailure) settings,
    congrArg (fun t => t.closeFailure) settings, connecting.trans free, closings rfl⟩

theorem endCloseDone {s : Service} (accepts : s.transport.closeFailure = none) (number : Nat) :
    (s.endClose number).2 = .done ∧ (s.endClose number).1.phase = .closed := by
  have down : ({ s with closings := s.closings.erase number }.enter .closed).phase = .closed := by
    change ({ s with closings := s.closings.erase number }.enter .closed).connection.phase = .closed
    rw [connectionEnter]
    exact Connection.enterPhase _ _
  have same := enterTransport { s with closings := s.closings.erase number } .closed
  have done := (congrArg Transport.closeFailure same).trans accepts
  unfold endClose
  dsimp only
  split
  · exact ⟨rfl, down⟩
  · rename_i error refused
    cases refused.symm.trans done

theorem Freed.down {s : Service} (sound : s.Sound) (freed : s.Freed) (passive : s.phase.active = false) :
    s.phase = .closed := by
  cases sound.stage with
  | down phase => exact phase
  | dialling _ _ connecting =>
    change s.connecting.isSome at connecting
    simp [freed.free] at connecting
  | attended active | orphaned active =>
    change s.phase.active at active
    simp [passive] at active
  | leaving _ _ _ number closings =>
    change s.closings = [number] at closings
    simp [freed.closings] at closings

theorem Freed.shutDown {s : Service} (sound : s.Sound) (freed : s.Freed) :
    s.shutDown.2 = ok ∧ s.shutDown.1.phase = .closed ∧ s.shutDown.1.cargo = s.cargo ∧ s.shutDown.1.Freed := by
  have cargo : (({ s with calls := s.calls + 1 } : Service).beginClose (s.calls + 1)).1.cargo = s.cargo :=
    cargoBeginClose _ _
  have kept := beginCloseKeeps { s with calls := s.calls + 1 } (s.calls + 1)
  unfold Service.shutDown
  dsimp only
  rw [if_neg (by simp [freed.free])]
  rcases beginCloseCases { s with calls := s.calls + 1 } (s.calls + 1) with
    ⟨passive, same⟩ | ⟨active, began, connection, _⟩
  · have down : s.phase = .closed := freed.down sound passive
    rw [same]
    exact ⟨rfl, down, rfl, freed.carried rfl freed.free freed.closings⟩
  · generalize Service.beginClose _ _ = left at cargo kept began connection
    obtain ⟨t, inside⟩ := left
    obtain rfl : inside = true := began
    have held : t.transport.closeHeld = false :=
      (congrArg (fun c => c.settings.closeHeld) cargo).trans freed.closes
    have accepts : t.transport.closeFailure = none :=
      (congrArg (fun c => c.settings.closeFailure) cargo).trans freed.closing
    have closings : t.closings = [s.calls + 1] := by
      change t.connection.closings = _
      rw [connection, Connection.leaveKeeps]
      change s.closings ++ _ = _
      rw [freed.closings, List.nil_append]
    obtain ⟨done, down⟩ := endCloseDone accepts (s.calls + 1)
    obtain ⟨connecting, left⟩ := endCloseKeeps t (s.calls + 1)
    have ended := (cargoEndClose t (s.calls + 1)).trans cargo
    dsimp only
    rw [if_neg (by simp [held])]
    refine ⟨congrArg Reply.ended done, down, ended, freed.carried ended ?_ ?_⟩
    · exact connecting.trans (kept.trans freed.free)
    · rw [left, closings]
      simp

theorem endOpenAccepts {s : Service} (accepts : s.transport.openFailure = none) (unread : s.listeners = []) :
    s.endOpen.2 = .done ∧ s.endOpen.1.phase = s.phase ∧
      s.endOpen.1.listeners = [⟨s.endOpen.1.transport.streams, [], false⟩] := by
  unfold endOpen Transport.connect
  dsimp only
  rw [accepts]
  dsimp only
  unfold abortHandle
  dsimp only
  split
  · simp [unread]
  · simp [abort, endListener, unread]

theorem Sound.unread {s : Service} (sound : s.Sound) (down : s.phase = .closed) : s.listeners = [] := by
  cases sound.stage with
  | down _ readers | dialling _ readers | orphaned _ readers | leaving _ readers =>
    exact List.map_eq_nil_iff.mp readers
  | attended active =>
    change s.phase.active at active
    simp [down, Phase.active] at active

theorem Freed.openUp {s : Service} (sound : s.Sound) (freed : s.Freed) (down : s.phase = .closed) :
    s.openUp.2 = ok ∧ s.openUp.1.phase = .opening ∧
      s.openUp.1.listeners = [⟨s.openUp.1.transport.streams, [], false⟩] ∧
      s.openUp.1.cargo = { s.cargo with session := s.session.setAddress s.account } := by
  let dialling : Service := { s with
    session := s.session.setAddress s.account
    phase := .opening
    reports := s.reports ++ [.phase .opening]
    connecting := some (s.calls + 1)
    transport := { s.transport with opens := s.transport.opens + 1 } }
  have began : ({ s with session := s.session.setAddress s.account } : Service).beginOpen (s.calls + 1) =
      (dialling, none) := by
    unfold beginOpen
    rw [show ({ s with session := s.session.setAddress s.account } : Service).phase = .closed from down]
    rw [enterOther (by simp)]
  have entered : s.openUp = (dialling.endOpen.1, .ended dialling.endOpen.2) := by
    unfold Service.openUp
    dsimp only
    rw [if_neg (by simp [freed.free]), began]
    exact if_neg (by simp [dialling, freed.opens])
  obtain ⟨done, phase, listeners⟩ := endOpenAccepts (s := dialling) freed.opening (sound.unread down)
  rw [entered]
  exact ⟨congrArg Reply.ended done, phase, listeners, cargoEndOpen dialling⟩

theorem emitReady {s t : Service} {stream : Nat} {x : Signal} (alone : s.listeners = [⟨stream, [], false⟩])
    (ready : s.suspended stream = false) (takes : s.take stream x = (t, .ready))
    (same : t.listeners = s.listeners) (still : t.suspended stream = false) :
    (s.step (.emit stream [x])).1 = t := by
  have found : s.listener? stream = some ⟨stream, [], false⟩ := by simp [listener?, alone]
  have again : t.listener? stream = some ⟨stream, [], false⟩ := by simp [listener?, same, alone]
  have arrived : s.arrive stream [x] = (s.setQueue stream [x], 1) := by
    unfold arrive
    rw [found]
    rfl
  have queued : (s.setQueue stream [x]).listener? stream = some ⟨stream, [x], false⟩ :=
    listenerSetQueue found [x]
  have taken : (s.setQueue stream [x]).setQueue stream [] = s := by
    unfold setQueue
    simp only [alone, List.map_cons, List.map_nil, if_true]
    rw [← alone]
  have first : (s.setQueue stream [x]).turn stream = t := turnReady queued ready (by rw [taken, takes])
  have idle : t.turn stream = t := by
    unfold turn
    rw [again]
    simp [still]
  change (s.arrive stream [x]).1.wake stream = t
  rw [arrived]
  unfold wake
  rw [queued]
  change turns stream 2 _ = t
  rw [turns, first, turns, idle, turns]

theorem recovers (account : Option Address) (currency : String) (fallback : UInt64) (inputs : List Input) :
    let s := (start account currency fallback).run inputs
    (s.run release).Freed ∧ (s.Freed →
      let down := s.step .shutDown
      let opening := down.1.step .openUp
      let stream := opening.1.transport.streams
      let up := opening.1.step (.emit stream [.opened])
      down.2 = ok ∧ opening.2 = ok ∧ up.1.phase = .connected ∧
        up.1.sent = s.sent ++ (s.account.elim [] fun address => ([.subscribe address s.currency, .price s.currency,
          .price "BTC", .history address (s.session.blockCount.getD s.session.fallback)] : List Request)).map
            (Handed.mk (.listener stream)) ∧
        ∀ text m, Message.decode text = .ok m →
          (∀ x ∈ s.publisher.subscribers, x.live → x.filter m ≠ .crash) →
            let heard := up.1.step (.emit stream [.frame text])
            heard.1.phase = .connected ∧ heard.1.publisher.subscribers =
              (s.publisher.subscribers.filter Subscriber.live).map (Subscriber.offer m)) := by
  intro s
  have sound : s.Sound := runSound (startSound account currency fallback) inputs
  refine ⟨releaseFrees s, ?_⟩
  intro freed down opening stream up
  have soundDown : down.1.Sound := runSound sound [.shutDown]
  have soundOpening : opening.1.Sound := runSound soundDown [.openUp]
  obtain ⟨closes, downPhase, downCargo, downFreed⟩ : down.2 = ok ∧ down.1.phase = .closed ∧
      down.1.cargo = s.cargo ∧ down.1.Freed := freed.shutDown sound
  obtain ⟨opens, phase, alone, raisedCargo⟩ : opening.2 = ok ∧ opening.1.phase = .opening ∧
      opening.1.listeners = [⟨stream, [], false⟩] ∧
      opening.1.cargo = { down.1.cargo with session := down.1.session.setAddress down.1.account } :=
    downFreed.openUp soundDown downPhase
  have cargo : opening.1.cargo = { s.cargo with session := s.session.setAddress s.account } := by
    rw [raisedCargo, downCargo]
    exact congrArg (fun c : Cargo => { s.cargo with session := c.session.setAddress c.account }) downCargo
  have free : opening.1.transport.permits = none :=
    (congrArg (fun c => c.settings.permits) cargo).trans freed.sends
  have ready : opening.1.suspended stream = false := by
    apply List.any_eq_false.mpr
    intro b waits own
    exact soundOpening.apart (by simp [phase]) b waits stream (of_decide_eq_true own)
  have raised : up.1 = _ := emitReady alone ready (takeOpened stream phase free) rfl ready
  have requests : opening.1.startup = s.account.elim [] fun address => [.subscribe address s.currency,
      .price s.currency, .price "BTC", .history address (s.session.blockCount.getD s.session.fallback)] := by
    have session : opening.1.session = s.session.setAddress s.account := congrArg Cargo.session cargo
    have currency : opening.1.currency = s.currency := congrArg Cargo.currency cargo
    unfold startup Session.requests?
    rw [session, currency]
    cases s.account <;> rfl
  have publisher : up.1.publisher = s.publisher := by
    rw [raised]
    exact congrArg Cargo.publisher cargo
  refine ⟨closes, opens, by rw [raised]; rfl, ?_, ?_⟩
  · rw [raised, ← requests]
    exact congrArg (· ++ _) (congrArg Cargo.sent cargo)
  · intro text m good calm heard
    have passes : (up.1.publisher.publish m).2 ≠ .crashed := by
      rw [publisher]
      exact (Publisher.publishCalm calm).2
    have active : up.1.phase.active := by rw [raised]; rfl
    have listeners : up.1.listeners = [⟨stream, [], false⟩] := by rw [raised]; exact alone
    have waits : up.1.suspended stream = false := by rw [raised]; exact ready
    have published : heard.1 = _ := emitReady listeners waits (takeMessage stream active good passes) rfl waits
    constructor
    · rw [published, raised]
      rfl
    · rw [published, ← (Publisher.publishCalm calm).1, ← publisher]

theorem recoversFromCrash :
    let crashing : Filter := fun m => if m.kind = .work then .crash else .accept
    let crashed : List Input := [.subscribe crashing, .openUp, .holdClose,
      .emit 1 [.opened, .frame "\x7b\"work\":\"\"\x7d"], .shutDown]
    let s := (start (some ⟨"account"⟩) "USD" 10).run (crashed ++ release)
    let opening := ((s.step .shutDown).1.step .openUp).1
    let up := (opening.step (.emit opening.transport.streams [.opened])).1
    let heard := (up.step (.emit opening.transport.streams [.frame "\x7b\x7d"])).1
    s.crashes = [1] ∧ s.Freed ∧ up.sent = s.sent ++ [⟨.listener 2, .subscribe ⟨"account"⟩ "USD"⟩,
        ⟨.listener 2, .price "USD"⟩, ⟨.listener 2, .price "BTC"⟩, ⟨.listener 2, .history ⟨"account"⟩ 10⟩] ∧
      heard.phase = .connected ∧ heard.publisher.subscribers.map Subscriber.queue = [[.unknown []]] := by
  intro crashing crashed s opening up heard
  have same : s = (start (some ⟨"account"⟩) "USD" 10).run (crashed ++ release) := rfl
  have freed : s.Freed := by
    rw [same, runAppend]
    exact releaseFrees _
  have calm : ∀ x ∈ s.publisher.subscribers, x.live → x.filter (.unknown []) ≠ .crash := by
    decide +kernel
  have alone : s.crashes = [1] ∧ ((s.publisher.subscribers.filter Subscriber.live).map
      (Subscriber.offer (.unknown []))).map Subscriber.queue = [[.unknown []]] := by
    decide +kernel
  have asks : s.account = some ⟨"account"⟩ ∧ s.currency = "USD" ∧
      s.session.blockCount.getD s.session.fallback = 10 ∧ opening.transport.streams = 2 := by
    decide +kernel
  have good : Message.decode "\x7b\x7d" = .ok (.unknown []) := by
    have read : (Message.decode "\x7b\x7d").toOption = some (.unknown []) := by decide +kernel
    generalize Message.decode _ = result at read ⊢
    cases result with
    | error cause => cases read
    | ok m => exact congrArg Except.ok (Option.some.inj read)
  have recovery := recovers (some ⟨"account"⟩) "USD" 10 (crashed ++ release)
  rw [← same] at recovery
  clear_value s
  obtain ⟨account, currency, count, stream⟩ := asks
  obtain ⟨_, _, _, sent, each⟩ := recovery.2 freed
  obtain ⟨phase, published⟩ := each "\x7b\x7d" (.unknown []) good calm
  rw [account, currency, Option.elim_some, count] at sent
  refine ⟨alone.1, freed, sent.trans ?_, phase, published ▸ alone.2⟩
  rw [stream]
  rfl

end AccountWatch.Service
