import AccountWatch.Proofs.Service.Outcomes
import AccountWatch.Proofs.Service.Soundness
import AccountWatch.Proofs.Service.Taking

/-! Calls that open and start no connection. One that finds a connection, or one that is closing, leaves everything
as it is but the address; one that the transport refuses leaves the three reports of it behind. A call that
has to wait does the same when it is its turn, and while it is inside the transport nobody else
touches the connection. -/
namespace AccountWatch.Service

def primed (s : Service) : Service := { s with session := s.session.setAddress s.account }

def dialled (s : Service) (number : Nat) : Service :=
  { s with
    phase := .opening
    connecting := some number
    transport := { s.transport with opens := s.transport.opens + 1 }
    reports := s.reports ++ [.phase .opening] }

def turnedDown (s : Service) (error : TransportError) : Service :=
  { s with
    phase := .closed
    connecting := none
    reports := s.reports ++ [.transportFailure error.message, .phase .closed] }

inductive Declines (s : Service) : Service → Outcome → Prop where
  | already (active : s.phase.active) : Declines s s .done
  | leaving (closing : s.phase = .closing) : Declines s s (.failed .closing)
  | refused {error : TransportError} (down : s.phase = .closed) (free : s.connecting = none)
      (unheld : s.transport.openHeld = false) (refuses : s.transport.openFailure = some error) :
      Declines s { s with
        transport := { s.transport with opens := s.transport.opens + 1 }
        reports := s.reports ++ [.phase .opening, .transportFailure error.message, .phase .closed] }
        (.failed (.transportFailure error))

theorem beginOpenActive {s : Service} (active : s.phase.active) (number : Nat) :
    s.beginOpen number = (s, some .done) := by
  unfold beginOpen
  split <;> rename_i phase <;> rw [phase] at active <;> first | rfl | cases active

theorem beginOpenClosing {s : Service} (closing : s.phase = .closing) (number : Nat) :
    s.beginOpen number = (s, some (.failed .closing)) := by
  unfold beginOpen
  rw [closing]

theorem beginOpenDown {s : Service} (down : s.phase = .closed) (number : Nat) :
    s.beginOpen number = (s.dialled number, none) := by
  unfold beginOpen
  rw [enterOther (by simp [down])]
  simp only [down]
  rfl

theorem endOpenRefused {s : Service} {error : TransportError} (opening : s.phase = .opening)
    (refuses : s.transport.openFailure = some error) :
    s.endOpen = (s.turnedDown error, .failed (.transportFailure error)) := by
  unfold endOpen Transport.connect
  dsimp only
  rw [refuses]
  dsimp only
  rw [enterOther (by simp [report, opening])]
  simp [turnedDown, report]

theorem endOpenAtOnce {s : Service} {error : TransportError} (down : s.phase = .closed) (free : s.connecting = none)
    (refuses : s.transport.openFailure = some error) (number : Nat) : (s.dialled number).endOpen = ({ s with
      transport := { s.transport with opens := s.transport.opens + 1 }
      reports := s.reports ++ [.phase .opening, .transportFailure error.message, .phase .closed] },
      .failed (.transportFailure error)) := by
  rw [endOpenRefused (s := s.dialled number) rfl refuses]
  unfold dialled turnedDown
  rw [← down, ← free]
  simp

theorem openUpFree {s : Service} (free : s.connecting = none) :
    s.openUp = match s.primed.beginOpen (s.calls + 1) with
      | (t, some outcome) => (t, .ended outcome)
      | (t, none) =>
          if t.transport.openHeld then ({ t with calls := s.calls + 1 }, .pending (s.calls + 1))
          else (t.endOpen.1, .ended t.endOpen.2) := by
  unfold openUp
  dsimp only
  rw [if_neg (by simp [free])]
  rfl

theorem openUpDeclines {s t : Service} {outcome : Outcome} (free : s.connecting = none)
    (declines : Declines s.primed t outcome) : s.openUp = (t, .ended outcome) := by
  rw [openUpFree free]
  cases declines with
  | already active => rw [beginOpenActive active]
  | leaving closing => rw [beginOpenClosing closing]
  | refused down free unheld refuses =>
    rw [beginOpenDown down]
    dsimp only
    rw [if_neg (by simpa [dialled] using unheld), endOpenAtOnce down free refuses]

theorem openUpHeld {s : Service} (free : s.connecting = none) (down : s.phase = .closed)
    (held : s.transport.openHeld) :
    s.openUp = ({ s.primed.dialled (s.calls + 1) with calls := s.calls + 1 }, .pending (s.calls + 1)) := by
  rw [openUpFree free, beginOpenDown (s := s.primed) down]
  exact if_pos held

theorem openUpBehind {s : Service} (inside : s.connecting.isSome) : s.openUp =
    ({ s.primed with calls := s.calls + 1, entrants := s.entrants ++ [.opening (s.calls + 1)] },
      .pending (s.calls + 1)) := by
  unfold openUp
  exact if_pos inside

theorem letInDeclines {s t : Service} {outcome : Outcome} (declines : Declines s t outcome) (number : Nat)
    (rest : List Entrant) : letIn (.opening number :: rest) s = letIn rest (t.finish number outcome) := by
  rw [letIn]
  cases declines with
  | already active => rw [beginOpenActive active]
  | leaving closing => rw [beginOpenClosing closing]
  | refused down free unheld refuses =>
    rw [beginOpenDown down]
    dsimp only
    rw [if_neg (by simpa [dialled] using unheld), endOpenAtOnce down free refuses]

theorem letInHeld {s : Service} (down : s.phase = .closed) (held : s.transport.openHeld) (number : Nat)
    (rest : List Entrant) : letIn (.opening number :: rest) s = { s.dialled number with entrants := rest } := by
  rw [letIn, beginOpenDown down]
  exact if_pos held

theorem answerOpenRefused {s : Service} {called : Nat} {error : TransportError} (sound : s.Sound)
    (inside : s.connecting = some called) (refuses : s.transport.openFailure = some error) :
    s.answerOpen = (letIn s.entrants { (s.turnedDown error).finish called (.failed (.transportFailure error)) with
      entrants := [] }).settleCloses := by
  have opening : s.phase = .opening := (sound.stage.dialled (show s.connecting.isSome by rw [inside]; rfl)).1
  unfold answerOpen
  rw [inside]
  dsimp only
  rw [endOpenRefused opening refuses]
  rfl

theorem insideStays {s : Service} (sound : s.Sound) (inside : s.connecting.isSome) {i : Input} (single : i.Single)
    (other : i ≠ .answerOpen) : (s.step i).1.connection = s.connection ∧ s.entrants <+: (s.step i).1.entrants := by
  obtain ⟨_, readers, closings⟩ := sound.stage.dialled inside
  have still {t : Service} (connection : t.connection = s.connection) (entrants : t.entrants = s.entrants) :
      t.connection = s.connection ∧ s.entrants <+: t.entrants := ⟨connection, entrants ▸ List.prefix_rfl⟩
  cases i with
  | openUp =>
    change s.openUp.1.connection = _ ∧ _ <+: s.openUp.1.entrants
    rw [openUpBehind inside]
    exact ⟨rfl, List.prefix_append _ _⟩
  | shutDown =>
    have lines : s.shutDown.1 = { s with
        calls := s.calls + 1
        entrants := s.entrants ++ [.closing (s.calls + 1)] } := by
      unfold shutDown
      exact congrArg Prod.fst (if_pos inside)
    change s.shutDown.1.connection = _ ∧ _ <+: s.shutDown.1.entrants
    rw [lines]
    exact ⟨rfl, List.prefix_append _ _⟩
  | requestUpdate =>
    have entrants := updateEntrants { s with calls := s.calls + 1 } (.call (s.calls + 1))
    refine still (requestUpdateAsks s).connection ?_
    change s.requestUpdate.1.entrants = s.entrants
    unfold requestUpdate
    dsimp only
    split <;> rename_i same <;> rw [same] at entrants <;> exact entrants
  | arrive stream signals =>
    refine still (connectionArrive s stream signals) ?_
    change (s.arrive stream signals).1.entrants = s.entrants
    unfold arrive
    split
    · rfl
    · split <;> rfl
  | cut stream => exact still (connectionCut s stream) rfl
  | turn stream =>
    have nobody : s.listeners = [] := List.map_eq_nil_iff.mp readers
    have same : s.turn stream = s := by
      unfold turn listener?
      rw [nobody]
      rfl
    exact still (congrArg connection same) (congrArg entrants same)
  | answerSend caller => exact still (connectionAnswer s caller) (answerEntrants s caller)
  | answerOpen => exact (other rfl).elim
  | answerClose number =>
    have nobody : s.closings = [] := closings
    have same : s.answerClose number = s := by
      unfold answerClose
      rw [nobody]
      exact if_neg List.not_mem_nil
    exact still (congrArg connection same) (congrArg entrants same)
  | emit | endStream | permitSends | releaseSends | releaseClose => exact single.elim
  | _ => exact still rfl rfl

theorem Unwinds.absent {s : Service} {inputs moves : List Input} (unwinds : Unwinds s inputs moves) {i : Input}
    (apart : ¬ i.Drives) (absent : i ∉ inputs) : i ∉ moves := by
  induction unwinds with
  | nil => exact absent
  | single _ _ ih =>
    rw [List.mem_cons, not_or] at absent ⊢
    exact absent.imp_right ih
  | driven _ drives _ _ ih =>
    refine fun mem => (List.mem_append.mp mem).elim (fun first => apart (drives i first)) ?_
    exact ih fun later => absent (List.mem_cons_of_mem _ later)

theorem insideRun {s : Service} (sound : s.Sound) (inside : s.connecting.isSome) {between : List Input}
    (unanswered : .answerOpen ∉ between) :
    (s.run between).connection = s.connection ∧ s.entrants <+: (s.run between).entrants := by
  obtain ⟨moves, unwinds⟩ := unwound s between
  have single := unwinds.singles
  have others := unwinds.absent id unanswered
  rw [← unwinds.reaches]
  clear unwinds
  induction moves generalizing s with
  | nil => exact ⟨rfl, List.prefix_rfl⟩
  | cons i rest ih =>
    obtain ⟨first, single⟩ := List.forall_mem_cons.mp single
    obtain ⟨different, others⟩ := not_or.mp (mt List.mem_cons.mpr others)
    obtain ⟨connection, entrants⟩ := insideStays sound inside first (Ne.symm different)
    have still : (s.step i).1.connecting.isSome := by
      change (s.step i).1.connection.connecting.isSome
      rwa [connection]
    obtain ⟨later, more⟩ := ih (runSound sound [i]) still single others
    exact ⟨later.trans connection, entrants.trans more⟩

theorem turnedDownConnection {s : Service} (down : s.phase = .closed) (free : s.connecting = none) {number : Nat}
    {v : Service} (inside : v.connection = (s.primed.dialled number).connection) (error : TransportError) :
    (v.turnedDown error).connection = { s.connection with
      opens := s.transport.opens + 1
      course := s.connection.course ++ [.opening, .closed] } := by
  have told : (v.turnedDown error).connection = { v.connection with
      phase := .closed
      connecting := none
      course := v.connection.course ++ [.closed] } := by
    simp only [connection, turnedDown, List.filterMap_append]
    rfl
  rw [told, inside]
  simp [connection, dialled, primed, Report.entered?, down, free]

/-- Calls that open and start no connection, in every state of a run: the state that each of them leaves is the one
before it but for what is named. A call that has the connection to itself declines at once or goes inside the
transport, and one that has not lines up and does the same when it is let in. Whoever is inside is told by
the transport, and until then the connection stays as it was and the line only grows. -/
theorem openingStartsNothing (account : Option Address) (currency : String) (fallback : UInt64)
    (before : List Input) :
    let s := (start account currency fallback).run before
    let number := s.calls + 1
    (s.connecting = none →
      (∀ t outcome, Declines s.primed t outcome → s.step .openUp = (t, .ended outcome)) ∧
      (s.phase = .closed → s.transport.openHeld →
        s.step .openUp = ({ s.primed.dialled number with calls := number }, .pending number) ∧
        ∀ between error, .answerOpen ∉ between →
          (((s.step .openUp).1.run between).turnedDown error).connection = { s.connection with
            opens := s.transport.opens + 1
            course := s.connection.course ++ [.opening, .closed] })) ∧
    (s.connecting.isSome → s.phase = .opening ∧ s.step .openUp =
      ({ s.primed with calls := number, entrants := s.entrants ++ [.opening number] }, .pending number)) ∧
    (∀ (v : Service) (called : Nat) (rest : List Entrant),
      (∀ t outcome, Declines v t outcome →
        letIn (.opening called :: rest) v = letIn rest (t.finish called outcome)) ∧
      (v.phase = .closed → v.transport.openHeld →
        letIn (.opening called :: rest) v = { v.dialled called with entrants := rest })) ∧
    ∀ called, s.connecting = some called → ∀ between, .answerOpen ∉ between →
      let v := s.run between
      v.connection = s.connection ∧ s.entrants <+: v.entrants ∧
        ∀ error, v.transport.openFailure = some error → v.step .answerOpen =
          ((letIn v.entrants { (v.turnedDown error).finish called (.failed (.transportFailure error)) with
            entrants := [] }).settleCloses, ok) := by
  intro s number
  have sound : s.Sound := runSound (startSound account currency fallback) before
  refine ⟨fun free => ⟨fun t outcome => openUpDeclines free, fun down held => ?_⟩, fun inside => ?_,
    fun v called rest => ⟨fun t outcome declines => letInDeclines declines called rest,
      fun down held => letInHeld down held called rest⟩, fun called inside between unanswered => ?_⟩
  · have dials : s.step .openUp = _ := openUpHeld free down held
    refine ⟨dials, fun between error unanswered => ?_⟩
    have inside : (s.step .openUp).1.connecting.isSome := by rw [dials]; rfl
    have stays : ((s.step .openUp).1.run between).connection = (s.step .openUp).1.connection :=
      (insideRun (runSound sound [.openUp]) inside unanswered).1
    exact turnedDownConnection down free (stays.trans (congrArg (fun answered => answered.1.connection) dials)) error
  · exact ⟨(sound.stage.dialled inside).1, openUpBehind inside⟩
  · obtain ⟨connection, entrants⟩ := insideRun sound (show s.connecting.isSome by rw [inside]; rfl) unanswered
    refine ⟨connection, entrants, fun error refuses => ?_⟩
    have still : (s.run between).connecting = some called := (congrArg Connection.connecting connection).trans inside
    exact congrArg (·, ok) (answerOpenRefused (runSound sound between) still refuses)

theorem openingTurnedDown :
    let broken := [.failOpen (some (.connect "refused")), .setSessionAddress (some ⟨"old"⟩)]
    let s := (start (some ⟨"account"⟩) "USD" 10).run broken
    let held := (start (some ⟨"account"⟩) "USD" 10).run (broken ++ [.holdOpen, .openUp])
    (s.connecting = none ∧ s.phase = .closed ∧ held.connecting = some 1) ∧
      (s.step .openUp).2 = .ended (.failed (.transportFailure (.connect "refused"))) ∧
      (s.step .openUp).1.session.address = some ⟨"account"⟩ ∧
      (s.step .openUp).1.reports = [.phase .opening, .transportFailure "connect failed: refused", .phase .closed] ∧
      (held.run [.shutDown, .openUp]).connection = held.connection ∧
      [Entrant.closing 2, .opening 3] = (held.run [.shutDown, .openUp]).entrants := by
  intro broken s held
  have free : s.connecting = none := by decide
  have down : s.phase = .closed := by decide
  have inside : held.connecting = some 1 := by decide
  have refused := ((openingStartsNothing (some ⟨"account"⟩) "USD" 10 broken).1 free).1 _ _
    (.refused down free (by decide) (show s.transport.openFailure = some (.connect "refused") by decide))
  obtain ⟨_, _, _, waits⟩ := openingStartsNothing (some ⟨"account"⟩) "USD" 10 (broken ++ [.holdOpen, .openUp])
  replace waits := waits 1 inside [.shutDown, .openUp] (by simp)
  change s.step .openUp = _ at refused
  rw [refused]
  exact ⟨⟨free, down, inside⟩, rfl, rfl, by decide, waits.1, by decide⟩

end AccountWatch.Service
