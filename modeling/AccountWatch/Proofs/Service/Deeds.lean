import AccountWatch.Proofs.Service.Sending
import AccountWatch.Proofs.Service.Stage

/-! What a single move does, seen from the connection and from the payloads at once. Whatever opens and closes
is a sequence of quiet deeds, which hand nothing over and let no connection come up; a turn and an
answer are one deed each, at most one move of the connection and at most one list of requests handed
over. A call for an update and the closing of a connection that is up are kept apart, since they alone
begin a burst of a call or drop a burst. -/
namespace AccountWatch.Service
open Connection (Moves Path)
open Traffic (Hands)

inductive Quiet (s t : Service) : Prop where
  | still (connection : t.connection = s.connection) (traffic : t.traffic = s.traffic)
  | count (connection : t.connection = s.connection) (traffic : t.traffic = s.traffic.count)
  | pass (apart : s.phase = .closed ∨ s.phase = .opening ∨ s.closings ≠ [])
      (moved : Moves s.connection t.connection) (ups : t.connection.ups = s.connection.ups)
      (traffic : t.traffic = s.traffic ∨ t.traffic = s.traffic.abort s.handle)

inductive Deed (s t : Service) : Prop where
  | quiet (quiet : Quiet s t)
  | answer (b : Burst) (waits : b ∈ s.bursts) (connection : t.connection = s.connection)
      (hands : Hands b.caller b.rest (s.traffic.without b.caller) t.traffic)
  | establish (stream : Nat) (reader : stream ∈ s.connection.readers)
      (ready : s.suspended stream = false) (opening : s.phase = .opening)
      (connection : t.connection = s.connection.enter .connected)
      (hands : Hands (.listener stream) (Asked.requests ⟨.listener stream, s.session, s.currency⟩)
        (s.traffic.ask ⟨.listener stream, s.session, s.currency⟩) t.traffic)
  | detach (stream : Nat) (reader : stream ∈ s.connection.readers)
      (ready : s.suspended stream = false) (moved : Moves s.connection t.connection)
      (ups : t.connection.ups = s.connection.ups) (traffic : t.traffic = s.traffic)

structure Asks (s t : Service) : Prop where
  connection : t.connection = s.connection
  hands : Hands (.call (s.calls + 1)) (Asked.requests ⟨.call (s.calls + 1), s.session, s.currency⟩)
    (s.traffic.count.ask ⟨.call (s.calls + 1), s.session, s.currency⟩) t.traffic

structure Leaves (s t : Service) : Prop where
  free : s.connecting = none
  up : s.phase = .connected
  connection : t.connection = s.connection.leave (s.calls + 1)
  traffic : t.traffic = s.traffic.count.abort s.handle

abbrev Quiets : Service → Service → Prop := Relation.ReflTransGen Quiet

inductive Effect (s : Service) : Input → Service → Prop where
  | quiet {i t} (other : i ≠ .requestUpdate) (quiets : Quiets s t) : Effect s i t
  | deed {i t} (other : i ≠ .requestUpdate) (deed : Deed s t) : Effect s i t
  | asks {t} (asks : Asks s t) : Effect s .requestUpdate t
  | leaves {t u} (leaves : Leaves s t) (quiets : Quiets t u) : Effect s .shutDown u

structure Kept (s t : Service) : Prop where
  sent : t.sent = s.sent
  asked : t.asked = s.asked
  calls : s.calls ≤ t.calls
  ups : t.connection.ups = s.connection.ups

theorem Kept.trans {s t u : Service} (first : Kept s t) (second : Kept t u) : Kept s u :=
  ⟨second.sent.trans first.sent, second.asked.trans first.asked, Nat.le_trans first.calls second.calls,
    second.ups.trans first.ups⟩

theorem keptTraffic {s t : Service} (traffic : t.traffic = s.traffic)
    (ups : t.connection.ups = s.connection.ups) : Kept s t :=
  ⟨congrArg Traffic.sent traffic, congrArg Traffic.asked traffic,
    Nat.le_of_eq (congrArg Traffic.calls traffic).symm, ups⟩

theorem keptCount {s t : Service} (traffic : t.traffic = s.traffic.count)
    (ups : t.connection.ups = s.connection.ups) : Kept s t := by
  have calls : t.calls = s.calls + 1 := congrArg Traffic.calls traffic
  exact ⟨congrArg Traffic.sent traffic, congrArg Traffic.asked traffic, by omega, ups⟩

theorem Quiet.kept {s t : Service} (quiet : Quiet s t) : Kept s t := by
  cases quiet with
  | still connection traffic => exact keptTraffic traffic (congrArg Connection.ups connection)
  | count connection traffic => exact keptCount traffic (congrArg Connection.ups connection)
  | pass _ _ ups traffic =>
    rcases traffic with same | dropped
    · exact keptTraffic same ups
    · obtain ⟨sent, asked, calls⟩ := Traffic.abortKeeps s.traffic s.handle
      exact ⟨(congrArg Traffic.sent dropped).trans sent, (congrArg Traffic.asked dropped).trans asked,
        Nat.le_of_eq ((congrArg Traffic.calls dropped).trans calls).symm, ups⟩

theorem Quiets.kept {s t : Service} (quiets : Quiets s t) : Kept s t := by
  induction quiets with
  | refl => exact ⟨rfl, rfl, Nat.le_refl _, rfl⟩
  | tail _ last ih => exact ih.trans last.kept

theorem Leaves.kept {s t : Service} (leaves : Leaves s t) : Kept s t := by
  obtain ⟨sent, asked, calls⟩ := Traffic.abortKeeps s.traffic.count s.handle
  have counted : t.calls = s.calls + 1 := (congrArg Traffic.calls leaves.traffic).trans calls
  refine ⟨(congrArg Traffic.sent leaves.traffic).trans sent,
    (congrArg Traffic.asked leaves.traffic).trans asked, by omega, ?_⟩
  rw [leaves.connection]
  exact Connection.leaveUps _ _

theorem enterKeepsSession (s : Service) (next : Phase) :
    (s.enter next).session = s.session ∧ (s.enter next).currency = s.currency := by
  unfold enter
  split <;> exact ⟨rfl, rfl⟩

inductive Taken (s : Service) (stream : Nat) : Service → Prop where
  | ignore : Taken s stream s
  | establish (opening : s.phase = .opening) :
      Taken s stream ((s.enter .connected).update (.listener stream)).1
  | receive (text : String) : Taken s stream (s.receive text).1
  | crash (text : String) (active : s.phase.active) :
      Taken s stream ({ (s.receive text).1 with
        crashes := (s.receive text).1.crashes ++ [stream] }.endListener stream)
  | lose : Taken s stream ((s.enter .closed).endListener stream)
  | fail (text : String) : Taken s stream (s.report (.transportFailure text))

inductive Turned (s : Service) (stream : Nat) : Service → Prop where
  | still : Turned s stream s
  | takes {t : Service} (reader : stream ∈ s.connection.readers) (ready : s.suspended stream = false)
      (rest : List Signal) (taken : Taken (s.setQueue stream rest) stream t) : Turned s stream t
  | ends (reader : stream ∈ s.connection.readers) (ready : s.suspended stream = false) :
      Turned s stream ((if s.phase.active then s.enter .closed else s).endListener stream)

theorem takeTaken (s : Service) (stream : Nat) (signal : Signal) :
    Taken s stream (if (s.take stream signal).2 = .over then (s.take stream signal).1.endListener stream
      else (s.take stream signal).1) := by
  cases signal with
  | opened =>
    unfold take
    by_cases opening : s.phase = .opening
    · have up : Taken s stream ((s.enter .connected).update (.listener stream)).1 := .establish opening
      simp only [opening, ne_eq, not_true_eq_false, if_false]
      split <;> rename_i same <;> rw [same] at up <;> simpa only [reduceCtorEq, if_false] using up
    · simp only [opening, ne_eq, not_false_eq_true, if_true, reduceCtorEq, if_false]
      exact .ignore
  | frame text =>
    unfold take
    by_cases active : s.phase.active = true
    · have heard : Taken s stream (s.receive text).1 := .receive text
      have crashed : Taken s stream _ := .crash text active
      simp only [active, if_true]
      split <;> rename_i same <;> rw [same] at heard crashed
      · simpa only [reduceCtorEq, if_false] using heard
      · simpa only [if_true] using crashed
    · simp only [active, Bool.false_eq_true, if_false, reduceCtorEq]
      exact .ignore
  | closed reason =>
    simp only [take, if_true]
    exact .lose
  | failure text =>
    simp only [take, reduceCtorEq, if_false]
    exact .fail text

theorem turnTurned (s : Service) (stream : Nat) : Turned s stream (s.turn stream) := by
  unfold turn
  split
  · exact .still
  · rename_i t found
    have reader := (readerOfListener found).2
    split
    · exact .still
    · rename_i ready
      replace ready : s.suspended stream = false := Bool.eq_false_iff.mpr ready
      split
      · split
        · exact .ends reader ready
        · exact .still
      · rename_i signal rest _
        have taken := takeTaken (s.setQueue stream rest) stream signal
        refine .takes reader ready rest ?_
        split <;> rename_i same
        · simpa only [same, if_true] using taken
        · rename_i progress different
          rwa [same, if_neg different] at taken

theorem Taken.deed {s t : Service} {stream : Nat} (taken : Taken s stream t)
    (reader : stream ∈ s.connection.readers) (ready : s.suspended stream = false) : Deed s t := by
  cases taken with
  | ignore => exact .quiet (.still rfl rfl)
  | establish opening =>
    have hands := updateHands (s.enter .connected) (.listener stream)
    obtain ⟨session, currency⟩ := enterKeepsSession s .connected
    rw [session, currency, trafficEnter] at hands
    refine .establish stream reader ready opening ?_ hands
    rw [connectionUpdate, connectionEnter]
  | receive text => exact .quiet (.still (connectionReceive s text) (trafficReceive s text))
  | crash text active =>
    have crashed : ({ (s.receive text).1 with
        crashes := (s.receive text).1.crashes ++ [stream] }.endListener stream).connection =
          { s.connection with crashes := s.connection.crashes ++ [stream] }.release stream := by
      rw [connectionEnd, ← connectionReceive s text]
      rfl
    refine .detach stream reader ready ?_ ?_ (trafficReceive s text)
    · rw [crashed]
      exact .crash reader active
    · rw [crashed]
      rfl
  | lose =>
    refine .detach stream reader ready ?_ ?_ (trafficEnter s .closed)
    · rw [connectionEnd, connectionEnter]
      exact .lose reader
    · rw [connectionEnd, connectionEnter]
      exact Connection.enterUps s.connection nofun
  | fail text => exact .quiet (.still (connectionReport _ _ rfl) rfl)

theorem Quiet.dequeued {s t : Service} {stream : Nat} {queue : List Signal}
    (quiet : Quiet (s.setQueue stream queue) t) : Quiet s t := by
  have same := connectionSetQueue s stream queue
  cases quiet with
  | still connection traffic => exact .still (connection.trans same) traffic
  | count connection traffic => exact .count (connection.trans same) traffic
  | pass apart moved kept traffic =>
    rw [same] at moved
    exact .pass apart moved (kept.trans (congrArg Connection.ups same)) traffic

theorem Deed.dequeued {s t : Service} {stream : Nat} {queue : List Signal}
    (deed : Deed (s.setQueue stream queue) t) : Deed s t := by
  have same := connectionSetQueue s stream queue
  have ups : (s.setQueue stream queue).connection.ups = s.connection.ups := congrArg Connection.ups same
  cases deed with
  | quiet quiet => exact .quiet quiet.dequeued
  | answer b waits connection hands => exact .answer b waits (connection.trans same) hands
  | establish stream reader ready opening connection hands =>
    rw [same] at reader connection
    exact .establish stream reader ready opening connection hands
  | detach stream reader ready moved kept traffic =>
    rw [same] at reader moved
    exact .detach stream reader ready moved (kept.trans ups) traffic

theorem turnDeed (s : Service) (stream : Nat) : Deed s (s.turn stream) := by
  have turned := turnTurned s stream
  generalize s.turn stream = t at turned
  cases turned with
  | still => exact .quiet (.still rfl rfl)
  | takes reader ready rest taken => exact (taken.deed (by simpa using reader) ready).dequeued
  | ends reader ready =>
    split
    · exact (Taken.lose).deed reader ready
    · rename_i passive
      refine .detach stream reader ready ?_ ?_ rfl
      · rw [connectionEnd]
        exact .fade reader (Bool.eq_false_iff.mpr passive)
      · rw [connectionEnd]
        rfl

theorem answerSendDeed (s : Service) (caller : Caller) : Deed s (s.answerSend caller) := by
  rcases answerHands s caller with same | ⟨b, waits, rfl, hands⟩
  · rw [same]
    exact .quiet (.still rfl rfl)
  · exact .answer b waits (connectionAnswer s b.caller) hands

theorem beginOpenCases (s : Service) (number : Nat) :
    (∃ outcome, s.beginOpen number = (s, some outcome)) ∨
      (s.phase = .closed ∧ (s.beginOpen number).2 = none ∧
        (s.beginOpen number).1.connection = s.connection.dial number ∧
        (s.beginOpen number).1.traffic = s.traffic) := by
  unfold beginOpen Connection.dial
  split
  · exact .inl ⟨_, rfl⟩
  · exact .inl ⟨_, rfl⟩
  · exact .inl ⟨_, rfl⟩
  · rename_i down
    refine .inr ⟨down, rfl, ?_, trafficEnter s .opening⟩
    rw [← connectionEnter]
    rfl

theorem beginOpenEnds {s t : Service} {number : Nat} {outcome : Outcome}
    (ended : s.beginOpen number = (t, some outcome)) : t = s := by
  rcases beginOpenCases s number with ⟨_, same⟩ | ⟨_, none, _⟩
  · rw [same] at ended
    exact (Prod.mk.inj ended).1.symm
  · rw [ended] at none
    simp at none

theorem beginOpenDials {s t : Service} {number : Nat} (dialled : s.beginOpen number = (t, none)) :
    t.phase = .opening ∧ t.connecting.isSome ∧ t.traffic = s.traffic := by
  rcases beginOpenCases s number with ⟨outcome, same⟩ | ⟨_, _, connection, traffic⟩
  · rw [same] at dialled
    simp at dialled
  · rw [dialled] at connection traffic
    refine ⟨?_, ?_, traffic⟩
    · change t.connection.phase = .opening
      rw [connection]
      exact Connection.enterPhase _ _
    · change t.connection.connecting.isSome
      rw [connection]
      rfl

theorem beginOpenQuiet {s : Service} (number : Nat) (free : s.connecting = none) :
    Quiet s (s.beginOpen number).1 := by
  rcases beginOpenCases s number with ⟨outcome, same⟩ | ⟨down, _, connection, traffic⟩
  · rw [same]
    exact .still rfl rfl
  · refine .pass (.inl down) ?_ ?_ (.inl traffic)
    · rw [connection]
      exact .dial number free down
    · rw [connection]
      exact Connection.dialUps _ _

theorem endOpenCases (s : Service) :
    (s.endOpen.1.connection = s.connection.refuse ∧ s.endOpen.1.traffic = s.traffic) ∨
      (s.endOpen.1.connection = s.connection.accept ∧ s.endOpen.1.traffic = s.traffic.abort s.handle) := by
  unfold endOpen Transport.connect
  dsimp only
  cases s.transport.openFailure with
  | some error =>
    left
    dsimp only
    rw [connectionEnter, connectionReport _ _ rfl, trafficEnter]
    exact ⟨rfl, rfl⟩
  | none =>
    right
    dsimp only
    rw [connectionListen, connectionAbortHandle]
    exact ⟨rfl, trafficAbortHandle _⟩

theorem endOpenFree (s : Service) : s.endOpen.1.connecting = none := by
  change s.endOpen.1.connection.connecting = none
  rcases endOpenCases s with ⟨same, _⟩ | ⟨same, _⟩ <;> rw [same]
  · simp [Connection.refuse]
  · rw [Connection.acceptKeeps]

theorem endOpenPhase {s : Service} (opening : s.phase = .opening) : s.endOpen.1.phase ≠ .connected := by
  change s.endOpen.1.connection.phase ≠ .connected
  rcases endOpenCases s with ⟨same, _⟩ | ⟨same, _⟩ <;> rw [same]
  · simp [Connection.refuse]
  · rw [Connection.acceptKeeps]
    change s.phase ≠ .connected
    simp [opening]

theorem endOpenQuiet {s : Service} (opening : s.phase = .opening) (connecting : s.connecting.isSome) :
    Quiet s s.endOpen.1 := by
  rcases endOpenCases s with ⟨connection, traffic⟩ | ⟨connection, traffic⟩
  · refine .pass (.inr (.inl opening)) ?_ ?_ (.inl traffic)
    · rw [connection]
      exact .refuse connecting
    · rw [connection]
      exact Connection.refuseUps _
  · refine .pass (.inr (.inl opening)) ?_ ?_ (.inr traffic)
    · rw [connection]
      exact .accept connecting
    · rw [connection]
      exact Connection.acceptUps _

theorem beginCloseCases (s : Service) (number : Nat) :
    (s.phase.active = false ∧ s.beginClose number = (s, false)) ∨
      (s.phase.active ∧ (s.beginClose number).2 = true ∧
        (s.beginClose number).1.connection = s.connection.leave number ∧
        (s.beginClose number).1.traffic = s.traffic.abort s.handle) := by
  have leaves : { (s.enter .closing).abortHandle with
      closings := (s.enter .closing).abortHandle.closings ++ [number]
      transport := { (s.enter .closing).abortHandle.transport with
        closes := (s.enter .closing).abortHandle.transport.closes + 1 } }.connection =
        s.connection.leave number := by
    unfold Connection.leave
    rw [← connectionEnter, ← connectionAbortHandle]
    rfl
  have dropped : (s.enter .closing).abortHandle.traffic = s.traffic.abort s.handle := by
    have handle : (s.enter .closing).handle = s.handle := by
      unfold enter
      split <;> rfl
    rw [trafficAbortHandle, trafficEnter, handle]
  unfold beginClose
  split <;> rename_i phase
  · exact .inl ⟨by rw [phase]; rfl, rfl⟩
  · exact .inl ⟨by rw [phase]; rfl, rfl⟩
  · exact .inr ⟨by rw [phase]; rfl, rfl, leaves, dropped⟩
  · exact .inr ⟨by rw [phase]; rfl, rfl, leaves, dropped⟩

theorem beginCloseInside {s t : Service} {number : Nat} (began : s.beginClose number = (t, true)) :
    s.phase.active ∧ t.phase = .closing ∧ number ∈ t.closings := by
  rcases beginCloseCases s number with ⟨_, same⟩ | ⟨active, _, connection, _⟩
  · rw [same] at began
    simp at began
  · rw [began] at connection
    refine ⟨active, ?_, ?_⟩
    · change t.connection.phase = .closing
      rw [connection, Connection.leaveKeeps]
    · change number ∈ t.connection.closings
      rw [connection]
      exact List.mem_append_right _ List.mem_cons_self

theorem beginCloseKeeps (s : Service) (number : Nat) :
    (s.beginClose number).1.connecting = s.connecting := by
  change (s.beginClose number).1.connection.connecting = s.connection.connecting
  rcases beginCloseCases s number with ⟨_, same⟩ | ⟨_, _, same, _⟩ <;> rw [same]
  rw [Connection.leaveKeeps]

theorem beginCloseQuiet {s : Service} (number : Nat) (free : s.connecting = none)
    (apart : s.phase ≠ .connected) : Quiet s (s.beginClose number).1 := by
  rcases beginCloseCases s number with ⟨_, same⟩ | ⟨active, _, connection, traffic⟩
  · rw [same]
    exact .still rfl rfl
  · have opening : s.phase = .opening := by
      cases phase : s.phase <;> simp_all [Phase.active]
    refine .pass (.inr (.inl opening)) ?_ ?_ (.inr traffic)
    · rw [connection]
      exact .leave number free active
    · rw [connection]
      exact Connection.leaveUps _ _

theorem endCloseQuiet {s : Service} {number : Nat} (inside : number ∈ s.closings) :
    Quiet s (s.endClose number).1 := by
  have connection : (s.endClose number).1.connection = s.connection.left number := by
    unfold endClose Connection.left
    dsimp only
    split
    · rw [connectionEnter]; rfl
    · rw [connectionReport _ _ rfl, connectionEnter]; rfl
  have traffic : (s.endClose number).1.traffic = s.traffic := by
    unfold endClose
    dsimp only
    split
    · rw [trafficEnter]; rfl
    · rw [trafficReport, trafficEnter]; rfl
  refine .pass (.inr (.inr (List.ne_nil_of_mem inside))) ?_ ?_ (.inl traffic)
  · rw [connection]
    exact .left inside
  · rw [connection]
    exact Connection.leftUps _ _

theorem finishQuiet (s : Service) (number : Nat) (outcome : Outcome) : Quiet s (s.finish number outcome) :=
  .still rfl rfl

theorem answerCloseQuiets (s : Service) (number : Nat) : Quiets s (s.answerClose number) := by
  unfold answerClose
  split
  · rename_i inside
    exact .tail (.single (endCloseQuiet inside)) (finishQuiet _ number _)
  · exact .refl

theorem settleQuiets (s : Service) : Quiets s s.settleCloses := by
  have folded (s : Service) (numbers : List Nat) : Quiets s (numbers.foldl answerClose s) := by
    induction numbers generalizing s with
    | nil => exact .refl
    | cons number rest ih => exact (answerCloseQuiets s number).trans (ih _)
  unfold settleCloses
  split
  · exact .refl
  · exact folded s s.closings

/-! Calls and inputs. Whoever waits for the connection is let in while it is not up. -/

theorem letInQuiets (entrants : List Entrant) (s : Service) (free : s.connecting = none)
    (apart : s.phase ≠ .connected) : Quiets s (letIn entrants s) := by
  induction entrants generalizing s with
  | nil => exact .refl
  | cons e rest ih =>
    cases e with
    | opening number =>
      have began := beginOpenQuiet number free
      unfold letIn
      split
      · rename_i t outcome same
        obtain rfl := beginOpenEnds same
        exact .head (finishQuiet t number outcome) (ih _ free apart)
      · rename_i t same
        obtain ⟨opening, connecting, _⟩ := beginOpenDials same
        rw [same] at began
        split
        · exact .tail (.single began) (.still rfl rfl)
        · have opened := endOpenQuiet opening connecting
          have later := ih (t.endOpen.1.finish number t.endOpen.2) (endOpenFree t) (endOpenPhase opening)
          exact .head began (.head opened (.head (finishQuiet _ number _) later))
    | closing number =>
      have began := beginCloseQuiet number free apart
      have kept := (beginCloseKeeps s number).trans free
      unfold letIn
      split <;> rename_i t same <;> rw [same] at began kept
      · rcases beginCloseCases s number with ⟨_, idle⟩ | ⟨_, yes, _⟩
        · obtain rfl : s = t := (Prod.mk.inj (idle.symm.trans same)).1
          exact .head (finishQuiet s number .done) (ih _ free apart)
        · rw [same] at yes
          cases yes
      · have closing := (beginCloseInside same).2.1
        exact .head began (ih t kept (by simp [closing]))

theorem answerOpenQuiets {s : Service} (stage : s.connection.Stage) : Quiets s s.answerOpen := by
  unfold answerOpen
  split
  · exact .refl
  · rename_i number waits
    have connecting : s.connecting.isSome := by rw [waits]; rfl
    have opening : s.phase = .opening := (stage.dialled connecting).1
    have entered := letInQuiets s.endOpen.1.entrants
      { s.endOpen.1.finish number s.endOpen.2 with entrants := [] } (endOpenFree s) (endOpenPhase opening)
    have cleared : Quiet s.endOpen.1 { s.endOpen.1.finish number s.endOpen.2 with entrants := [] } :=
      .still rfl rfl
    exact .head (endOpenQuiet opening connecting) (.head cleared (entered.trans (settleQuiets _)))

theorem openUpQuiets (s : Service) : Quiets s s.openUp.1 := by
  unfold openUp
  dsimp only
  split
  · exact .single (.count rfl rfl)
  · rename_i free
    have primed : Quiet s { s with session := s.session.setAddress s.account } := .still rfl rfl
    have began := beginOpenQuiet (s := { s with session := s.session.setAddress s.account }) (s.calls + 1)
      (by simpa using free)
    split <;> rename_i t same <;> rw [same] at began
    · exact .tail (.single primed) began
    · obtain ⟨opening, connecting, traffic⟩ := beginOpenDials same
      split
      · have counted : ({ t with calls := s.calls + 1 } : Service).traffic = t.traffic.count := by
          have calls : t.calls = s.calls := congrArg Traffic.calls traffic
          rw [← calls]
          rfl
        exact .tail (.tail (.single primed) began) (.count rfl counted)
      · exact .tail (.tail (.single primed) began) (endOpenQuiet opening connecting)

theorem shutDownQuiets (s : Service) :
    Quiets s s.shutDown.1 ∨ ∃ t, Leaves s t ∧ Quiets t s.shutDown.1 := by
  unfold shutDown
  dsimp only
  split
  · exact .inl (.single (.count rfl rfl))
  · rename_i waits
    have free : s.connecting = none := by simpa using waits
    have counted : Quiet s { s with calls := s.calls + 1 } := .count rfl rfl
    by_cases up : s.phase = .connected
    · rcases beginCloseCases { s with calls := s.calls + 1 } (s.calls + 1) with
        ⟨passive, _⟩ | ⟨_, began, connection, traffic⟩
      · simp [up, Phase.active] at passive
      · right
        split <;> rename_i t same <;> rw [same] at began connection traffic
        · cases began
        · refine ⟨t, ⟨free, up, connection, traffic⟩, ?_⟩
          split
          · exact .refl
          · exact .single (endCloseQuiet (beginCloseInside same).2.2)
    · left
      have began := beginCloseQuiet (s := { s with calls := s.calls + 1 }) (s.calls + 1) free up
      split <;> rename_i t same <;> rw [same] at began
      · exact .head counted (.single began)
      · split
        · exact .head counted (.single began)
        · exact .head counted (.head began (.single (endCloseQuiet (beginCloseInside same).2.2)))

theorem requestUpdateAsks (s : Service) : Asks s s.requestUpdate.1 := by
  have connection := connectionUpdate { s with calls := s.calls + 1 } (.call (s.calls + 1))
  have hands := updateHands { s with calls := s.calls + 1 } (.call (s.calls + 1))
  unfold requestUpdate
  dsimp only
  split <;> rename_i same <;> rw [same] at connection hands <;> exact ⟨connection, hands⟩

theorem moveEffect {s : Service} (stage : s.connection.Stage) {i : Input} (single : i.Single) :
    Effect s i (s.step i).1 := by
  have still {i : Input} {t : Service} (other : i ≠ .requestUpdate) (connection : t.connection = s.connection)
      (traffic : t.traffic = s.traffic) : Effect s i t :=
    .quiet other (.single (.still connection traffic))
  cases i with
  | openUp => exact .quiet nofun (openUpQuiets s)
  | shutDown =>
    rcases shutDownQuiets s with quiets | ⟨t, leaves, quiets⟩
    · exact .quiet nofun quiets
    · exact .leaves leaves quiets
  | requestUpdate => exact .asks (requestUpdateAsks s)
  | arrive stream signals =>
    exact still nofun (connectionArrive s stream signals) (trafficArrive s stream signals)
  | cut stream => exact still nofun (connectionCut s stream) rfl
  | turn stream => exact .deed nofun (turnDeed s stream)
  | answerSend caller => exact .deed nofun (answerSendDeed s caller)
  | answerOpen => exact .quiet nofun (answerOpenQuiets stage)
  | answerClose number => exact .quiet nofun (answerCloseQuiets s number)
  | emit | endStream | permitSends | releaseSends | releaseClose => exact single.elim
  | _ => exact still nofun rfl rfl

end AccountWatch.Service
