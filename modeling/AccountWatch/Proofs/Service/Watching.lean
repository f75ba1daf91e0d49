import AccountWatch.Proofs.Service.News
import AccountWatch.Proofs.Service.Soundness

/-! A service that is only listened to, with nobody but its listener to send anything. It stays attended until its
connection is closed, the closing is the last that it reports, and from then on nothing moves. What has
been reported is never taken back. -/
namespace AccountWatch

theorem Connection.enterSilent {c : Connection} {next quiet : Phase} (silent : quiet ∉ c.course)
    (other : quiet ≠ next) : quiet ∉ (c.enter next).course := by
  unfold enter
  split
  · exact silent
  · simp [silent, other]

inductive Listener.Finishes (t : Listener) : Prop where
  | told {reason : Option String} {rest : List Signal} (next : t.queue = .closed reason :: rest)
  | found (taken : t.queue = []) (ended : t.ended)

namespace Service

theorem enterReports (s : Service) (next : Phase) : s.reports <+: (s.enter next).reports := by
  unfold enter
  split
  · exact List.prefix_rfl
  · exact List.prefix_append _ _

theorem settleReports (s : Service) (h : Handed) : s.reports <+: (s.settle h).1.reports := by
  unfold settle
  dsimp only
  split
  · exact List.prefix_rfl
  · exact List.prefix_append _ _

theorem sendReports (caller : Caller) (accepted : Nat) (requests : List Request) (s : Service) :
    s.reports <+: (s.send caller accepted requests).1.reports := by
  induction requests generalizing accepted s with
  | nil => exact List.prefix_rfl
  | cons request rest ih =>
    have handed : (s.handOver ⟨caller, request⟩).1.reports = s.reports := rfl
    unfold send
    split <;> rename_i t same <;> rw [same] at handed
    · rw [← handed]
      exact (settleReports t _).trans (ih _ _)
    · exact ⟨[], (List.append_nil _).trans handed.symm⟩

theorem updateReports (s : Service) (caller : Caller) : s.reports <+: (s.update caller).1.reports := by
  unfold update
  dsimp only
  split
  · exact List.prefix_rfl
  · exact sendReports caller 0 _ { s with asked := s.asked ++ [⟨caller, s.session, s.currency⟩] }

theorem resumeReports (s : Service) (b : Burst) : s.reports <+: (s.resume b).reports := by
  have sent := (settleReports s ⟨b.caller, b.current⟩).trans (sendReports b.caller
    (b.accepted + (s.settle ⟨b.caller, b.current⟩).2) b.rest (s.settle ⟨b.caller, b.current⟩).1)
  unfold resume
  dsimp only
  split <;> rename_i same _ <;> rw [same] at sent <;> exact sent

theorem answerReports (s : Service) (caller : Caller) : s.reports <+: (s.answerSend caller).reports := by
  unfold answerSend
  split
  · exact List.prefix_rfl
  · rename_i b _
    exact resumeReports { s with bursts := s.bursts.eraseP fun b => b.caller = caller } b

theorem receiveReports (s : Service) (text : String) : s.reports <+: (s.receive text).1.reports := by
  unfold receive
  split
  · exact List.prefix_append _ _
  · exact List.prefix_rfl

theorem turnReports (s : Service) (stream : Nat) : s.reports <+: (s.turn stream).reports := by
  have turned := turnTurned s stream
  generalize s.turn stream = t at turned
  cases turned with
  | still => exact List.prefix_rfl
  | takes _ _ rest taken =>
    cases taken with
    | ignore => exact List.prefix_rfl
    | establish => exact (enterReports (s.setQueue stream rest) .connected).trans (updateReports _ _)
    | receive text | crash text => exact receiveReports (s.setQueue stream rest) text
    | lose => exact enterReports (s.setQueue stream rest) .closed
    | fail text => exact List.prefix_append _ _
  | ends =>
    split
    · exact enterReports s .closed
    · exact List.prefix_rfl

theorem sameBursts {s t : Service} {a : Traffic} {b : Burst} (traffic : t.traffic = a) (same : a.bursts = s.bursts)
    (mem : b ∈ t.bursts) : ∃ c ∈ s.bursts, c.caller = b.caller := by
  have bursts : t.bursts = a.bursts := congrArg Traffic.bursts traffic
  exact ⟨b, bursts.trans same ▸ mem, rfl⟩

theorem Quiet.callers {s t : Service} (quiet : Quiet s t) {b : Burst} (mem : b ∈ t.bursts) :
    ∃ c ∈ s.bursts, c.caller = b.caller := by
  cases quiet with
  | still _ traffic | count _ traffic => exact sameBursts traffic rfl mem
  | pass _ _ _ traffic =>
    rcases traffic with same | dropped
    · exact sameBursts same rfl mem
    · have waits : b ∈ (s.traffic.abort s.handle).bursts := dropped ▸ mem
      exact ⟨b, (Traffic.abortBursts waits).1, rfl⟩

theorem Deed.callers {s t : Service} (deed : Deed s t) {b : Burst} (mem : b ∈ t.bursts) :
    (∃ stream, b.caller = .listener stream) ∨ ∃ c ∈ s.bursts, c.caller = b.caller := by
  cases deed with
  | quiet quiet => exact .inr (quiet.callers mem)
  | answer waiting waits _ hands =>
    rcases hands.bursts mem with old | own
    · exact .inr ⟨b, List.mem_of_mem_eraseP old, rfl⟩
    · exact .inr ⟨waiting, waits, own.symm⟩
  | establish stream _ _ _ _ hands =>
    rcases hands.bursts mem with old | own
    · exact .inr ⟨b, old, rfl⟩
    · exact .inl ⟨stream, own⟩
  | detach _ _ _ _ _ traffic => exact .inr (sameBursts traffic rfl mem)

inductive Stays (s t : Service) : Prop where
  | attended (phase : t.phase ≠ .closed) (readers : t.connection.readers = s.connection.readers)
      (silent : .closed ∉ s.connection.course → .closed ∉ t.connection.course)
  | closed (phase : t.phase = .closed) (reports : t.reports = s.reports ++ [.phase .closed])

theorem Stays.of {s t : Service} (up : s.phase ≠ .closed) (connection : t.connection = s.connection) : Stays s t := by
  refine .attended ?_ (by rw [connection]) (by rw [connection]; exact id)
  change t.connection.phase ≠ .closed
  rwa [connection]

theorem lostReports {s : Service} (up : s.phase ≠ .closed) (stream : Nat) :
    ((s.enter .closed).endListener stream).phase = .closed ∧
      ((s.enter .closed).endListener stream).reports = s.reports ++ [.phase .closed] := by
  rw [enterOther up]
  exact ⟨rfl, rfl⟩

theorem turnStays {s : Service} (sound : s.Sound) (up : s.phase ≠ .closed) (stream : Nat)
    (calm : (s.turn stream).crashes = s.crashes) : Stays s (s.turn stream) := by
  have turned := turnTurned s stream
  generalize s.turn stream = t at turned calm
  cases turned with
  | still => exact .of up rfl
  | ends reader =>
    have active : s.phase.active := (sound.stage.read reader).2.1
    obtain ⟨phase, reports⟩ := lostReports up stream
    rw [if_pos active]
    exact .closed phase reports
  | takes reader ready rest taken =>
    have same := connectionSetQueue s stream rest
    cases taken with
    | ignore => exact .of up same
    | fail text => exact .of up ((connectionReport _ _ rfl).trans same)
    | receive text => exact .of up ((connectionReceive _ text).trans same)
    | lose =>
      obtain ⟨phase, reports⟩ := lostReports (s := s.setQueue stream rest) up stream
      exact .closed phase reports
    | crash text =>
      have kept : ((s.setQueue stream rest).receive text).1.crashes = s.crashes :=
        congrArg Connection.crashes ((connectionReceive _ text).trans same)
      have crashed : s.crashes ++ [stream] = s.crashes := kept ▸ calm
      simp at crashed
    | establish opening =>
      generalize risen : (((s.setQueue stream rest).enter .connected).update (.listener stream)).1 = t
      have connection : t.connection = s.connection.enter .connected := by
        rw [← risen, connectionUpdate, connectionEnter, same]
      refine .attended ?_ ?_ ?_
      · change t.connection.phase ≠ .closed
        rw [connection, Connection.enterPhase]
        nofun
      · rw [connection, Connection.enterReaders]
      · intro silent
        rw [connection]
        exact Connection.enterSilent silent nofun

structure Watched (s : Service) : Prop extends Sound s where
  owned : ∀ b ∈ s.bursts, ∃ stream, b.caller = .listener stream
  attended : s.phase ≠ .closed → s.listeners ≠ []
  silent : s.phase ≠ .closed → .closed ∉ s.connection.course
  last : s.phase = .closed → s.reports.getLast? = some (.phase .closed)

theorem Watched.down {s : Service} (watched : s.Watched) (closed : s.phase = .closed) :
    s.listeners = [] ∧ s.bursts = [] ∧ s.connecting = none := by
  refine ⟨?_, ?_, ?_⟩
  · refine List.eq_nil_iff_forall_not_mem.mpr fun t mem => ?_
    have reader : t.stream ∈ s.connection.readers := List.mem_map_of_mem mem
    have active : s.phase.active := (watched.stage.read reader).2.1
    rw [closed] at active
    cases active
  · refine List.eq_nil_iff_forall_not_mem.mpr fun b mem => ?_
    obtain ⟨stream, own⟩ := watched.owned b mem
    exact watched.apart (by simp [closed]) b mem stream own
  · refine Option.eq_none_iff_forall_ne_some.mpr fun number waits => ?_
    have dialled := (watched.stage.dialled (show s.connecting.isSome by rw [waits]; rfl)).1
    cases closed.symm.trans dialled

structure Rests (s t : Service) : Prop where
  connection : t.connection = s.connection
  reports : t.reports = s.reports
  bursts : t.bursts = s.bursts

theorem arriveRests (s : Service) (stream : Nat) (signals : List Signal) : Rests s (s.arrive stream signals).1 := by
  refine ⟨connectionArrive s stream signals, ?_, congrArg Traffic.bursts (trafficArrive s stream signals)⟩
  unfold arrive
  split
  · rfl
  · split <;> rfl

theorem outsideRests {s : Service} {i : Input} (outside : i.Outside) (turn : ∀ stream, i ≠ .turn stream)
    (answer : ∀ caller, i ≠ .answerSend caller) : Rests s (s.step i).1 := by
  cases i with
  | arrive stream signals => exact arriveRests s stream signals
  | cut stream => exact ⟨connectionCut s stream, rfl, rfl⟩
  | failSends | holdSends | grantSends | freeSends => exact ⟨rfl, rfl, rfl⟩
  | turn stream => exact (turn stream rfl).elim
  | answerSend caller => exact (answer caller rfl).elim
  | _ => exact outside.elim

theorem Watched.rests {s t : Service} (watched : s.Watched) (sound : t.Sound) (rests : Rests s t) : t.Watched := by
  have phase : t.phase = s.phase := congrArg Connection.phase rests.connection
  have readers : t.listeners.map Listener.stream = s.listeners.map Listener.stream :=
    congrArg Connection.readers rests.connection
  refine ⟨sound, rests.bursts ▸ watched.owned, fun up none => ?_, fun up => ?_, fun down => ?_⟩
  · rw [none] at readers
    exact watched.attended (phase ▸ up) (List.map_eq_nil_iff.mp readers.symm)
  · rw [rests.connection]
    exact watched.silent (phase ▸ up)
  · rw [rests.reports]
    exact watched.last (phase ▸ down)

theorem Watched.stays {s t : Service} (watched : s.Watched) (up : s.phase ≠ .closed) (sound : t.Sound)
    (deed : Deed s t) (stays : Stays s t) : t.Watched := by
  have owned : ∀ b ∈ t.bursts, ∃ stream, b.caller = .listener stream := by
    intro b mem
    rcases deed.callers mem with own | ⟨c, waits, same⟩
    · exact own
    · exact same ▸ watched.owned c waits
  cases stays with
  | attended phase readers silent =>
    refine ⟨sound, owned, fun _ none => ?_, fun _ => silent (watched.silent up), fun down => (phase down).elim⟩
    have before : s.connection.readers = [] := by
      rw [← readers]
      exact congrArg (List.map Listener.stream) none
    exact watched.attended up (List.map_eq_nil_iff.mp before)
  | closed phase reports =>
    refine ⟨sound, owned, fun up => (up phase).elim, fun up => (up phase).elim, fun _ => ?_⟩
    rw [reports]
    exact List.getLast?_concat ..

theorem Watched.idle {s : Service} (watched : s.Watched) (closed : s.phase = .closed) {i : Input}
    (outside : i.Outside) : Rests s (s.step i).1 := by
  obtain ⟨listeners, bursts, _⟩ := watched.down closed
  by_cases turn : ∃ stream, i = .turn stream
  · obtain ⟨stream, rfl⟩ := turn
    have still : s.turn stream = s := by
      unfold Service.turn listener?
      rw [listeners]
      rfl
    exact ⟨congrArg connection still, congrArg reports still, congrArg Service.bursts still⟩
  · by_cases answer : ∃ caller, i = .answerSend caller
    · obtain ⟨caller, rfl⟩ := answer
      have still : s.answerSend caller = s := by
        unfold answerSend
        rw [bursts]
        rfl
      exact ⟨congrArg connection still, congrArg reports still, congrArg Service.bursts still⟩
    · exact outsideRests outside (fun stream same => turn ⟨stream, same⟩)
        fun caller same => answer ⟨caller, same⟩

theorem Watched.step {s : Service} (watched : s.Watched) {i : Input} (outside : i.Outside)
    (calm : (s.step i).1.crashes = s.crashes) : (s.step i).1.Watched := by
  have sound : (s.step i).1.Sound := runSound watched.toSound [i]
  by_cases closed : s.phase = .closed
  · exact watched.rests sound (watched.idle closed outside)
  · cases i with
    | turn stream =>
      exact watched.stays closed sound (turnDeed s stream) (turnStays watched.toSound closed stream calm)
    | answerSend caller =>
      exact watched.stays closed sound (answerSendDeed s caller) (.of closed (connectionAnswer s caller))
    | _ => exact watched.rests sound (outsideRests outside nofun nofun)

theorem outsideReports {s : Service} {i : Input} (outside : i.Outside) : s.reports <+: (s.step i).1.reports := by
  cases i with
  | turn stream => exact turnReports s stream
  | answerSend caller => exact answerReports s caller
  | _ => exact (outsideRests outside nofun nofun).reports ▸ List.prefix_rfl

theorem enterClosed (s : Service) : (s.enter .closed).phase = .closed := by
  change (s.enter .closed).connection.phase = .closed
  rw [connectionEnter, Connection.enterPhase]

theorem Sound.alone {s : Service} (sound : s.Sound) {t : Listener} (mem : t ∈ s.listeners) :
    s.listener? t.stream = some t ∧ s.phase.active := by
  obtain ⟨_, active, readers, _⟩ := sound.stage.read (List.mem_map_of_mem mem)
  have one : s.listeners.length = 1 := by
    have length := congrArg List.length (show s.listeners.map Listener.stream = _ from readers)
    simpa using length
  obtain ⟨u, alone⟩ := List.length_eq_one_iff.mp one
  rw [alone] at mem
  obtain rfl := List.mem_singleton.mp mem
  exact ⟨by simp [listener?, alone], active⟩

theorem Sound.finishes {s : Service} (sound : s.Sound) {t : Listener} (mem : t ∈ s.listeners)
    (finishes : t.Finishes) (ready : s.suspended t.stream = false) : (s.turn t.stream).phase = .closed := by
  obtain ⟨found, active⟩ := sound.alone mem
  obtain ⟨stream, queue, ended⟩ := t
  cases finishes with
  | @told reason rest next =>
    obtain rfl : queue = _ := next
    rw [turnOver (t := (s.setQueue stream rest).enter .closed) found ready rfl]
    exact enterClosed _
  | found taken past =>
    obtain rfl : queue = [] := taken
    obtain rfl : ended = true := past
    have turned : s.turn stream = (s.enter .closed).endListener stream := by
      unfold turn
      rw [found]
      simp [ready, active]
    rw [turned]
    exact enterClosed s

theorem Watched.shutDown {s : Service} (watched : s.Watched) (closed : s.phase = .closed) : Rests s s.shutDown.1 := by
  obtain ⟨_, _, free⟩ := watched.down closed
  have ended : s.shutDown = ({ s with calls := s.calls + 1 }, ok) := by
    unfold Service.shutDown beginClose
    simp [free, closed]
  rw [ended]
  exact ⟨rfl, rfl, rfl⟩

end Service
end AccountWatch
