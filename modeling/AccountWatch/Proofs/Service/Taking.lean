import AccountWatch.Proofs.Service.Unheld

/-! What a listener does with one signal, as equations: for each signal the state that it leaves, and when the
listener goes on. They hold of any state, so the ones about sending and publishing name what they need. -/
namespace AccountWatch.Service

theorem listenerSetQueue {s : Service} {stream : Nat} {u : Listener}
    (found : s.listener? stream = some u) (queue : List Signal) :
    (s.setQueue stream queue).listener? stream = some { u with queue } := by
  have same : (fun t : Listener => decide (t.stream = stream)) ∘
      (fun t => if t.stream = stream then { t with queue } else t) = fun t => decide (t.stream = stream) := by
    funext t
    by_cases own : t.stream = stream <;> simp [own]
  have own : u.stream = stream := by simpa using List.find?_some found
  unfold listener? setQueue
  dsimp only
  rw [List.find?_map, same, show s.listeners.find? (fun t => decide (t.stream = stream)) = some u from found]
  simp [own]

theorem turnTakes {s : Service} {stream : Nat} {x : Signal} {rest : List Signal} {ended : Bool}
    (found : s.listener? stream = some ⟨stream, x :: rest, ended⟩) (ready : s.suspended stream = false) :
    s.turn stream = if ((s.setQueue stream rest).take stream x).2 = .over then
      ((s.setQueue stream rest).take stream x).1.endListener stream
      else ((s.setQueue stream rest).take stream x).1 := by
  unfold turn
  rw [found]
  dsimp only
  rw [if_neg (by simp [ready])]
  split <;> rename_i same
  · rw [same]; rfl
  · rename_i different
    rw [same, if_neg different]

theorem turnReady {s t : Service} {stream : Nat} {x : Signal} {rest : List Signal} {ended : Bool}
    (found : s.listener? stream = some ⟨stream, x :: rest, ended⟩) (ready : s.suspended stream = false)
    (takes : (s.setQueue stream rest).take stream x = (t, .ready)) : s.turn stream = t := by
  rw [turnTakes found ready, takes]
  rfl

theorem turnOver {s t : Service} {stream : Nat} {x : Signal} {rest : List Signal} {ended : Bool}
    (found : s.listener? stream = some ⟨stream, x :: rest, ended⟩) (ready : s.suspended stream = false)
    (takes : (s.setQueue stream rest).take stream x = (t, .over)) : s.turn stream = t.endListener stream := by
  rw [turnTakes found ready, takes]
  rfl

theorem takeMalformed {s : Service} {text : String} {cause : FrameError} (stream : Nat)
    (active : s.phase.active) (bad : Message.decode text = .error cause) : s.take stream (.frame text) =
      (s.report (.malformed (WatchError.malformed cause).message), .ready) := by
  unfold take receive
  dsimp only
  rw [if_pos active, bad]

theorem takeMessage {s : Service} {text : String} {m : Message} (stream : Nat) (active : s.phase.active)
    (good : Message.decode text = .ok m) (passes : (s.publisher.publish m).2 ≠ .crashed) :
    s.take stream (.frame text) =
      ({ s with session := s.session.observe m, publisher := (s.publisher.publish m).1 }, .ready) := by
  unfold take receive
  dsimp only
  rw [if_pos active, good]
  simp [passes]

theorem takeCrash {s : Service} {text : String} {m : Message} (stream : Nat) (active : s.phase.active)
    (good : Message.decode text = .ok m) (crash : (s.publisher.publish m).2 = .crashed) :
    s.take stream (.frame text) =
      ({ s with
        session := s.session.observe m
        publisher := (s.publisher.publish m).1
        crashes := s.crashes ++ [stream] }, .over) := by
  unfold take receive
  dsimp only
  rw [if_pos active, good]
  simp [crash]

theorem takeAgain {s : Service} (stream : Nat) (different : s.phase ≠ .opening) :
    s.take stream .opened = (s, .ready) := by
  unfold take
  exact if_pos different

theorem enterOther {s : Service} {next : Phase} (different : s.phase ≠ next) :
    s.enter next = { s with phase := next, reports := s.reports ++ [.phase next] } := by
  unfold enter
  rw [if_neg different]
  rfl

theorem takeOpened {s : Service} (stream : Nat) (opening : s.phase = .opening)
    (free : s.transport.permits = none) : s.take stream .opened = (({ s with
      phase := .connected
      reports := s.reports ++ [.phase .connected]
      asked := s.asked ++ [⟨.listener stream, s.session, s.currency⟩] } : Service).delivered
        (.listener stream) s.startup, .ready) := by
  have up : s.enter .connected = { s with
      phase := .connected
      reports := s.reports ++ [.phase .connected] } := enterOther (by simp [opening])
  obtain ⟨handed, ended⟩ := updateUnheld (s := { s with
    phase := .connected
    reports := s.reports ++ [.phase .connected] }) free (.listener stream)
  unfold take
  rw [if_neg (by simp [opening])]
  dsimp only
  rw [up]
  split <;> rename_i same
  · rw [same] at handed
    exact congrArg (·, Progress.ready) handed
  · rw [same] at ended
    cases ended

end AccountWatch.Service
