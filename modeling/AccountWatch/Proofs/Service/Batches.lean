import AccountWatch.Proofs.Service.Departure
import AccountWatch.Proofs.Service.Hearing

/-! Signals put into a stream all at once and in batches. What is queued behind a signal has no part in how the signal
is taken, so more of it may come before a turn or after it; and a listener that cannot go on is left as it is
by a turn. So it does not matter how often the listener is let go on in between. -/
namespace AccountWatch.Service

/-! Other listeners in place of those there are: nothing that is done with a signal reads or changes them. -/

def staffed (s : Service) (listeners : List Listener) : Service := { s with listeners }

section
variable (s : Service) (listeners : List Listener)

theorem staffedEnter (next : Phase) : (s.staffed listeners).enter next = (s.enter next).staffed listeners := by
  unfold enter staffed
  dsimp only
  split <;> rfl

theorem staffedSettle (h : Handed) : (s.staffed listeners).settle h =
    ((s.settle h).1.staffed listeners, (s.settle h).2) := by
  unfold settle staffed
  dsimp only
  split <;> rfl

theorem staffedSend (caller : Caller) (accepted : Nat) (requests : List Request) :
    (s.staffed listeners).send caller accepted requests =
      ((s.send caller accepted requests).1.staffed listeners, (s.send caller accepted requests).2) := by
  induction requests generalizing accepted s with
  | nil => rfl
  | cons request rest ih =>
    have handed : (s.staffed listeners).handOver ⟨caller, request⟩ =
      ((s.handOver ⟨caller, request⟩).1.staffed listeners, (s.handOver ⟨caller, request⟩).2) := rfl
    unfold send
    rw [handed]
    generalize s.handOver ⟨caller, request⟩ = handed
    obtain ⟨t, free⟩ := handed
    cases free with
    | true =>
      dsimp only
      rw [staffedSettle]
      exact ih (t.settle ⟨caller, request⟩).1 _
    | false => rfl

theorem staffedUpdate (caller : Caller) : (s.staffed listeners).update caller =
    ((s.update caller).1.staffed listeners, (s.update caller).2) := by
  have sent := staffedSend { s with asked := s.asked ++ [⟨caller, s.session, s.currency⟩] } listeners caller 0
  unfold update
  dsimp only [staffed]
  cases s.session.requests? s.currency with
  | none => rfl
  | some requests => exact congrArg (fun r : Service × Option Nat => (r.1, r.2.map Outcome.accepted)) (sent requests)

theorem staffedReceive (text : String) : (s.staffed listeners).receive text =
    ((s.receive text).1.staffed listeners, (s.receive text).2) := by
  unfold receive
  split <;> rfl

theorem staffedTake (stream : Nat) (x : Signal) : (s.staffed listeners).take stream x =
    ((s.take stream x).1.staffed listeners, (s.take stream x).2) := by
  have same : (s.staffed listeners).phase = s.phase := rfl
  cases x with
  | closed => exact congrArg (·, Progress.over) (staffedEnter s listeners .closed)
  | failure => rfl
  | frame text =>
    unfold take
    dsimp only
    rw [staffedReceive, same]
    split
    · generalize s.receive text = received
      obtain ⟨t, passes⟩ := received
      cases passes <;> rfl
    · rfl
  | opened =>
    unfold take
    dsimp only
    rw [staffedEnter, staffedUpdate, same]
    split
    · rfl
    · generalize (s.enter .connected).update (.listener stream) = updated
      obtain ⟨t, outcome⟩ := updated
      cases outcome <;> rfl

end

theorem takeListeners (s : Service) (stream : Nat) (x : Signal) : (s.take stream x).1.listeners = s.listeners :=
  congrArg (fun r => r.1.listeners) (staffedTake s s.listeners stream x)

theorem takeQueued (s : Service) (stream : Nat) (queue : List Signal) (x : Signal) :
    (s.setQueue stream queue).take stream x =
      ((s.take stream x).1.setQueue stream queue, (s.take stream x).2) := by
  have staffed := staffedTake s (s.setQueue stream queue).listeners stream x
  have same : (s.take stream x).1.staffed (s.setQueue stream queue).listeners =
      (s.take stream x).1.setQueue stream queue := by
    unfold setQueue
    rw [takeListeners]
    rfl
  rwa [same] at staffed

theorem requeueTwice (s : Service) (stream : Nat) (queue later : List Signal) :
    (s.setQueue stream queue).setQueue stream later = s.setQueue stream later := by
  unfold setQueue
  dsimp only
  rw [List.map_map]
  congr 1
  apply List.map_congr_left
  intro t _
  by_cases own : t.stream = stream <;> simp [own]

theorem listenerEnd (s : Service) (stream : Nat) : (s.endListener stream).listener? stream = none := by
  apply List.find?_eq_none.mpr
  intro t mem
  have other := (List.mem_filter.mp mem).2
  simpa using other

theorem turnAhead {s : Service} {stream : Nat} {x : Signal} {rest : List Signal} {ended : Bool}
    (found : s.listener? stream = some ⟨stream, x :: rest, ended⟩) (ready : s.suspended stream = false) :
    s.turn stream = if (s.take stream x).2 = .over then (s.take stream x).1.endListener stream
      else (s.take stream x).1.setQueue stream rest := by
  rw [turnTakes found ready, takeQueued, endSetQueue]

theorem takeListener {s : Service} {stream : Nat} {t : Listener} (found : s.listener? stream = some t)
    (x : Signal) : (s.take stream x).1.listener? stream = some t := by
  unfold listener?
  rw [takeListeners]
  exact found

theorem turnGone {s : Service} {stream : Nat} (gone : s.listener? stream = none) : s.turn stream = s := by
  unfold turn
  rw [gone]

theorem turnSuspended {s : Service} {stream : Nat} (waits : s.suspended stream) : s.turn stream = s := by
  unfold turn
  split
  · rfl
  · exact if_pos waits

theorem turnEmpty {s : Service} {stream : Nat} (found : s.listener? stream = some ⟨stream, [], false⟩) :
    s.turn stream = s := by
  unfold turn
  rw [found]
  exact ite_self s

theorem turnListener (s : Service) (stream : Nat) : s.turn stream = s ∨
    ∀ t, (s.turn stream).listener? stream = some t →
      ∃ x, s.listener? stream = some ⟨stream, x :: t.queue, t.ended⟩ := by
  cases found : s.listener? stream with
  | none => exact .inl (turnGone found)
  | some u =>
    obtain ⟨own, queue, ended⟩ := u
    obtain rfl : own = stream := (readerOfListener found).1
    by_cases waits : s.suspended own
    · exact .inl (turnSuspended waits)
    · have ready : s.suspended own = false := Bool.eq_false_iff.mpr waits
      cases queue with
      | nil =>
        cases ended with
        | false => exact .inl (turnEmpty found)
        | true =>
          right
          have left : s.turn own = (if s.phase.active then s.enter .closed else s).endListener own := by
            unfold turn
            rw [found]
            exact if_neg waits
          intro t there
          rw [left, listenerEnd] at there
          cases there
      | cons x rest =>
        right
        intro t there
        rw [turnAhead found ready] at there
        split at there
        · rw [listenerEnd] at there
          cases there
        · rw [listenerSetQueue (takeListener found x)] at there
          obtain rfl := Option.some.inj there
          exact ⟨x, rfl⟩

def Deaf (s : Service) (stream : Nat) : Prop := ∀ t, s.listener? stream = some t → t.ended = true

theorem Deaf.arrive {s : Service} {stream : Nat} (deaf : s.Deaf stream) (signals : List Signal) :
    s.arrive stream signals = (s, 0) := by
  unfold Service.arrive
  split
  · rfl
  · rename_i t found
    exact if_pos (deaf t found)

theorem Deaf.turn {s : Service} {stream : Nat} (deaf : s.Deaf stream) : (s.turn stream).Deaf stream := by
  rcases turnListener s stream with still | behind
  · rwa [still]
  · intro t there
    obtain ⟨x, found⟩ := behind t there
    exact deaf ⟨stream, x :: t.queue, t.ended⟩ found

theorem Deaf.turns {s : Service} {stream : Nat} (deaf : s.Deaf stream) (n : Nat) : (turns stream n s).Deaf stream := by
  induction n generalizing s with
  | zero => exact deaf
  | succ n ih => exact ih deaf.turn

theorem arriveHeard {s : Service} {stream : Nat} {queue : List Signal}
    (found : s.listener? stream = some ⟨stream, queue, false⟩) (signals : List Signal) :
    s.arrive stream signals = (s.setQueue stream (queue ++ signals), signals.length) := by
  unfold arrive
  rw [found]
  exact if_neg Bool.false_ne_true

theorem deafOrHeard (s : Service) (stream : Nat) :
    s.Deaf stream ∨ ∃ queue, s.listener? stream = some ⟨stream, queue, false⟩ := by
  by_cases deaf : s.Deaf stream
  · exact .inl deaf
  · unfold Deaf at deaf
    push Not at deaf
    obtain ⟨⟨own, queue, ended⟩, found, open'⟩ := deaf
    obtain rfl : own = stream := (readerOfListener found).1
    obtain rfl : ended = false := by simpa using open'
    exact .inr ⟨queue, found⟩

theorem arriveAppend (s : Service) (stream : Nat) (signals more : List Signal) :
    (s.arrive stream (signals ++ more)).1 = ((s.arrive stream signals).1.arrive stream more).1 := by
  rcases deafOrHeard s stream with deaf | ⟨queue, found⟩
  · rw [deaf.arrive, deaf.arrive, deaf.arrive]
  · have there := listenerSetQueue found (queue ++ signals)
    rw [arriveHeard found, arriveHeard found, arriveHeard there]
    dsimp only
    rw [requeueTwice, List.append_assoc]

theorem turnArrive (s : Service) (stream : Nat) (more : List Signal) : s.turn stream = s ∨
    (s.arrive stream more).1.turn stream = ((s.turn stream).arrive stream more).1 := by
  rcases deafOrHeard s stream with deaf | ⟨queue, found⟩
  · right
    rw [deaf.arrive, deaf.turn.arrive]
  · by_cases waits : s.suspended stream
    · exact .inl (turnSuspended waits)
    · have ready : s.suspended stream = false := Bool.eq_false_iff.mpr waits
      cases queue with
      | nil => exact .inl (turnEmpty found)
      | cons x rest =>
        right
        have there := listenerSetQueue found (x :: (rest ++ more))
        have ahead := turnAhead there ready
        rw [arriveHeard found, List.cons_append, ahead, turnAhead found ready, takeQueued, endSetQueue, requeueTwice]
        split
        · have gone : ((s.take stream x).1.endListener stream).Deaf stream := by
            intro t there
            rw [listenerEnd] at there
            cases there
          rw [gone.arrive]
        · have behind := listenerSetQueue (takeListener found x) rest
          rw [arriveHeard behind, requeueTwice]

theorem turnsStill {s : Service} {stream : Nat} (still : s.turn stream = s) (n : Nat) : turns stream n s = s := by
  induction n with
  | zero => rfl
  | succ n ih => rw [turns, still, ih]

theorem turnsAdd (stream m n : Nat) (s : Service) : turns stream (m + n) s = turns stream n (turns stream m s) := by
  induction m generalizing s with
  | zero => rw [Nat.zero_add, turns]
  | succ m ih => rw [Nat.succ_add, turns, ih, turns]

def Enough (s : Service) (stream n : Nat) : Prop := ∀ t, s.listener? stream = some t → t.queue.length < n

theorem Enough.rests {s : Service} {stream n : Nat} (enough : s.Enough stream n) :
    (turns stream n s).turn stream = turns stream n s := by
  induction n generalizing s with
  | zero =>
    change s.turn stream = s
    rcases turnListener s stream with still | behind
    · exact still
    · cases found : s.listener? stream with
      | none => exact turnGone found
      | some t => exact absurd (enough t found) (Nat.not_lt_zero _)
  | succ n ih =>
    rw [turns]
    rcases turnListener s stream with still | behind
    · rw [still, turnsStill still, still]
    · apply ih
      intro t there
      obtain ⟨x, found⟩ := behind t there
      exact Nat.lt_of_succ_lt_succ (enough _ found)

theorem Enough.wakes {s : Service} {stream n : Nat} (enough : s.Enough stream n) :
    turns stream n s = s.wake stream := by
  unfold wake
  split
  · rename_i gone
    exact turnsGone gone n
  · rename_i t found
    have least : s.Enough stream (t.queue.length + 1) := by
      intro u other
      rw [found] at other
      obtain rfl := Option.some.inj other
      exact Nat.lt_succ_self _
    obtain ⟨k, rfl⟩ := Nat.exists_eq_add_of_le (Nat.succ_le_of_lt (enough t found))
    rw [turnsAdd]
    exact turnsStill least.rests k

theorem enoughThere (s : Service) (stream : Nat) : ∃ n, s.Enough stream n := by
  cases found : s.listener? stream with
  | none => exact ⟨0, fun t other => by simp [found] at other⟩
  | some t =>
    refine ⟨t.queue.length + 1, fun u other => ?_⟩
    rw [found] at other
    obtain rfl := Option.some.inj other
    exact Nat.lt_succ_self _

theorem wakeRests (s : Service) (stream : Nat) : (s.wake stream).turn stream = s.wake stream := by
  obtain ⟨n, enough⟩ := enoughThere s stream
  rw [← enough.wakes, enough.rests]

theorem wakeTurn (s : Service) (stream : Nat) : (s.turn stream).wake stream = s.wake stream := by
  rcases turnListener s stream with still | behind
  · rw [still]
  · obtain ⟨n, enough⟩ := enoughThere s stream
    have later : s.Enough stream (n + 1) := fun t found => Nat.lt_succ_of_lt (enough t found)
    have behindEnough : (s.turn stream).Enough stream n := by
      intro t there
      obtain ⟨x, found⟩ := behind t there
      exact Nat.lt_of_succ_lt (enough _ found)
    rw [← later.wakes, ← behindEnough.wakes, turns]

theorem turnsArrive (s : Service) (stream n : Nat) (more : List Signal) :
    ((turns stream n s).arrive stream more).1.wake stream = (s.arrive stream more).1.wake stream := by
  induction n generalizing s with
  | zero => rfl
  | succ n ih =>
    rw [turns, ih]
    rcases turnArrive s stream more with still | moved
    · rw [still]
    · rw [← moved, wakeTurn]

theorem emitTwice (s : Service) (stream : Nat) (signals more : List Signal) :
    ((s.emit stream signals).1.emit stream more).1 = (s.emit stream (signals ++ more)).1 := by
  obtain ⟨n, enough⟩ := enoughThere (s.arrive stream signals).1 stream
  change (((s.arrive stream signals).1.wake stream).arrive stream more).1.wake stream =
    (s.arrive stream (signals ++ more)).1.wake stream
  rw [← enough.wakes, turnsArrive, arriveAppend]

theorem emitAll (s : Service) (stream : Nat) (first : List Signal) (rest : List (List Signal)) :
    s.run ((first :: rest).map (.emit stream)) = s.run [.emit stream (first :: rest).flatten] := by
  induction rest generalizing first with
  | nil => simp
  | cons second rest ih =>
    have joined : s.run ((first :: second :: rest).map (.emit stream)) =
        s.run (((first ++ second) :: rest).map (.emit stream)) :=
      congrArg (fun t : Service => t.run (rest.map (.emit stream))) (emitTwice s stream first second)
    rw [joined, ih, List.flatten_cons, List.flatten_cons, List.flatten_cons, List.append_assoc]

/-! Nobody else is let go on, and nobody else could: no turn brings a listener. -/

theorem turnReaders {s : Service} {stream n : Nat} (reader : n ∈ (s.turn stream).connection.readers) :
    n ∈ s.connection.readers := by
  have turned := turnTurned s stream
  generalize s.turn stream = t at turned reader
  cases turned with
  | still => exact reader
  | takes _ _ rest taken =>
    cases taken with
    | ignore => simpa using reader
    | establish => simpa using reader
    | receive text => simpa using reader
    | crash text =>
      rw [connectionEnd] at reader
      have old : n ∈ ((s.setQueue stream rest).receive text).1.connection.readers := (List.mem_filter.mp reader).1
      simpa using old
    | lose =>
      rw [connectionEnd] at reader
      simpa using (List.mem_filter.mp reader).1
    | fail text =>
      rw [connectionReport _ _ rfl] at reader
      simpa using reader
  | ends =>
    rw [connectionEnd] at reader
    have old := (List.mem_filter.mp reader).1
    split at old
    · simpa using old
    · exact old

theorem turnsReaders {s : Service} {stream n k : Nat} (reader : n ∈ (turns stream k s).connection.readers) :
    n ∈ s.connection.readers := by
  induction k generalizing s with
  | zero => exact reader
  | succ k ih => exact turnReaders (ih reader)

theorem emitReaders {s : Service} {stream n : Nat} {signals : List Signal}
    (reader : n ∈ (s.emit stream signals).1.connection.readers) : n ∈ s.connection.readers := by
  obtain ⟨k, enough⟩ := enoughThere (s.arrive stream signals).1 stream
  change n ∈ ((s.arrive stream signals).1.wake stream).connection.readers at reader
  rw [← enough.wakes] at reader
  simpa using turnsReaders reader

def accepted (stream : Nat) : Service → List (List Signal) → Nat
  | _, [] => 0
  | s, signals :: rest => (s.emit stream signals).2 + accepted stream (s.emit stream signals).1 rest

theorem Deaf.emits {s : Service} {stream : Nat} (deaf : s.Deaf stream) (signals : List Signal) :
    (s.emit stream signals).1.Deaf stream := by
  obtain ⟨n, enough⟩ := enoughThere s stream
  change ((s.arrive stream signals).1.wake stream).Deaf stream
  rw [deaf.arrive, ← enough.wakes]
  exact deaf.turns n

theorem Deaf.accepts {s : Service} {stream : Nat} (deaf : s.Deaf stream) (batches : List (List Signal)) :
    accepted stream s batches = 0 := by
  induction batches generalizing s with
  | nil => rfl
  | cons signals rest ih =>
    have none : (s.emit stream signals).2 = 0 := congrArg Prod.snd (deaf.arrive signals)
    rw [accepted, none, ih (deaf.emits signals)]

theorem acceptedAtMost (s : Service) (stream : Nat) (batches : List (List Signal)) :
    accepted stream s batches ≤ batches.flatten.length := by
  induction batches generalizing s with
  | nil => exact Nat.le_refl 0
  | cons signals rest ih =>
    have some : (s.arrive stream signals).2 ≤ signals.length := by
      rcases deafOrHeard s stream with deaf | ⟨queue, found⟩
      · rw [deaf.arrive]
        exact Nat.zero_le _
      · rw [arriveHeard found]
    rw [accepted, List.flatten_cons, List.length_append]
    exact Nat.add_le_add some (ih _)

theorem acceptedAtOnce (s : Service) (stream : Nat) (batches : List (List Signal)) :
    accepted stream s batches ≤ (s.emit stream batches.flatten).2 := by
  change _ ≤ (s.arrive stream batches.flatten).2
  rcases deafOrHeard s stream with deaf | ⟨queue, found⟩
  · rw [deaf.accepts]
    exact Nat.zero_le _
  · rw [arriveHeard found]
    exact acceptedAtMost s stream batches

/-- Signals that come in batches leave the service as it is when they come at once, after each batch with no listener
that could go on. Since nothing of the service differs, no later step does; only more signals may have been
accepted at once, which nobody reads any more. -/
theorem batchesMakeNoDifference (account : Option Address) (currency : String) (fallback : UInt64)
    (inputs : List Input) (first : List Signal) (rest : List (List Signal)) :
    let s := (start account currency fallback).run inputs
    let stream := s.transport.streams
    let batches := first :: rest
    let t := s.run (batches.map (.emit stream))
    t = s.run [.emit stream batches.flatten] ∧ (∀ n, t.turn n = t) ∧
      accepted stream s batches ≤ (s.emit stream batches.flatten).2 := by
  intro s stream batches t
  have sound : s.Sound := runSound (startSound account currency fallback) inputs
  have same : t = s.run [.emit stream batches.flatten] := emitAll s stream first rest
  refine ⟨same, fun n => ?_, acceptedAtOnce s stream batches⟩
  rw [same]
  change ((s.arrive stream batches.flatten).1.wake stream).turn n = (s.arrive stream batches.flatten).1.wake stream
  by_cases own : n = stream
  · rw [own]
    exact wakeRests _ stream
  · have unread : n ∉ (s.emit stream batches.flatten).1.connection.readers := fun reader =>
      own (sound.stage.read (emitReaders reader)).1
    exact turnGone (unreadListener unread)

end AccountWatch.Service
