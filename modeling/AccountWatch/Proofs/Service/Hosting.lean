import AccountWatch.Service.Run

/-! The same service with another publisher. Nothing that the service does for its connection, its payloads and its
calls depends on who has subscribed, so such a step is the same step whatever publisher is put in its place.
The list of crashed listeners is put in place with the publisher: nothing depends on it either. -/
namespace AccountWatch.Service

def hosting (s : Service) (publisher : Publisher) (crashes : List Nat) : Service := { s with publisher, crashes }

section
variable (s : Service) (p : Publisher) (crashes : List Nat)

@[simp] theorem hostingPhase : (s.hosting p crashes).phase = s.phase := rfl

@[simp] theorem hostingTransport : (s.hosting p crashes).transport = s.transport := rfl

@[simp] theorem hostingListener (stream : Nat) : (s.hosting p crashes).listener? stream = s.listener? stream := rfl

theorem hostingEnter (next : Phase) : (s.hosting p crashes).enter next = (s.enter next).hosting p crashes := by
  unfold enter hosting
  dsimp only
  split <;> rfl

theorem hostingAbortHandle : (s.hosting p crashes).abortHandle = s.abortHandle.hosting p crashes := by
  unfold abortHandle hosting
  dsimp only
  split <;> rfl

theorem hostingArrive (stream : Nat) (signals : List Signal) : (s.hosting p crashes).arrive stream signals =
    ((s.arrive stream signals).1.hosting p crashes, (s.arrive stream signals).2) := by
  unfold arrive
  rw [hostingListener]
  split
  · rfl
  · split <;> rfl

theorem hostingSettle (h : Handed) : (s.hosting p crashes).settle h =
    ((s.settle h).1.hosting p crashes, (s.settle h).2) := by
  unfold settle hosting
  dsimp only
  split <;> rfl

theorem hostingSend (caller : Caller) (accepted : Nat) (requests : List Request) :
    (s.hosting p crashes).send caller accepted requests =
      ((s.send caller accepted requests).1.hosting p crashes, (s.send caller accepted requests).2) := by
  induction requests generalizing accepted s with
  | nil => rfl
  | cons request rest ih =>
    have handed : (s.hosting p crashes).handOver ⟨caller, request⟩ =
      ((s.handOver ⟨caller, request⟩).1.hosting p crashes, (s.handOver ⟨caller, request⟩).2) := rfl
    unfold send
    rw [handed]
    generalize s.handOver ⟨caller, request⟩ = handed
    obtain ⟨t, free⟩ := handed
    cases free with
    | true =>
      dsimp only
      rw [hostingSettle]
      exact ih (t.settle ⟨caller, request⟩).1 _
    | false => rfl

theorem hostingUpdate (caller : Caller) : (s.hosting p crashes).update caller =
    ((s.update caller).1.hosting p crashes, (s.update caller).2) := by
  have sent := hostingSend { s with asked := s.asked ++ [⟨caller, s.session, s.currency⟩] } p crashes caller 0
  unfold update
  dsimp only [hosting]
  cases s.session.requests? s.currency with
  | none => rfl
  | some requests => exact congrArg (fun r : Service × Option Nat => (r.1, r.2.map Outcome.accepted)) (sent requests)

theorem hostingResume (b : Burst) : (s.hosting p crashes).resume b = (s.resume b).hosting p crashes := by
  unfold resume
  rw [hostingSettle]
  generalize s.settle ⟨b.caller, b.current⟩ = settled
  obtain ⟨t, n⟩ := settled
  dsimp only
  rw [hostingSend]
  generalize t.send b.caller (b.accepted + n) b.rest = sent
  obtain ⟨t, accepted⟩ := sent
  cases accepted with
  | none => rfl
  | some accepted => cases b.caller <;> rfl

theorem hostingAnswerSend (caller : Caller) :
    (s.hosting p crashes).answerSend caller = (s.answerSend caller).hosting p crashes := by
  unfold answerSend
  dsimp only [hosting]
  split
  · rfl
  · rename_i b _
    exact hostingResume { s with bursts := s.bursts.eraseP fun b => b.caller = caller } p crashes b

theorem hostingBeginOpen (number : Nat) : (s.hosting p crashes).beginOpen number =
    ((s.beginOpen number).1.hosting p crashes, (s.beginOpen number).2) := by
  unfold beginOpen
  rw [hostingEnter]
  dsimp only [hosting]
  split <;> rfl

theorem hostingEndOpen : (s.hosting p crashes).endOpen = (s.endOpen.1.hosting p crashes, s.endOpen.2) := by
  unfold endOpen
  dsimp only [hosting]
  generalize s.transport.connect = connected
  obtain ⟨transport, refusal⟩ := connected
  cases refusal with
  | some error =>
    have entered := hostingEnter ({ s with connecting := none, transport }.report
      (.transportFailure error.message)) p crashes .closed
    exact congrArg (·, Outcome.failed (.transportFailure error)) entered
  | none =>
    have aborted := hostingAbortHandle { s with connecting := none, transport } p crashes
    exact congrArg (fun t : Service => (({ t with
      handle := some transport.streams
      listeners := t.listeners ++ [⟨transport.streams, [], false⟩] } : Service), Outcome.done)) aborted

theorem hostingOpenUp : (s.hosting p crashes).openUp = (s.openUp.1.hosting p crashes, s.openUp.2) := by
  have began := hostingBeginOpen { s with session := s.session.setAddress s.account } p crashes (s.calls + 1)
  unfold openUp
  dsimp only [hosting] at began ⊢
  split
  · rfl
  · rw [began]
    generalize beginOpen _ _ = begun
    obtain ⟨t, outcome⟩ := begun
    cases outcome with
    | some outcome => rfl
    | none =>
      dsimp only
      split
      · rfl
      · exact congrArg (fun r : Service × Outcome => (r.1, Reply.ended r.2)) (hostingEndOpen t p crashes)

theorem hostingBeginClose (number : Nat) : (s.hosting p crashes).beginClose number =
    ((s.beginClose number).1.hosting p crashes, (s.beginClose number).2) := by
  unfold beginClose
  rw [hostingEnter, hostingAbortHandle]
  dsimp only [hosting]
  split <;> rfl

theorem hostingEndClose (number : Nat) : (s.hosting p crashes).endClose number =
    ((s.endClose number).1.hosting p crashes, (s.endClose number).2) := by
  have entered := hostingEnter { s with closings := s.closings.erase number } p crashes .closed
  unfold endClose
  dsimp only [hosting] at entered ⊢
  rw [entered]
  generalize enter _ _ = t
  dsimp only
  split <;> rfl

theorem hostingShutDown : (s.hosting p crashes).shutDown = (s.shutDown.1.hosting p crashes, s.shutDown.2) := by
  have began := hostingBeginClose { s with calls := s.calls + 1 } p crashes (s.calls + 1)
  unfold shutDown
  dsimp only [hosting] at began ⊢
  split
  · rfl
  · rw [began]
    generalize beginClose _ _ = begun
    obtain ⟨t, entered⟩ := begun
    cases entered with
    | false => rfl
    | true =>
      dsimp only
      split
      · rfl
      · exact congrArg (fun r : Service × Outcome => (r.1, Reply.ended r.2)) (hostingEndClose t p crashes _)

theorem hostingAnswerClose (number : Nat) :
    (s.hosting p crashes).answerClose number = (s.answerClose number).hosting p crashes := by
  have same : (s.hosting p crashes).closings = s.closings := rfl
  unfold answerClose
  rw [hostingEndClose, same]
  by_cases inside : number ∈ s.closings
  · rw [if_pos inside, if_pos inside]
    rfl
  · rw [if_neg inside, if_neg inside]

theorem hostingSettleCloses : (s.hosting p crashes).settleCloses = s.settleCloses.hosting p crashes := by
  have answered (numbers : List Nat) (t : Service) :
      numbers.foldl answerClose (t.hosting p crashes) = (numbers.foldl answerClose t).hosting p crashes := by
    induction numbers generalizing t with
    | nil => rfl
    | cons number rest ih => rw [List.foldl_cons, hostingAnswerClose, ih, List.foldl_cons]
  unfold settleCloses
  rw [hostingTransport]
  split
  · rfl
  · exact answered s.closings s

theorem hostingLetIn (entrants : List Entrant) :
    letIn entrants (s.hosting p crashes) = (letIn entrants s).hosting p crashes := by
  induction entrants generalizing s with
  | nil => rfl
  | cons e rest ih =>
    cases e with
    | opening number =>
      unfold letIn
      rw [hostingBeginOpen]
      generalize s.beginOpen number = begun
      obtain ⟨t, outcome⟩ := begun
      cases outcome with
      | some outcome => exact ih (t.finish number outcome)
      | none =>
        dsimp only
        rw [hostingEndOpen, hostingTransport]
        split
        · rfl
        · exact ih (t.endOpen.1.finish number t.endOpen.2)
    | closing number =>
      unfold letIn
      rw [hostingBeginClose]
      generalize s.beginClose number = begun
      obtain ⟨t, entered⟩ := begun
      cases entered with
      | false => exact ih (t.finish number .done)
      | true => exact ih t

theorem hostingAnswerOpen : (s.hosting p crashes).answerOpen = s.answerOpen.hosting p crashes := by
  have same : (s.hosting p crashes).connecting = s.connecting := rfl
  unfold answerOpen
  rw [hostingEndOpen, same]
  split
  · rfl
  · rw [← hostingSettleCloses, ← hostingLetIn]
    rfl

theorem hostingRequestUpdate : (s.hosting p crashes).requestUpdate =
    (s.requestUpdate.1.hosting p crashes, s.requestUpdate.2) := by
  have updated := hostingUpdate { s with calls := s.calls + 1 } p crashes (.call (s.calls + 1))
  unfold requestUpdate
  dsimp only [hosting] at updated ⊢
  rw [updated]
  generalize update _ _ = updated
  obtain ⟨t, outcome⟩ := updated
  cases outcome <;> rfl

end
end AccountWatch.Service
