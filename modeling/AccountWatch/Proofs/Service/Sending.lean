import AccountWatch.Service.Run

/-! The part of a service that its payloads are about: what was handed to the transport, what waits there,
which updates were asked for and how many calls were numbered. Handing over a list of requests gives the
transport either all of them, in order, or those up to one that waits with the rest behind it. -/
namespace AccountWatch

structure Traffic where
  sent : List Handed
  bursts : List Burst
  asked : List Asked
  calls : Nat

namespace Traffic

def ask (a : Traffic) (x : Asked) : Traffic := { a with asked := a.asked ++ [x] }

def count (a : Traffic) : Traffic := { a with calls := a.calls + 1 }

def without (a : Traffic) (caller : Caller) : Traffic :=
  { a with bursts := a.bursts.eraseP fun b => b.caller = caller }

def abort (a : Traffic) : Option Nat → Traffic
  | none => a
  | some stream => { a with bursts := a.bursts.filter fun b => b.caller ≠ .listener stream }

def handedBy (a : Traffic) (caller : Caller) : List Request :=
  (a.sent.filter fun h => h.caller = caller).map Handed.request

inductive Hands (caller : Caller) : List Request → Traffic → Traffic → Prop where
  | all (requests : List Request) (a : Traffic) :
      Hands caller requests a { a with sent := a.sent ++ requests.map (Handed.mk caller) }
  | waits (done : List Request) (current : Request) (rest : List Request) (accepted : Nat) (a : Traffic) :
      Hands caller (done ++ current :: rest) a { a with
        sent := a.sent ++ (done ++ [current]).map (Handed.mk caller)
        bursts := a.bursts ++ [⟨caller, current, rest, accepted⟩] }

theorem Hands.cons {caller : Caller} {request : Request} {requests : List Request} {a b : Traffic}
    (rest : Hands caller requests { a with sent := a.sent ++ [⟨caller, request⟩] } b) :
    Hands caller (request :: requests) a b := by
  cases rest with
  | all =>
    have longer : Hands caller _ a _ := .all (request :: requests) a
    rw [List.map_cons, List.append_cons] at longer
    exact longer
  | waits done current last accepted =>
    have longer : Hands caller _ a _ := .waits (request :: done) current last accepted a
    rw [List.cons_append, List.cons_append, List.map_cons, List.append_cons a.sent] at longer
    exact longer

theorem abortBursts {a : Traffic} {handle : Option Nat} {b : Burst} (mem : b ∈ (a.abort handle).bursts) :
    b ∈ a.bursts ∧ ∀ stream, handle = some stream → b.caller ≠ .listener stream := by
  cases handle with
  | none => exact ⟨mem, nofun⟩
  | some stream =>
    obtain ⟨old, other⟩ := List.mem_filter.mp mem
    refine ⟨old, ?_⟩
    intro other' same
    cases same
    simpa using other

theorem abortKeeps (a : Traffic) (handle : Option Nat) :
    (a.abort handle).sent = a.sent ∧ (a.abort handle).asked = a.asked ∧ (a.abort handle).calls = a.calls := by
  cases handle <;> exact ⟨rfl, rfl, rfl⟩

theorem abortIdle {a : Traffic} (handle : Option Nat)
    (idle : ∀ b ∈ a.bursts, ∀ stream, b.caller ≠ .listener stream) : a.abort handle = a := by
  cases handle with
  | none => rfl
  | some stream =>
    have all : (a.bursts.filter fun b => b.caller ≠ .listener stream) = a.bursts :=
      List.filter_eq_self.mpr fun b mem => by simpa using idle b mem stream
    change { a with bursts := a.bursts.filter fun b => b.caller ≠ .listener stream } = a
    rw [all]

theorem Hands.bursts {caller : Caller} {requests : List Request} {a b : Traffic}
    (hands : Hands caller requests a b) {x : Burst} (mem : x ∈ b.bursts) :
    x ∈ a.bursts ∨ x.caller = caller := by
  cases hands with
  | all => exact .inl mem
  | waits =>
    rcases List.mem_append.mp mem with old | new
    · exact .inl old
    · rw [List.mem_singleton.mp new]
      exact .inr rfl

theorem Hands.sent {caller : Caller} {requests : List Request} {a b : Traffic}
    (hands : Hands caller requests a b) {h : Handed} (mem : h ∈ b.sent) :
    h ∈ a.sent ∨ h.caller = caller := by
  cases hands <;> rcases List.mem_append.mp mem with old | new
  · exact .inl old
  · obtain ⟨request, _, rfl⟩ := List.mem_map.mp new
    exact .inr rfl
  · exact .inl old
  · obtain ⟨request, _, rfl⟩ := List.mem_map.mp new
    exact .inr rfl

theorem Hands.kept {caller : Caller} {requests : List Request} {a b : Traffic}
    (hands : Hands caller requests a b) : b.asked = a.asked ∧ b.calls = a.calls := by
  cases hands <;> exact ⟨rfl, rfl⟩

theorem Hands.other {caller other : Caller} {requests : List Request} {a b : Traffic}
    (hands : Hands caller requests a b) (different : other ≠ caller) :
    b.handedBy other = a.handedBy other := by
  have none (taken : List Request) :
      (taken.map (Handed.mk caller)).filter (fun h => decide (h.caller = other)) = [] := by
    apply List.filter_eq_nil_iff.mpr
    intro h mem
    obtain ⟨request, _, rfl⟩ := List.mem_map.mp mem
    simpa using different.symm
  cases hands with
  | all => simp only [handedBy, List.filter_append, none, List.append_nil]
  | waits => simp only [handedBy, List.filter_append, none, List.append_nil]

theorem Hands.own {caller : Caller} {requests : List Request} {a b : Traffic}
    (hands : Hands caller requests a b) :
    (b.handedBy caller = a.handedBy caller ++ requests ∧ b.bursts = a.bursts) ∨
      ∃ done current rest accepted, requests = done ++ current :: rest ∧
        b.handedBy caller = a.handedBy caller ++ (done ++ [current]) ∧
        b.bursts = a.bursts ++ [⟨caller, current, rest, accepted⟩] := by
  have all (taken : List Request) :
      ((taken.map (Handed.mk caller)).filter fun h => decide (h.caller = caller)).map Handed.request =
        taken := by
    rw [List.filter_eq_self.mpr, List.map_map]
    · exact List.map_id _
    · intro h mem
      obtain ⟨request, _, rfl⟩ := List.mem_map.mp mem
      simp
  cases hands with
  | all =>
    refine .inl ⟨?_, rfl⟩
    unfold handedBy
    rw [List.filter_append, List.map_append, all]
  | waits done current rest accepted =>
    refine .inr ⟨done, current, rest, accepted, rfl, ?_, rfl⟩
    unfold handedBy
    rw [List.filter_append, List.map_append, all]

end Traffic

open Traffic (Hands)

def Asked.requests (x : Asked) : List Request := (x.session.requests? x.currency).getD []

theorem Asked.requestsUnset (x : Asked) (unset : x.session.address = none) : x.requests = [] := by
  unfold requests Session.requests?
  rw [unset]
  rfl

theorem Asked.requestsSet (x : Asked) {a : Address} (set : x.session.address = some a) : x.requests =
    [.subscribe a x.currency, .price x.currency, .price "BTC",
      .history a (x.session.blockCount.getD x.session.fallback)] := by
  unfold requests Session.requests?
  rw [set]
  rfl

namespace Service

def traffic (s : Service) : Traffic := ⟨s.sent, s.bursts, s.asked, s.calls⟩

def handedBy (s : Service) (caller : Caller) : List Request := s.traffic.handedBy caller

@[simp] theorem trafficReport (s : Service) (r : Report) : (s.report r).traffic = s.traffic := rfl

@[simp] theorem trafficEnter (s : Service) (next : Phase) : (s.enter next).traffic = s.traffic := by
  unfold enter
  split <;> rfl

@[simp] theorem trafficSettle (s : Service) (h : Handed) : (s.settle h).1.traffic = s.traffic := by
  unfold settle
  dsimp only
  split <;> rfl

@[simp] theorem trafficReceive (s : Service) (text : String) : (s.receive text).1.traffic = s.traffic := by
  unfold receive
  split <;> rfl

@[simp] theorem trafficArrive (s : Service) (stream : Nat) (signals : List Signal) :
    (s.arrive stream signals).1.traffic = s.traffic := by
  unfold arrive
  split
  · rfl
  · split <;> rfl

theorem trafficAbortHandle (s : Service) : s.abortHandle.traffic = s.traffic.abort s.handle := by
  unfold abortHandle
  cases s.handle <;> rfl

theorem trafficHandOver (s : Service) (h : Handed) :
    (s.handOver h).1.traffic = { s.traffic with sent := s.sent ++ [h] } := rfl

theorem sendHands (caller : Caller) (accepted : Nat) (requests : List Request) (s : Service) :
    Hands caller requests s.traffic (s.send caller accepted requests).1.traffic := by
  induction requests generalizing accepted s with
  | nil =>
    have none : Hands caller _ _ _ := .all [] s.traffic
    rwa [List.map_nil, List.append_nil] at none
  | cons request rest ih =>
    have handed := trafficHandOver s ⟨caller, request⟩
    unfold send
    split <;> rename_i t same <;> rw [same] at handed
    · have next := ih (accepted + (t.settle ⟨caller, request⟩).2) (t.settle ⟨caller, request⟩).1
      rw [trafficSettle, handed] at next
      exact next.cons
    · change Hands caller _ _ { t.traffic with
        bursts := t.traffic.bursts ++ [⟨caller, request, rest, accepted⟩] }
      rw [handed]
      exact .waits [] request rest accepted s.traffic

theorem updateHands (s : Service) (caller : Caller) :
    Hands caller (Asked.requests ⟨caller, s.session, s.currency⟩)
      (s.traffic.ask ⟨caller, s.session, s.currency⟩) (s.update caller).1.traffic := by
  unfold update Asked.requests
  dsimp only
  cases s.session.requests? s.currency with
  | none =>
    have none : Hands caller _ _ _ := .all [] (s.traffic.ask ⟨caller, s.session, s.currency⟩)
    rwa [List.map_nil, List.append_nil] at none
  | some requests =>
    exact sendHands caller 0 requests { s with asked := s.asked ++ [⟨caller, s.session, s.currency⟩] }

theorem resumeHands (s : Service) (b : Burst) : Hands b.caller b.rest s.traffic (s.resume b).traffic := by
  have handed := sendHands b.caller (b.accepted + (s.settle ⟨b.caller, b.current⟩).2) b.rest
    (s.settle ⟨b.caller, b.current⟩).1
  rw [trafficSettle] at handed
  unfold resume
  dsimp only
  split <;> rename_i same _ <;> rw [same] at handed <;> exact handed

theorem answerHands (s : Service) (caller : Caller) :
    s.answerSend caller = s ∨ ∃ b ∈ s.bursts, b.caller = caller ∧
      Hands b.caller b.rest (s.traffic.without caller) (s.answerSend caller).traffic := by
  unfold answerSend
  split
  · exact .inl rfl
  · rename_i b found
    refine .inr ⟨b, List.mem_of_find?_eq_some found, by simpa using List.find?_some found, ?_⟩
    exact resumeHands { s with bursts := s.bursts.eraseP fun b => b.caller = caller } b

end Service
end AccountWatch
