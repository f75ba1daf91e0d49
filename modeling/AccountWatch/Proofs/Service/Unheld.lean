import AccountWatch.Service.Run

/-! Sending while the transport holds nothing back: every request is handed over, settled and, if it is refused,
reported, one after the other, and nothing is left to wait. Nothing is said about which ones are refused. -/
namespace AccountWatch

def Transport.complaint? (t : Transport) (r : Request) : Option Report :=
  (t.refusal? r.text).map fun source =>
    .sendFailure r.action (WatchError.sendFailure r.action source).message

namespace Service

def delivered (s : Service) (caller : Caller) (requests : List Request) : Service :=
  { s with
    sent := s.sent ++ requests.map (Handed.mk caller)
    settled := s.settled ++ requests.map fun r => ⟨⟨caller, r⟩, s.transport.refusal? r.text⟩
    reports := s.reports ++ requests.filterMap s.transport.complaint? }

theorem deliveredNil (s : Service) (caller : Caller) : s.delivered caller [] = s := by
  simp [delivered]

theorem handOverUnheld {s : Service} (free : s.transport.permits = none) (h : Handed) :
    s.handOver h = ({ s with sent := s.sent ++ [h] }, true) := by
  unfold handOver Transport.proceed
  rw [free]

theorem settleUnheld (s : Service) (caller : Caller) (r : Request) :
    (({ s with sent := s.sent ++ [⟨caller, r⟩] } : Service).settle ⟨caller, r⟩).1 =
      s.delivered caller [r] := by
  unfold settle delivered Transport.complaint?
  dsimp only
  cases refusal : s.transport.refusal? r.text with
  | none => simp [refusal]
  | some source => simp [refusal, report]

theorem sendUnheld {s : Service} (free : s.transport.permits = none) (caller : Caller) (accepted : Nat)
    (requests : List Request) : (s.send caller accepted requests).1 = s.delivered caller requests ∧
      (s.send caller accepted requests).2.isSome := by
  induction requests generalizing s accepted with
  | nil => exact ⟨(s.deliveredNil caller).symm, rfl⟩
  | cons r rest ih =>
    have settled := settleUnheld s caller r
    unfold send
    rw [handOverUnheld free]
    dsimp only
    generalize ({ s with sent := s.sent ++ [⟨caller, r⟩] } : Service).settle ⟨caller, r⟩ = t at settled
    obtain ⟨later, ended⟩ := ih (s := t.1) (by rw [settled]; exact free) (accepted + t.2)
    refine ⟨?_, ended⟩
    rw [later, settled]
    simp only [delivered, List.append_assoc, List.map_cons, List.filterMap_cons]
    cases s.transport.complaint? r <;> simp

def startup (s : Service) : List Request := (s.session.requests? s.currency).getD []

theorem updateUnheld {s : Service} (free : s.transport.permits = none) (caller : Caller) :
    (s.update caller).1 = ({ s with asked := s.asked ++ [⟨caller, s.session, s.currency⟩] } : Service).delivered
      caller s.startup ∧ (s.update caller).2.isSome := by
  unfold update startup
  dsimp only
  cases s.session.requests? s.currency with
  | none => exact ⟨(deliveredNil _ _).symm, rfl⟩
  | some requests =>
    obtain ⟨handed, ended⟩ := sendUnheld (s := { s with
      asked := s.asked ++ [⟨caller, s.session, s.currency⟩] }) free caller 0 requests
    refine ⟨handed, ?_⟩
    simpa using ended

end Service
end AccountWatch
