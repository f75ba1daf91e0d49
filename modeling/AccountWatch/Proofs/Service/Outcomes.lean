import AccountWatch.Proofs.Service.Connection
import AccountWatch.Proofs.Service.Sending
import AccountWatch.Proofs.Service.Unheld

/-! What becomes of the requests that a caller hands over, whatever the transport holds back and whatever it refuses:
the first of them are settled one after the other, each as the transport answers at that moment, and if
that is not all of them then the next one waits with the others behind it. Nothing else changes. -/
namespace AccountWatch

def Settlement.request (x : Settlement) : Request := x.handed.request

def Settlement.accepted (x : Settlement) : Bool := x.refusal.isNone

def Settlement.complaint? (x : Settlement) : Option Report :=
  x.refusal.map fun source => .sendFailure x.request.action (WatchError.sendFailure x.request.action source).message

def Transport.answer (t : Transport) (caller : Caller) (r : Request) : Settlement :=
  ⟨⟨caller, r⟩, t.refusal? r.text⟩

theorem acceptedOrNot (xs : List Settlement) :
    xs.countP Settlement.accepted + (xs.filterMap Settlement.complaint?).length = xs.length := by
  induction xs with
  | nil => rfl
  | cons x rest ih =>
    rw [List.countP_cons, List.filterMap_cons, List.length_cons, ← ih]
    obtain ⟨handed, refusal⟩ := x
    cases refusal <;> simp [Settlement.accepted, Settlement.complaint?] <;> omega

namespace Service

structure Delivers (caller : Caller) (taken : List Request) (s t : Service) : Prop where
  connection : t.connection = s.connection
  session : t.session = s.session
  publisher : t.publisher = s.publisher
  rules : t.transport.rules = s.transport.rules
  entrants : t.entrants = s.entrants
  calls : t.calls = s.calls
  finished : t.finished = s.finished
  settled : t.settled = s.settled ++ taken.map (s.transport.answer caller)
  reports : t.reports = s.reports ++ (taken.map (s.transport.answer caller)).filterMap Settlement.complaint?

theorem Delivers.answers {caller : Caller} {taken : List Request} {s t : Service}
    (delivers : Delivers caller taken s t) : t.transport.answer = s.transport.answer := by
  unfold Transport.answer Transport.refusal?
  rw [delivers.rules]

theorem Delivers.trans {caller : Caller} {taken more : List Request} {s t u : Service}
    (first : Delivers caller taken s t) (second : Delivers caller more t u) : Delivers caller (taken ++ more) s u where
  connection := second.connection.trans first.connection
  session := second.session.trans first.session
  publisher := second.publisher.trans first.publisher
  rules := second.rules.trans first.rules
  entrants := second.entrants.trans first.entrants
  calls := second.calls.trans first.calls
  finished := second.finished.trans first.finished
  settled := by
    rw [second.settled, first.settled, first.answers, List.map_append, List.append_assoc]
  reports := by
    rw [second.reports, first.reports, first.answers, List.map_append, List.filterMap_append, List.append_assoc]

theorem handOverDelivers (s : Service) (caller : Caller) (h : Handed) : Delivers caller [] s (s.handOver h).1 := by
  refine ⟨connectionHandOver s h, rfl, rfl, ?_, rfl, rfl, rfl, (List.append_nil _).symm, (List.append_nil _).symm⟩
  unfold handOver Transport.proceed
  cases s.transport.permits with
  | none => rfl
  | some permits => cases permits <;> rfl

theorem settleDelivers (s : Service) (caller : Caller) (r : Request) :
    Delivers caller [r] s (s.settle ⟨caller, r⟩).1 := by
  have connection := connectionSettle s ⟨caller, r⟩
  unfold settle at connection ⊢
  dsimp only at connection ⊢
  cases refusal : s.transport.refusal? r.text with
  | none =>
    rw [refusal] at connection
    refine ⟨connection, rfl, rfl, rfl, rfl, rfl, rfl, ?_, ?_⟩ <;>
      simp [Transport.answer, refusal, Settlement.complaint?]
  | some source =>
    rw [refusal] at connection
    refine ⟨connection, rfl, rfl, rfl, rfl, rfl, rfl, ?_, ?_⟩ <;>
      simp [Transport.answer, refusal, Settlement.complaint?, report, Settlement.request]

theorem settleBursts (s : Service) (h : Handed) : (s.settle h).1.bursts = s.bursts :=
  congrArg Traffic.bursts (trafficSettle s h)

theorem settleCounts (s : Service) (caller : Caller) (r : Request) :
    (s.settle ⟨caller, r⟩).2 = [s.transport.answer caller r].countP Settlement.accepted := by
  unfold settle Transport.answer
  dsimp only
  cases s.transport.refusal? r.text <;> rfl

inductive Sends (caller : Caller) (accepted : Nat) (requests : List Request) (s t : Service) : Option Nat → Prop where
  | all (delivers : Delivers caller requests s t) (bursts : t.bursts = s.bursts) :
      Sends caller accepted requests s t
        (some (accepted + (requests.map (s.transport.answer caller)).countP Settlement.accepted))
  | halts {taken later : List Request} {current : Request} (split : requests = taken ++ current :: later)
      (delivers : Delivers caller taken s t) (bursts : t.bursts = s.bursts ++ [⟨caller, current, later,
        accepted + (taken.map (s.transport.answer caller)).countP Settlement.accepted⟩]) :
      Sends caller accepted requests s t none

theorem Sends.after {caller : Caller} {accepted n : Nat} {done rest : List Request} {s t u : Service}
    {count : Option Nat} (first : Delivers caller done s t) (bursts : t.bursts = s.bursts)
    (part : n = (done.map (s.transport.answer caller)).countP Settlement.accepted)
    (later : Sends caller (accepted + n) rest t u count) : Sends caller accepted (done ++ rest) s u count := by
  subst part
  have sum (taken : List Request) : accepted + (done.map (s.transport.answer caller)).countP Settlement.accepted +
      (taken.map (t.transport.answer caller)).countP Settlement.accepted =
        accepted + ((done ++ taken).map (s.transport.answer caller)).countP Settlement.accepted := by
    rw [first.answers, Nat.add_assoc, ← List.countP_append, ← List.map_append]
  cases later with
  | all delivers same =>
    rw [sum]
    exact .all (first.trans delivers) (same.trans bursts)
  | halts split delivers waits =>
    rw [sum, bursts] at waits
    exact .halts (by rw [split, List.append_assoc]) (first.trans delivers) waits

theorem Sends.delivers {caller : Caller} {accepted : Nat} {requests : List Request} {s t : Service}
    {count : Option Nat} (sends : Sends caller accepted requests s t count) : ∃ taken, Delivers caller taken s t := by
  cases sends with
  | all delivers | halts _ delivers => exact ⟨_, delivers⟩

theorem sendSends (caller : Caller) (accepted : Nat) (requests : List Request) (s : Service) :
    Sends caller accepted requests s (s.send caller accepted requests).1 (s.send caller accepted requests).2 := by
  induction requests generalizing accepted s with
  | nil => exact .all ⟨rfl, rfl, rfl, rfl, rfl, rfl, rfl, (List.append_nil _).symm, (List.append_nil _).symm⟩ rfl
  | cons r rest ih =>
    have handed := handOverDelivers s caller ⟨caller, r⟩
    have kept : (s.handOver ⟨caller, r⟩).1.bursts = s.bursts := rfl
    unfold send
    split <;> rename_i t same <;> rw [same] at handed kept
    · have one := settleCounts t caller r
      rw [handed.answers] at one
      exact .after (handed.trans (settleDelivers t caller r)) ((settleBursts t _).trans kept) one (ih _ _)
    · have waits : Delivers caller [] s { t with bursts := t.bursts ++ [⟨caller, r, rest, accepted⟩] } :=
        ⟨handed.connection, handed.session, handed.publisher, handed.rules, handed.entrants, handed.calls,
          handed.finished, handed.settled, handed.reports⟩
      exact .halts (List.nil_append _).symm waits (congrArg (· ++ [⟨caller, r, rest, accepted⟩]) kept)

def asking (s : Service) (caller : Caller) : Service :=
  { s with asked := s.asked ++ [⟨caller, s.session, s.currency⟩] }

theorem updateUnset {s : Service} (unset : s.session.address = none) (caller : Caller) :
    s.update caller = (s.asking caller, some (.failed .addressUnset)) := by
  have none : s.session.requests? s.currency = none := congrArg (Option.map _) unset
  unfold update
  dsimp only
  rw [none]
  rfl

theorem updateSends {s : Service} {requests : List Request}
    (known : s.session.requests? s.currency = some requests) (caller : Caller) :
    ∃ count, Sends caller 0 requests s (s.update caller).1 count ∧ (s.update caller).2 = count.map .accepted := by
  have asks : Delivers caller [] s (s.asking caller) :=
    ⟨rfl, rfl, rfl, rfl, rfl, rfl, rfl, (List.append_nil _).symm, (List.append_nil _).symm⟩
  unfold update
  dsimp only
  rw [known]
  exact ⟨_, .after asks rfl rfl (sendSends caller 0 requests (s.asking caller)), rfl⟩

def returning (s : Service) : Caller → Option Nat → Service
  | .call number, some count => s.finish number (.accepted count)
  | _, _ => s

theorem resumeSends (s : Service) (b : Burst) : ∃ t count,
    Sends b.caller b.accepted (b.current :: b.rest) s t count ∧ s.resume b = t.returning b.caller count := by
  have rest := sendSends b.caller (b.accepted + (s.settle ⟨b.caller, b.current⟩).2) b.rest
    (s.settle ⟨b.caller, b.current⟩).1
  refine ⟨_, _, .after (settleDelivers s b.caller b.current) (settleBursts s _) (settleCounts s _ _) rest, ?_⟩
  unfold resume
  dsimp only
  generalize (s.settle ⟨b.caller, b.current⟩).1.send b.caller
    (b.accepted + (s.settle ⟨b.caller, b.current⟩).2) b.rest = sent
  obtain ⟨t, count⟩ := sent
  cases count <;> cases b.caller <;> rfl

theorem answerSends (s : Service) (caller : Caller) :
    ((∀ b ∈ s.bursts, b.caller ≠ caller) ∧ s.answerSend caller = s) ∨
      ∃ b t count, (s.bursts.find? fun b => b.caller = caller) = some b ∧
        Sends caller b.accepted (b.current :: b.rest)
          { s with bursts := s.bursts.eraseP fun b => b.caller = caller } t count ∧
        s.answerSend caller = t.returning caller count := by
  unfold answerSend
  split
  · rename_i none
    exact .inl ⟨by simpa using List.find?_eq_none.mp none, rfl⟩
  · rename_i b found
    obtain rfl : b.caller = caller := by simpa using List.find?_some found
    obtain ⟨t, count, sends, same⟩ :=
      resumeSends { s with bursts := s.bursts.eraseP fun c => c.caller = b.caller } b
    exact .inr ⟨b, t, count, found, sends, same⟩

theorem updateEntrants (s : Service) (caller : Caller) : (s.update caller).1.entrants = s.entrants := by
  cases known : s.session.requests? s.currency with
  | none =>
    rw [updateUnset (Option.map_eq_none_iff.mp known)]
    rfl
  | some requests =>
    obtain ⟨_, sends, _⟩ := updateSends known caller
    obtain ⟨_, delivers⟩ := sends.delivers
    exact delivers.entrants

theorem answerEntrants (s : Service) (caller : Caller) : (s.answerSend caller).entrants = s.entrants := by
  rcases answerSends s caller with ⟨_, same⟩ | ⟨_, t, count, _, sends, same⟩
  · rw [same]
  · obtain ⟨_, delivers⟩ := sends.delivers
    rw [same, ← show t.entrants = s.entrants from delivers.entrants]
    cases caller <;> cases count <;> rfl

end Service
end AccountWatch
