import AccountWatch.Proofs.Publisher.Sole
import AccountWatch.Proofs.Service.Hosting
import AccountWatch.Proofs.Service.Taking

/-! What a step publishes. A step in which no filter crashes publishes certain messages, and with any other publisher
that they pass it publishes the same messages and is the same step. A listener crashes for good. -/
namespace AccountWatch.Service

structure Publishes (f : Service → Service) (s : Service) : Prop where
  lasting : s.crashes <+: (f s).crashes
  passing : (f s).crashes = s.crashes → ∃ ms, s.publisher.Passes ms ∧
    ∀ p crashes, p.Passes ms → f (s.hosting p crashes) = (f s).hosting (p.publishAll ms) crashes

namespace Publishes

theorem nothing {f : Service → Service} {s : Service}
    (blind : ∀ p crashes, f (s.hosting p crashes) = (f s).hosting p crashes) : Publishes f s := by
  have kept : f s = (f s).hosting s.publisher s.crashes := blind s.publisher s.crashes
  have same : (f s).crashes = s.crashes := (congrArg Service.crashes kept).trans rfl
  exact ⟨same ▸ List.prefix_rfl, fun _ => ⟨[], trivial, fun p crashes _ => blind p crashes⟩⟩

theorem publisher {f : Service → Service} {s : Service} {ms : List Message} (passes : s.publisher.Passes ms)
    (same : ∀ p crashes, p.Passes ms → f (s.hosting p crashes) = (f s).hosting (p.publishAll ms) crashes) :
    (f s).publisher = s.publisher.publishAll ms := by
  have kept : f s = (f s).hosting (s.publisher.publishAll ms) s.crashes := same s.publisher s.crashes passes
  exact (congrArg Service.publisher kept).trans rfl

theorem alike {f g : Service → Service} {s : Service} (publishes : Publishes g s)
    (same : ∀ p crashes, f (s.hosting p crashes) = g (s.hosting p crashes)) : Publishes f s := by
  have own : f s = g s := same s.publisher s.crashes
  refine ⟨own ▸ publishes.lasting, fun calm => ?_⟩
  obtain ⟨ms, passes, others⟩ := publishes.passing (own ▸ calm)
  refine ⟨ms, passes, fun p crashes pass => ?_⟩
  rw [same, others p crashes pass, own]

theorem after {f g : Service → Service} {s : Service} (first : Publishes f s) (later : Publishes g (f s)) :
    Publishes (fun s => g (f s)) s := by
  refine ⟨first.lasting.trans later.lasting, fun calm => ?_⟩
  -- crashes are never taken back, so that without one at the end there was none in between
  have between : (f s).crashes = s.crashes := by
    have bound : (f s).crashes <+: s.crashes := calm ▸ later.lasting
    exact bound.eq_of_length_le first.lasting.length_le
  obtain ⟨left, passLeft, sameLeft⟩ := first.passing between
  obtain ⟨right, passRight, sameRight⟩ := later.passing (calm.trans between.symm)
  rw [publisher passLeft sameLeft] at passRight
  refine ⟨left ++ right, Publisher.passesAppend.mpr ⟨passLeft, passRight⟩, fun p crashes passes => ?_⟩
  obtain ⟨pass, passLater⟩ := Publisher.passesAppend.mp passes
  rw [sameLeft p crashes pass, sameRight _ crashes passLater, Publisher.publishAllAppend]

theorem fold {α : Type} {f : Service → α → Service} (each : ∀ s a, Publishes (f · a) s) (as : List α)
    (s : Service) : Publishes (as.foldl f) s := by
  induction as generalizing s with
  | nil => exact .nothing fun _ _ => rfl
  | cons a rest ih => exact (each s a).after (ih (f s a))

end Publishes

theorem hostingTake (s : Service) (p : Publisher) (crashes : List Nat) (stream : Nat) {x : Signal}
    (silent : ∀ text, x = .frame text → s.phase.active → ∃ cause, Message.decode text = .error cause) :
    (s.hosting p crashes).take stream x = ((s.take stream x).1.hosting p crashes, (s.take stream x).2) := by
  unfold take
  cases x with
  | opened =>
    dsimp only
    rw [hostingPhase, hostingEnter, hostingUpdate]
    split
    · rfl
    · generalize (s.enter .connected).update (.listener stream) = updated
      obtain ⟨t, outcome⟩ := updated
      cases outcome <;> rfl
  | frame text =>
    dsimp only
    rw [hostingPhase]
    split
    · rename_i active
      obtain ⟨cause, bad⟩ := silent text rfl active
      unfold receive
      rw [bad]
      rfl
    · rfl
  | closed reason => exact congrArg (·, Progress.over) (hostingEnter s p crashes .closed)
  | failure text => rfl

theorem hostingTurn (s : Service) (p : Publisher) (crashes : List Nat) (stream : Nat)
    (silent : ∀ text rest ended, s.listener? stream = some ⟨stream, .frame text :: rest, ended⟩ →
      s.suspended stream = false → s.phase.active → ∃ cause, Message.decode text = .error cause) :
    (s.hosting p crashes).turn stream = (s.turn stream).hosting p crashes := by
  have suspended : (s.hosting p crashes).suspended stream = s.suspended stream := rfl
  unfold turn
  rw [hostingListener, suspended, hostingPhase, hostingEnter]
  split
  · rfl
  · rename_i t found
    split
    · rfl
    · rename_i ready
      split
      · split
        · split <;> rfl
        · rfl
      · rename_i x rest queued
        have own : t.stream = stream := by simpa using List.find?_some found
        have quiet : ∀ text, x = .frame text → (s.setQueue stream rest).phase.active →
            ∃ cause, Message.decode text = .error cause := by
          rintro text rfl active
          obtain ⟨_, queue, ended⟩ := t
          cases own
          cases queued
          exact silent text rest ended found (by simpa using ready) active
        have taken : ((s.hosting p crashes).setQueue stream rest).take stream x = _ :=
          hostingTake (s.setQueue stream rest) p crashes stream quiet
        rw [taken]
        generalize (s.setQueue stream rest).take stream x = left
        obtain ⟨t, progress⟩ := left
        cases progress <;> rfl

theorem publishesTurn (stream : Nat) (s : Service) : Publishes (turn · stream) s := by
  by_cases message : ∃ text rest ended m, s.listener? stream = some ⟨stream, .frame text :: rest, ended⟩ ∧
      s.suspended stream = false ∧ s.phase.active ∧ Message.decode text = .ok m
  · obtain ⟨text, rest, ended, m, found, ready, active, good⟩ := message
    by_cases crash : (s.publisher.publish m).2 = .crashed
    · have taken : s.turn stream = _ :=
        turnOver found ready (takeCrash (s := s.setQueue stream rest) stream active good crash)
      have crashed : (s.turn stream).crashes = s.crashes ++ [stream] := by rw [taken]; rfl
      refine ⟨crashed ▸ List.prefix_append _ _, fun calm => ?_⟩
      exact absurd (crashed.symm.trans calm) (by simp)
    · have passed (p : Publisher) (crashes : List Nat) (passes : (p.publish m).2 ≠ .crashed) :
          (s.hosting p crashes).turn stream = _ := 
        turnReady (s := s.hosting p crashes) found ready
          (takeMessage (s := (s.setQueue stream rest).hosting p crashes) stream active good passes)
      have own : s.turn stream = _ := passed s.publisher s.crashes crash
      refine ⟨?_, fun _ => ⟨[m], ⟨crash, trivial⟩, fun p crashes passes => ?_⟩⟩
      · rw [own]
        exact List.prefix_rfl
      · rw [passed p crashes passes.1, own]
        rfl
  · refine .nothing fun p crashes => hostingTurn s p crashes stream ?_
    intro text rest ended found ready active
    cases decoded : Message.decode text with
    | error cause => exact ⟨cause, rfl⟩
    | ok m => exact (message ⟨text, rest, ended, m, found, ready, active, decoded⟩).elim

theorem publishesTurns (stream n : Nat) (s : Service) : Publishes (turns stream n) s := by
  induction n generalizing s with
  | zero => exact .nothing fun _ _ => rfl
  | succ n ih => exact (publishesTurn stream s).after (ih (s.turn stream))

theorem publishesWake (stream : Nat) (s : Service) : Publishes (wake · stream) s := by
  cases found : s.listener? stream with
  | none =>
    have asleep (p : Publisher) (crashes : List Nat) : (s.hosting p crashes).wake stream = s.hosting p crashes := by
      unfold wake
      rw [hostingListener, found]
    refine .nothing fun p crashes => ?_
    rw [asleep, show s.wake stream = s from asleep s.publisher s.crashes]
  | some t =>
    refine (publishesTurns stream (t.queue.length + 1) s).alike fun p crashes => ?_
    unfold wake
    rw [hostingListener, found]

theorem publishesServe (s : Service) (caller : Caller) : Publishes (serve · caller) s := by
  have answered : Publishes (answerSend · caller) s := .nothing fun p crashes => hostingAnswerSend s p crashes caller
  cases caller with
  | call number => exact answered
  | listener stream => exact answered.after (publishesWake stream _)

theorem publishesPermit (count : Nat) (s : Service) : Publishes (permitSends · count) s := by
  by_cases free : s.transport.permits.isNone
  · have idle (p : Publisher) (crashes : List Nat) :
        (s.hosting p crashes).permitSends count = s.hosting p crashes := by
      unfold permitSends
      exact if_pos free
    refine .nothing fun p crashes => ?_
    rw [idle, show s.permitSends count = s from idle s.publisher s.crashes]
  · let served := (s.bursts.take count).map Burst.caller
    have granted : Publishes (grantSends · (count - served.length)) s := .nothing fun _ _ => rfl
    refine (granted.after (.fold publishesServe served _)).alike fun p crashes => ?_
    unfold permitSends
    exact if_neg free

theorem publishesRelease (s : Service) : Publishes releaseSends s := by
  have freed : Publishes freeSends s := .nothing fun _ _ => rfl
  exact (freed.after (.fold publishesServe (s.bursts.map Burst.caller) _)).alike fun _ _ => rfl

def Input.Holds : Input → Prop
  | .subscribe _ | .unsubscribe _ | .poll _ | .drain _ => True
  | _ => False

theorem publishesStep (s : Service) {i : Input} (apart : ¬ i.Holds) (indirect : ∀ m, i ≠ .publish m) :
    Publishes (fun s => (s.step i).1) s := by
  cases i with
  | openUp => exact .nothing fun p crashes => congrArg Prod.fst (hostingOpenUp s p crashes)
  | shutDown => exact .nothing fun p crashes => congrArg Prod.fst (hostingShutDown s p crashes)
  | requestUpdate => exact .nothing fun p crashes => congrArg Prod.fst (hostingRequestUpdate s p crashes)
  | arrive stream signals =>
    exact .nothing fun p crashes => congrArg Prod.fst (hostingArrive s p crashes stream signals)
  | turn stream => exact publishesTurn stream s
  | emit stream signals =>
    have arrived : Publishes (fun s => (s.arrive stream signals).1) s :=
      .nothing fun p crashes => congrArg Prod.fst (hostingArrive s p crashes stream signals)
    exact arrived.after (publishesWake stream _)
  | endStream stream =>
    have cut : Publishes (cut · stream) s := .nothing fun _ _ => rfl
    exact cut.after (publishesWake stream _)
  | answerSend caller => exact .nothing fun p crashes => hostingAnswerSend s p crashes caller
  | permitSends count => exact publishesPermit count s
  | releaseSends => exact publishesRelease s
  | answerOpen => exact .nothing fun p crashes => hostingAnswerOpen s p crashes
  | answerClose number => exact .nothing fun p crashes => hostingAnswerClose s p crashes number
  | releaseClose => exact .nothing fun p crashes => hostingSettleCloses (s.setCloseHeld false) p crashes
  | publish m => exact (indirect m rfl).elim
  | subscribe | unsubscribe | poll | drain => exact (apart trivial).elim
  | cut | failOpen | failClose | failSends | holdSends | grantSends | freeSends | holdOpen | freeOpen | holdClose
    | freeClose | setAccount | setCurrency | setSessionAddress | observe => exact .nothing fun _ _ => rfl

def Passes (s : Service) (i : Input) : Prop :=
  (s.step i).1.crashes = s.crashes ∧ (s.step i).2 ≠ .delivery .crashed

instance (s : Service) (i : Input) : Decidable (s.Passes i) := inferInstanceAs (Decidable (_ ∧ _))

theorem passesPublishing {s : Service} {i : Input} (apart : ¬ i.Holds) (passes : s.Passes i) :
    ∃ ms, s.publisher.Passes ms ∧ (s.step i).1.publisher = s.publisher.publishAll ms ∧
      ∀ p crashes, p.Passes ms → ((s.hosting p crashes).step i).1 = (s.step i).1.hosting (p.publishAll ms) crashes := by
  by_cases direct : ∃ m, i = .publish m
  · obtain ⟨m, rfl⟩ := direct
    have crash : (s.publisher.publish m).2 ≠ .crashed := fun same => passes.2 (congrArg Reply.delivery same)
    exact ⟨[m], ⟨crash, trivial⟩, rfl, fun _ _ _ => rfl⟩
  · have publishes := publishesStep s apart fun m same => direct ⟨m, same⟩
    obtain ⟨ms, pass, same⟩ := publishes.passing passes.1
    exact ⟨ms, pass, Publishes.publisher (f := fun s => (s.step i).1) pass same, same⟩

end AccountWatch.Service
