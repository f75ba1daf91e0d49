import AccountWatch.Proofs.Service.Cargo
import AccountWatch.Proofs.Service.Outcomes

/-! What other calls and everything else that happens leaves to a call: what of it was settled, what of it waits, and
whether it has returned. A number that is taken by a call that asks for an update is nobody else's, so
nobody else returns under it; and whatever is settled meanwhile is complained about in the order in
which it is settled. -/
namespace AccountWatch

def Report.fails : Report → Bool
  | .sendFailure _ _ => true
  | _ => false

def Entrant.number : Entrant → Nat
  | .opening number | .closing number => number

theorem filterErased {α : Type} {p q : α → Bool} (apart : ∀ x, q x → p x = false) (xs : List α) :
    (xs.eraseP q).filter p = xs.filter p := by
  induction xs with
  | nil => rfl
  | cons x rest ih =>
    cases erased : q x with
    | true => rw [List.eraseP_cons_of_pos erased, List.filter_cons_of_neg (by simp [apart x erased])]
    | false => rw [List.eraseP_cons_of_neg (by simp [erased]), List.filter_cons, List.filter_cons, ih]

theorem complaintsFail (xs : List Settlement) :
    (xs.filterMap Settlement.complaint?).filter Report.fails = xs.filterMap Settlement.complaint? := by
  refine List.filter_eq_self.mpr fun r mem => ?_
  obtain ⟨x, _, complained⟩ := List.mem_filterMap.mp mem
  obtain ⟨source, _, rfl⟩ := Option.map_eq_some_iff.mp complained
  rfl

namespace Service

def failures (s : Service) : List Report := s.reports.filter Report.fails

def settledOf (s : Service) (number : Nat) : List Settlement :=
  s.settled.filter fun x => x.handed.caller = .call number

def burstsOf (s : Service) (number : Nat) : List Burst := s.bursts.filter fun b => b.caller = .call number

def outcomesOf (s : Service) (number : Nat) : List Outcome :=
  (s.finished.filter fun entry => entry.1 = number).map Prod.snd

structure Slip where
  settled : List Settlement
  failures : List Report
  bursts : List Burst
  outcomes : List Outcome

def slip (s : Service) (number : Nat) : Slip := ⟨s.settled, s.failures, s.burstsOf number, s.outcomesOf number⟩

structure Apart (s : Service) (number : Nat) : Prop where
  connecting : s.connecting ≠ some number
  entrants : ∀ e ∈ s.entrants, e.number ≠ number
  closings : number ∉ s.closings

structure Aside (number : Nat) (s t : Service) : Prop where
  settles : ∃ news, t.settled = s.settled ++ news ∧
    t.failures = s.failures ++ news.filterMap Settlement.complaint? ∧ ∀ x ∈ news, x.handed.caller ≠ .call number
  bursts : t.burstsOf number = s.burstsOf number
  outcomes : t.outcomesOf number = s.outcomesOf number
  apart : t.Apart number

structure Spares (number : Nat) (s t : Service) : Prop where
  slip : t.slip number = s.slip number
  apart : t.Apart number

theorem Spares.trans {number : Nat} {s t u : Service} (first : Spares number s t) (second : Spares number t u) :
    Spares number s u := ⟨second.slip.trans first.slip, second.apart⟩

theorem Apart.spares {number : Nat} {s t : Service} (apart : s.Apart number) (slip : t.slip number = s.slip number)
    (connecting : t.connecting = s.connecting) (entrants : t.entrants = s.entrants)
    (closings : t.closings = s.closings) : Spares number s t :=
  ⟨slip, connecting ▸ apart.connecting, entrants ▸ apart.entrants, closings ▸ apart.closings⟩

theorem Spares.aside {number : Nat} {s t : Service} (spares : Spares number s t) : Aside number s t := by
  refine ⟨⟨[], ?_, ?_, nofun⟩, congrArg Slip.bursts spares.slip, congrArg Slip.outcomes spares.slip,
    spares.apart⟩
  · rw [List.append_nil]
    exact congrArg Slip.settled spares.slip
  · rw [List.filterMap_nil, List.append_nil]
    exact congrArg Slip.failures spares.slip

theorem Aside.trans {number : Nat} {s t u : Service} (first : Aside number s t) (second : Aside number t u) :
    Aside number s u := by
  obtain ⟨news, settled, failures, others⟩ := first.settles
  obtain ⟨more, settled', failures', others'⟩ := second.settles
  refine ⟨⟨news ++ more, ?_, ?_, ?_⟩, second.bursts.trans first.bursts, second.outcomes.trans first.outcomes,
    second.apart⟩
  · rw [settled', settled, List.append_assoc]
  · rw [failures', failures, List.filterMap_append, List.append_assoc]
  · exact fun x mem => (List.mem_append.mp mem).elim (others x) (others' x)

theorem Aside.settled {number : Nat} {s t : Service} (aside : Aside number s t) :
    t.settledOf number = s.settledOf number := by
  obtain ⟨news, settled, _, others⟩ := aside.settles
  have none : (news.filter fun x => x.handed.caller = .call number) = [] :=
    List.filter_eq_nil_iff.mpr fun x mem => by simpa using others x mem
  unfold settledOf
  rw [settled, List.filter_append, none, List.append_nil]

variable {number : Nat}

theorem slipReport (s : Service) {r : Report} (quiet : r.fails = false) : (s.report r).slip number = s.slip number := by
  simp [slip, report, failures, burstsOf, outcomesOf, quiet]

@[simp] theorem slipEnter (s : Service) (next : Phase) : (s.enter next).slip number = s.slip number := by
  unfold enter
  split
  · rfl
  · exact slipReport _ rfl

@[simp] theorem slipAbortHandle (s : Service) : s.abortHandle.slip number = s.slip number := by
  unfold abortHandle
  split
  · rfl
  · rename_i stream _
    have kept : (s.bursts.filter fun b => b.caller ≠ .listener stream).filter (fun b => b.caller = .call number) =
        s.burstsOf number := by
      rw [List.filter_filter]
      refine List.filter_congr fun b _ => ?_
      cases b.caller <;> simp
    exact congrArg (fun bursts => { s.slip number with bursts }) kept

theorem slipFinish (s : Service) {other : Nat} (different : other ≠ number) (outcome : Outcome) :
    (s.finish other outcome).slip number = s.slip number := by
  simp [slip, finish, failures, burstsOf, outcomesOf, different]

theorem slipBeginOpen (s : Service) (other : Nat) : (s.beginOpen other).1.slip number = s.slip number := by
  unfold beginOpen
  split
  · rfl
  · rfl
  · rfl
  · exact slipEnter s .opening

theorem slipEndOpen (s : Service) : s.endOpen.1.slip number = s.slip number := by
  unfold endOpen Transport.connect
  dsimp only
  cases s.transport.openFailure with
  | some error => exact (slipEnter _ .closed).trans (slipReport _ rfl)
  | none => exact slipAbortHandle _

theorem slipBeginClose (s : Service) (other : Nat) : (s.beginClose other).1.slip number = s.slip number := by
  have leaves : (s.enter .closing).abortHandle.slip number = s.slip number := by simp
  unfold beginClose
  split
  · rfl
  · rfl
  · exact leaves
  · exact leaves

theorem slipEndClose (s : Service) (other : Nat) : (s.endClose other).1.slip number = s.slip number := by
  have ended : ({ s with closings := s.closings.erase other }.enter .closed).slip number = s.slip number :=
    slipEnter _ .closed
  unfold endClose
  dsimp only
  split
  · exact ended
  · exact (slipReport _ rfl).trans ended

theorem beginOpenKeeps (s : Service) (other : Nat) :
    (s.beginOpen other).1.entrants = s.entrants ∧ (s.beginOpen other).1.closings = s.closings ∧
      ((s.beginOpen other).1.connecting = s.connecting ∨ (s.beginOpen other).1.connecting = some other) := by
  unfold beginOpen enter
  split
  · exact ⟨rfl, rfl, .inl rfl⟩
  · exact ⟨rfl, rfl, .inl rfl⟩
  · exact ⟨rfl, rfl, .inl rfl⟩
  · split <;> exact ⟨rfl, rfl, .inr rfl⟩

theorem endOpenKeeps (s : Service) :
    s.endOpen.1.entrants = s.entrants ∧ s.endOpen.1.closings = s.closings := by
  unfold endOpen enter abortHandle
  dsimp only
  split <;> dsimp only <;> split <;> exact ⟨rfl, rfl⟩

theorem beginCloseJoins (s : Service) (other : Nat) :
    (s.beginClose other).1.entrants = s.entrants ∧ (s.beginClose other).1.calls = s.calls ∧
      ((s.beginClose other).1.closings = s.closings ∨ (s.beginClose other).1.closings = s.closings ++ [other]) := by
  have kept : (s.enter .closing).abortHandle.entrants = s.entrants ∧
      (s.enter .closing).abortHandle.calls = s.calls ∧ (s.enter .closing).abortHandle.closings = s.closings := by
    unfold enter abortHandle
    split <;> split <;> exact ⟨rfl, rfl, rfl⟩
  have joined := congrArg (· ++ [other]) kept.2.2
  unfold beginClose
  split
  · exact ⟨rfl, rfl, .inl rfl⟩
  · exact ⟨rfl, rfl, .inl rfl⟩
  · exact ⟨kept.1, kept.2.1, .inr joined⟩
  · exact ⟨kept.1, kept.2.1, .inr joined⟩

theorem endCloseLeaves (s : Service) (other : Nat) :
    (s.endClose other).1.entrants = s.entrants ∧ (s.endClose other).1.calls = s.calls := by
  unfold endClose enter
  dsimp only
  split <;> split <;> exact ⟨rfl, rfl⟩

theorem beginOpenSpares {s : Service} (apart : s.Apart number) {other : Nat} (different : other ≠ number) :
    Spares number s (s.beginOpen other).1 := by
  obtain ⟨entrants, closings, connecting⟩ := beginOpenKeeps s other
  refine ⟨slipBeginOpen s other, ?_, entrants ▸ apart.entrants, closings ▸ apart.closings⟩
  rcases connecting with same | own
  · exact same ▸ apart.connecting
  · simpa [own] using different

theorem endOpenSpares {s : Service} (entrants : ∀ e ∈ s.entrants, e.number ≠ number)
    (closings : number ∉ s.closings) : Spares number s s.endOpen.1 := by
  obtain ⟨sameEntrants, sameClosings⟩ := endOpenKeeps s
  exact ⟨slipEndOpen s, by simp [endOpenFree s], sameEntrants ▸ entrants, sameClosings ▸ closings⟩

theorem beginCloseSpares {s : Service} (apart : s.Apart number) {other : Nat} (different : other ≠ number) :
    Spares number s (s.beginClose other).1 := by
  obtain ⟨entrants, _, closings⟩ := beginCloseJoins s other
  refine ⟨slipBeginClose s other, beginCloseKeeps s other ▸ apart.connecting, entrants ▸ apart.entrants, ?_⟩
  rcases closings with same | joined
  · exact same ▸ apart.closings
  · simpa [joined, apart.closings] using different.symm

theorem endCloseSpares {s : Service} (apart : s.Apart number) (other : Nat) : Spares number s (s.endClose other).1 := by
  obtain ⟨connecting, closings⟩ := endCloseKeeps s other
  refine ⟨slipEndClose s other, connecting ▸ apart.connecting, (endCloseLeaves s other).1 ▸ apart.entrants, ?_⟩
  rw [closings]
  exact fun mem => apart.closings (List.mem_of_mem_erase mem)

theorem finishSpares {s : Service} (apart : s.Apart number) {other : Nat} (different : other ≠ number)
    (outcome : Outcome) : Spares number s (s.finish other outcome) :=
  ⟨slipFinish s different outcome, apart.connecting, apart.entrants, apart.closings⟩

theorem letInSpares {entrants : List Entrant} (others : ∀ e ∈ entrants, e.number ≠ number) {s : Service}
    (apart : s.Apart number) : Spares number s (letIn entrants s) := by
  induction entrants generalizing s with
  | nil => exact ⟨rfl, apart⟩
  | cons e rest ih =>
    have different := others e List.mem_cons_self
    replace ih {s : Service} (apart : s.Apart number) := ih (fun e mem => others e (List.mem_cons_of_mem _ mem)) apart
    cases e with
    | opening other =>
      have began := beginOpenSpares apart different
      change Spares number s (s.beginOpen other).1 at began
      unfold letIn
      split
      · rename_i t outcome same
        rw [same] at began
        have ended := finishSpares began.apart different outcome
        exact (began.trans ended).trans (ih ended.apart)
      · rename_i t same
        rw [same] at began
        split
        · have behind : ∀ e ∈ rest, e.number ≠ number := fun e mem => others e (List.mem_cons_of_mem _ mem)
          exact ⟨began.slip, began.apart.connecting, behind, began.apart.closings⟩
        · have opened := endOpenSpares began.apart.entrants began.apart.closings
          have ended := finishSpares opened.apart different t.endOpen.2
          exact ((began.trans opened).trans ended).trans (ih ended.apart)
    | closing other =>
      have began := beginCloseSpares apart different
      change Spares number s (s.beginClose other).1 at began
      unfold letIn
      split <;> rename_i t same <;> rw [same] at began
      · have ended := finishSpares began.apart different .done
        exact (began.trans ended).trans (ih ended.apart)
      · exact began.trans (ih began.apart)

theorem answerCloseSpares {s : Service} (apart : s.Apart number) (other : Nat) :
    Spares number s (s.answerClose other) := by
  unfold answerClose
  split
  · rename_i inside
    have different : other ≠ number := fun same => apart.closings (same ▸ inside)
    have left := endCloseSpares apart other
    exact left.trans (finishSpares left.apart different _)
  · exact ⟨rfl, apart⟩

theorem settleSpares {s : Service} (apart : s.Apart number) : Spares number s s.settleCloses := by
  have folded (others : List Nat) {s : Service} (apart : s.Apart number) :
      Spares number s (others.foldl answerClose s) := by
    induction others generalizing s with
    | nil => exact ⟨rfl, apart⟩
    | cons other rest ih =>
      have first := answerCloseSpares apart other
      exact first.trans (ih first.apart)
  unfold settleCloses
  split
  · exact ⟨rfl, apart⟩
  · exact folded s.closings apart

theorem answerOpenSpares {s : Service} (apart : s.Apart number) : Spares number s s.answerOpen := by
  unfold answerOpen
  split
  · exact ⟨rfl, apart⟩
  · rename_i other inside
    have different : other ≠ number := fun same => apart.connecting (same ▸ inside)
    have opened := endOpenSpares apart.entrants apart.closings
    have ended := finishSpares opened.apart different s.endOpen.2
    have cleared : Spares number s { s.endOpen.1.finish other s.endOpen.2 with entrants := [] } :=
      ⟨(opened.trans ended).slip, ended.apart.connecting, nofun, ended.apart.closings⟩
    have entered := letInSpares ended.apart.entrants cleared.apart
    exact (cleared.trans entered).trans (settleSpares entered.apart)

theorem openUpSpares {s : Service} (apart : s.Apart number) (known : number ≤ s.calls ∨ s.openUp.1.calls < number) :
    Spares number s s.openUp.1 := by
  revert known
  unfold openUp
  dsimp only
  split
  · intro known
    have different : s.calls + 1 ≠ number := by
      dsimp only at known
      omega
    refine ⟨rfl, apart.connecting, fun e mem => ?_, apart.closings⟩
    rcases List.mem_append.mp mem with old | new
    · exact apart.entrants e old
    · rwa [List.mem_singleton.mp new]
  · have began : (beginOpen { s with session := s.session.setAddress s.account } (s.calls + 1)).1.slip number =
        s.slip number := slipBeginOpen _ _
    obtain ⟨entrants, closings, connecting⟩ :=
      beginOpenKeeps { s with session := s.session.setAddress s.account } (s.calls + 1)
    split <;> rename_i t same <;> rw [same] at began entrants closings connecting
    · obtain rfl := beginOpenEnds same
      exact fun _ => apart.spares rfl rfl rfl rfl
    · split
      · intro known
        have different : s.calls + 1 ≠ number := by
          dsimp only at known
          omega
        refine ⟨began, ?_, entrants ▸ apart.entrants, closings ▸ apart.closings⟩
        rcases connecting with same | own
        · exact same ▸ apart.connecting
        · exact fun same => different (Option.some.inj (own.symm.trans same))
      · have opened : Spares number t t.endOpen.1 :=
          endOpenSpares (entrants ▸ apart.entrants) (closings ▸ apart.closings)
        exact fun _ => ⟨opened.slip.trans began, opened.apart⟩

theorem shutDownSpares {s : Service} (apart : s.Apart number) (known : number ≤ s.calls ∨ s.calls + 1 < number) :
    Spares number s s.shutDown.1 := by
  have different : s.calls + 1 ≠ number := by omega
  have counted : Spares number s { s with calls := s.calls + 1 } := apart.spares rfl rfl rfl rfl
  unfold shutDown
  dsimp only
  split
  · refine ⟨rfl, apart.connecting, fun e mem => ?_, apart.closings⟩
    rcases List.mem_append.mp mem with old | new
    · exact apart.entrants e old
    · rwa [List.mem_singleton.mp new]
  · have began := counted.trans (beginCloseSpares counted.apart different)
    split <;> rename_i t same <;> rw [same] at began
    · exact began
    · split
      · exact began
      · exact began.trans (endCloseSpares began.apart _)

theorem Delivers.apart {caller : Caller} {taken : List Request} {s t : Service} (delivers : Delivers caller taken s t)
    (apart : s.Apart number) : t.Apart number :=
  ⟨show t.connection.connecting ≠ some number from delivers.connection ▸ apart.connecting,
    delivers.entrants ▸ apart.entrants,
    show number ∉ t.connection.closings from delivers.connection ▸ apart.closings⟩

theorem Delivers.failures {caller : Caller} {taken : List Request} {s t : Service}
    (delivers : Delivers caller taken s t) :
    t.failures = s.failures ++ (taken.map (s.transport.answer caller)).filterMap Settlement.complaint? := by
  unfold Service.failures
  rw [delivers.reports, List.filter_append, complaintsFail]

theorem Sends.aside {caller : Caller} {accepted : Nat} {requests : List Request} {s t : Service} {count : Option Nat}
    (sends : Sends caller accepted requests s t count) (apart : s.Apart number) (different : caller ≠ .call number) :
    Aside number s t := by
  have of {taken : List Request} (delivers : Delivers caller taken s t)
      (bursts : t.burstsOf number = s.burstsOf number) : Aside number s t := by
    refine ⟨⟨_, delivers.settled, delivers.failures, fun x mem => ?_⟩, bursts, ?_, delivers.apart apart⟩
    · obtain ⟨r, _, rfl⟩ := List.mem_map.mp mem
      exact different
    · unfold outcomesOf
      rw [delivers.finished]
  cases sends with
  | all delivers bursts => exact of delivers (congrArg _ bursts)
  | halts _ delivers bursts =>
    refine of delivers ?_
    simp [burstsOf, bursts, different]

theorem updateAside {s : Service} (apart : s.Apart number) {caller : Caller} (different : caller ≠ .call number) :
    Aside number s (s.update caller).1 := by
  cases known : s.session.requests? s.currency with
  | none =>
    have unset : s.session.address = none := Option.map_eq_none_iff.mp known
    rw [updateUnset unset]
    exact Spares.aside ⟨rfl, apart.connecting, apart.entrants, apart.closings⟩
  | some requests =>
    obtain ⟨count, sends, _⟩ := updateSends known caller
    exact sends.aside apart different

theorem answerAside {s : Service} (apart : s.Apart number) {caller : Caller} (different : caller ≠ .call number) :
    Aside number s (s.answerSend caller) := by
  rcases answerSends s caller with ⟨_, same⟩ | ⟨b, t, count, found, sends, same⟩
  · rw [same]
    exact Spares.aside (apart.spares rfl rfl rfl rfl)
  · have others : (s.bursts.eraseP fun b => b.caller = caller).filter (fun b => b.caller = .call number) =
        s.burstsOf number := by
      refine filterErased (fun b own => ?_) s.bursts
      have own : b.caller = caller := by simpa using own
      simp [own, different]
    have taken : Spares number s { s with bursts := s.bursts.eraseP fun b => b.caller = caller } :=
      apart.spares (congrArg (fun bursts => { s.slip number with bursts }) others) rfl rfl rfl
    have sent := taken.aside.trans (sends.aside taken.apart different)
    rw [same]
    unfold returning
    split
    · rename_i other n
      exact sent.trans (finishSpares sent.apart (fun same => different (congrArg _ same)) _).aside
    · exact sent

theorem turnAside {s : Service} (apart : s.Apart number) (stream : Nat) : Aside number s (s.turn stream) := by
  have enters (s : Service) (apart : s.Apart number) (next : Phase) : Spares number s (s.enter next) := by
    refine apart.spares (slipEnter s next) ?_ ?_ ?_ <;> unfold enter <;> split <;> rfl
  have receives (s : Service) (apart : s.Apart number) (text : String) : Spares number s (s.receive text).1 := by
    refine apart.spares ?_ ?_ ?_ ?_ <;> unfold receive <;> split
    · exact slipReport s rfl
    all_goals rfl
  have turned := turnTurned s stream
  generalize s.turn stream = t at turned
  cases turned with
  | still => exact Spares.aside (apart.spares rfl rfl rfl rfl)
  | takes _ _ rest taken =>
    have before : Spares number s (s.setQueue stream rest) := apart.spares rfl rfl rfl rfl
    refine before.aside.trans ?_
    replace apart := before.apart
    cases taken with
    | ignore => exact Spares.aside (apart.spares rfl rfl rfl rfl)
    | establish =>
      have up := enters _ apart .connected
      exact up.aside.trans (updateAside up.apart nofun)
    | receive text => exact (receives _ apart text).aside
    | crash text =>
      have heard := receives _ apart text
      exact Spares.aside (heard.trans (heard.apart.spares rfl rfl rfl rfl))
    | lose =>
      have down := enters _ apart .closed
      exact Spares.aside (down.trans (down.apart.spares rfl rfl rfl rfl))
    | fail text => exact Spares.aside (apart.spares (slipReport _ rfl) rfl rfl rfl)
  | ends =>
    split
    · have down := enters s apart .closed
      exact Spares.aside (down.trans (down.apart.spares rfl rfl rfl rfl))
    · exact Spares.aside (apart.spares rfl rfl rfl rfl)

theorem arriveSpares {s : Service} (apart : s.Apart number) (stream : Nat) (signals : List Signal) :
    Spares number s (s.arrive stream signals).1 := by
  unfold arrive
  split
  · exact apart.spares rfl rfl rfl rfl
  · split <;> exact apart.spares rfl rfl rfl rfl

theorem requestCalls (s : Service) : s.requestUpdate.1.calls = s.calls + 1 := (requestUpdateAsks s).hands.kept.2

theorem requestUpdateAside {s : Service} (apart : s.Apart number) (different : s.calls + 1 ≠ number) :
    Aside number s s.requestUpdate.1 := by
  have counted : Spares number s { s with calls := s.calls + 1 } := apart.spares rfl rfl rfl rfl
  have asked : Aside number _ (update { s with calls := s.calls + 1 } (.call (s.calls + 1))).1 :=
    updateAside counted.apart (by simpa using different)
  unfold requestUpdate
  dsimp only
  split <;> rename_i same <;> rw [same] at asked <;> exact counted.aside.trans asked

theorem shutDownCalls (s : Service) : s.shutDown.1.calls = s.calls + 1 := by
  have began := (beginCloseJoins { s with calls := s.calls + 1 } (s.calls + 1)).2.1
  unfold shutDown
  dsimp only
  split
  · rfl
  · split <;> rename_i t same <;> rw [same] at began
    · exact began
    · split
      · exact began
      · exact (endCloseLeaves t _).2.trans began

theorem moveAside {s : Service} {i : Input} (single : i.Single) (apart : s.Apart number)
    (known : number ≤ s.calls ∨ (s.step i).1.calls < number) (other : i ≠ .answerSend (.call number)) :
    Aside number s (s.step i).1 := by
  cases i with
  | openUp => exact (openUpSpares apart known).aside
  | shutDown => exact (shutDownSpares apart (shutDownCalls s ▸ known)).aside
  | requestUpdate =>
    have calls := requestCalls s
    exact requestUpdateAside apart (by change _ ∨ s.requestUpdate.1.calls < number at known; omega)
  | arrive stream signals => exact (arriveSpares apart stream signals).aside
  | turn stream => exact turnAside apart stream
  | answerSend caller => exact answerAside apart fun same => other (congrArg _ same)
  | answerOpen => exact (answerOpenSpares apart).aside
  | answerClose called => exact (answerCloseSpares apart called).aside
  | emit | endStream | permitSends | releaseSends | releaseClose => exact single.elim
  | _ => exact Spares.aside (apart.spares rfl rfl rfl rfl)

end Service
end AccountWatch
