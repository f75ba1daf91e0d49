import AccountWatch.Proofs.Program.Output
import AccountWatch.Proofs.Service.Watching

/-! How the program leaves. The report that the connection is closed is the last one, so that no backlog of reports
hides it: a receiver that falls behind is given the last ones, and the last of them is still to come.
The program takes no more than it can fall behind by, and one, before it has it. -/
namespace AccountWatch

namespace Receiver

def due (r : Receiver) (reports : List Report) : Nat :=
  if r.seen < reports.length - capacity then capacity + 1 else reports.length - r.seen

theorem dueBound (r : Receiver) (reports : List Report) : r.due reports ≤ capacity + 1 := by
  unfold due
  split <;> omega

theorem duePositive {r : Receiver} {reports : List Report} (unread : r.seen < reports.length) :
    0 < r.due reports := by
  unfold due
  split <;> omega

structure Reads (r : Receiver) (reports : List Report) (received : Received) (next : Receiver) : Prop where
  due : next.due reports + 1 = r.due reports
  known : next.seen ≤ reports.length
  made : ∀ x, received = .report x → x ∈ reports
  last : next.seen = reports.length → ∃ last, reports.getLast? = some last ∧ received = .report last

theorem reads {r : Receiver} {reports : List Report} (unread : r.seen < reports.length) :
    ∃ received next, r.next? reports = some (received, next) ∧ Reads r reports received next := by
  have room : 0 < capacity := by decide
  unfold next?
  dsimp only
  split
  · rename_i behind
    refine ⟨_, _, rfl, ?_, Nat.sub_le _ _, nofun, fun whole => ?_⟩
    · unfold due
      rw [if_pos behind, if_neg (Nat.lt_irrefl _)]
      dsimp only
      omega
    · dsimp only at whole
      omega
  · rename_i near
    rw [List.getElem?_eq_getElem unread]
    refine ⟨_, _, rfl, ?_, unread, ?_, fun whole => ⟨_, ?_, rfl⟩⟩
    · unfold due
      rw [if_neg near, if_neg (by dsimp only; omega)]
      dsimp only
      omega
    · rintro x ⟨⟩
      exact List.getElem_mem unread
    · dsimp only at whole
      rw [List.getLast?_eq_getElem?, ← whole, Nat.add_sub_cancel, List.getElem?_eq_getElem unread]

theorem readsNothing {r : Receiver} {reports : List Report} (read : reports.length ≤ r.seen) :
    r.next? reports = none := by
  unfold next?
  dsimp only
  rw [if_neg (by omega), List.getElem?_eq_none read]
  rfl

theorem drainLast {r : Receiver} {reports : List Report} {last : Report} (unread : r.seen < reports.length)
    (ends : reports.getLast? = some last) : (r.drain reports).1.getLast? = some (.report last) := by
  have room : 0 < capacity := by decide
  unfold drain
  dsimp only
  have inside : max r.seen (reports.length - capacity) < reports.length := by omega
  have tail : (reports.drop (max r.seen (reports.length - capacity))).getLast? = some last := by
    rw [List.getLast?_drop, if_neg (by omega), ends]
  rw [List.getLast?_append, List.getLast?_map, tail]
  rfl

end Receiver

namespace Program

def Move.Undisturbed : Move → Prop
  | .input i => i.Outside
  | .takeMessage | .takeReport => True
  | .interrupt => False

theorem Move.Undisturbed.regular {m : Move} (undisturbed : m.Undisturbed) : m.Regular := by
  cases m with
  | input i => exact .inl undisturbed
  | takeMessage | takeReport | interrupt => trivial

def Move.takesReport : Move → Bool
  | .takeReport => true
  | .input _ | .takeMessage | .interrupt => false

inductive Advances (p : Program) : Move → Program → Prop where
  | input {i : Service.Input} (outside : i.Outside) :
      Advances p (.input i) { p with service := (p.service.step i).1 }
  | waits : Advances p .takeMessage p
  | prints (m : Message) (publisher : Publisher) :
      Advances p .takeMessage { p with
        service := { p.service with publisher }
        output := p.output ++ [m.line] }
  | idles (read : p.service.reports.length ≤ p.receiver.seen) : Advances p .takeReport p
  | passes {received : Received} {receiver : Receiver}
      (reads : p.receiver.Reads p.service.reports received receiver) (other : received ≠ .report (.phase .closed)) :
      Advances p .takeReport { p with receiver }
  | leaves {receiver : Receiver}
      (reads : p.receiver.Reads p.service.reports (.report (.phase .closed)) receiver) :
      Advances p .takeReport ({ p with receiver } : Program).leave

theorem Prints.advances {p : Program} {told waiting : List Message} (prints : p.Prints told waiting)
    (running : p.ended = false) {m : Move} (undisturbed : m.Undisturbed) : Advances p m (p.move m) := by
  unfold Program.move
  rw [if_neg (by simp [running])]
  cases m with
  | input i => exact .input undisturbed
  | interrupt => exact undisturbed.elim
  | takeMessage =>
    dsimp only
    rw [prints.takes]
    cases waiting with
    | nil => exact .waits
    | cons m rest => exact .prints m (.solo rest)
  | takeReport =>
    dsimp only
    unfold Program.takeReport
    by_cases unread : p.receiver.seen < p.service.reports.length
    · obtain ⟨received, receiver, next, reads⟩ := Receiver.reads unread
      rw [next]
      dsimp only
      by_cases last : received = .report (.phase .closed)
      · subst last
        exact .leaves reads
      · rw [if_neg last]
        exact .passes reads last
    · have read : p.service.reports.length ≤ p.receiver.seen := Nat.le_of_not_lt unread
      rw [Receiver.readsNothing read]
      exact .idles read

structure Attends (p : Program) : Prop where
  watched : p.service.Watched
  prints : ∃ told waiting, p.Prints told waiting
  known : p.receiver.seen ≤ p.service.reports.length
  unheard : p.ended = false → p.service.phase = .closed → p.receiver.seen < p.service.reports.length
  stopped : p.ended → p.service.phase = .closed

theorem Attends.start {o : Options} {p : Program} (started : start o = .ok p) : p.Attends := by
  have prints := startPrints started
  rw [startOpens started] at prints ⊢
  have first := Service.startSound (o.address.map Address.mk) o.currency o.fallback
  have sound : (subscribed o).Sound := ⟨first.stage, nofun⟩
  have opens : (subscribed o).openUp.1.Sound := Service.runSound sound [.openUp]
  have phase : (subscribed o).openUp.1.phase = .opening := rfl
  refine ⟨⟨opens, nofun, fun _ => nofun, ?_, ?_⟩, ⟨_, _, prints⟩, ?_, ?_, nofun⟩
  · change _ → Phase.closed ∉ [Phase.opening]
    simp
  · intro closed
    cases phase.symm.trans closed
  · exact Nat.zero_le _
  · intro _ closed
    cases phase.symm.trans closed

theorem Attends.closedOf {p : Program} (attends : p.Attends) (made : .phase .closed ∈ p.service.reports) :
    p.service.phase = .closed := by
  have listed : .closed ∈ p.service.connection.course := List.mem_filterMap.mpr ⟨_, made, rfl⟩
  cases phase : p.service.phase with
  | closed => rfl
  | opening | connected | closing =>
    exact (attends.watched.silent (by simp [phase]) listed).elim

theorem Attends.move {p : Program} (attends : p.Attends) {m : Move} (undisturbed : m.Undisturbed) :
    (p.move m).Attends := by
  cases running : p.ended with
  | true =>
    have still : p.move m = p := if_pos running
    rwa [still]
  | false =>
    obtain ⟨told, waiting, prints⟩ := attends.prints
    have advances := prints.advances running undisturbed
    have kept : ∃ told waiting, (p.move m).Prints told waiting := ⟨_, prints.move undisturbed.regular⟩
    generalize p.move m = q at advances kept
    cases advances with
    | waits | idles => exact attends
    | prints m publisher =>
      have same : p.service.Rests { p.service with publisher } := ⟨rfl, rfl, rfl⟩
      exact ⟨attends.watched.rests ⟨attends.watched.stage, attends.watched.tied⟩ same, kept, attends.known,
        attends.unheard, attends.stopped⟩
    | @input i outside =>
      have watched := attends.watched.step outside (Service.outsideNews prints.solo outside).2
      have more : p.service.reports <+: (p.service.step i).1.reports := Service.outsideReports outside
      have known : p.receiver.seen ≤ (p.service.step i).1.reports.length :=
        Nat.le_trans attends.known more.length_le
      refine ⟨watched, kept, known, fun _ closed => ?_, fun stopped => absurd stopped (by simp [running])⟩
      by_cases before : p.service.phase = .closed
      · exact (attends.watched.idle before outside).reports ▸ attends.unheard running before
      · -- the report of the closing is new, so that it has not been read
        refine Nat.lt_of_le_of_ne known fun whole => before (attends.closedOf ?_)
        have length : p.service.reports.length = (p.service.step i).1.reports.length :=
          Nat.le_antisymm more.length_le (whole ▸ attends.known)
        rw [more.eq_of_length length]
        exact List.mem_of_getLast? (watched.last closed)
    | @passes received receiver reads other =>
      refine ⟨attends.watched, kept, reads.known, fun _ closed => ?_, attends.stopped⟩
      refine Nat.lt_of_le_of_ne reads.known fun whole => ?_
      obtain ⟨last, ends, same⟩ := reads.last whole
      rw [attends.watched.last closed] at ends
      exact other (Option.some.inj ends ▸ same)
    | @leaves receiver reads =>
      have closed := attends.closedOf (reads.made _ rfl)
      have rests := attends.watched.shutDown closed
      have sound : p.service.shutDown.1.Sound := Service.runSound attends.watched.toSound [.shutDown]
      refine ⟨attends.watched.rests sound rests, kept, ?_, nofun, fun _ => ?_⟩
      · exact rests.reports.symm ▸ reads.known
      · exact (congrArg Connection.phase rests.connection).trans closed

theorem Attends.run {p : Program} (attends : p.Attends) {moves : List Move}
    (undisturbed : ∀ m ∈ moves, m.Undisturbed) : (p.run moves).Attends := by
  induction moves generalizing p with
  | nil => exact attends
  | cons m rest ih =>
    exact ih (attends.move (undisturbed m List.mem_cons_self)) fun n mem => undisturbed n (List.mem_cons_of_mem m mem)

theorem Attends.settled {p : Program} (attends : p.Attends) (closed : p.service.phase = .closed)
    (running : p.ended = false) {m : Move} (undisturbed : m.Undisturbed) :
    p.service.Rests (p.move m).service ∧ ((p.move m).ended ∨
      (p.move m).receiver.due p.service.reports + (if m.takesReport then 1 else 0) =
        p.receiver.due p.service.reports) := by
  obtain ⟨told, waiting, prints⟩ := attends.prints
  have advances := prints.advances running undisturbed
  generalize p.move m = q at advances
  cases advances with
  | input outside => exact ⟨attends.watched.idle closed outside, .inr rfl⟩
  | waits | prints => exact ⟨⟨rfl, rfl, rfl⟩, .inr rfl⟩
  | idles read => exact absurd (attends.unheard running closed) (Nat.not_lt.mpr read)
  | passes reads => exact ⟨⟨rfl, rfl, rfl⟩, .inr reads.due⟩
  | leaves => exact ⟨attends.watched.shutDown closed, .inl rfl⟩

theorem Attends.leaves {p : Program} (attends : p.Attends) (closed : p.service.phase = .closed) {later : List Move}
    (undisturbed : ∀ m ∈ later, m.Undisturbed) : (p.run later).service.reports = p.service.reports ∧
      (p.receiver.due p.service.reports ≤ later.countP Move.takesReport → (p.run later).ended) := by
  cases running : p.ended with
  | true =>
    rw [endedStays running]
    exact ⟨rfl, fun _ => running⟩
  | false =>
    induction later generalizing p with
    | nil =>
      refine ⟨rfl, fun enough => ?_⟩
      have ahead := Receiver.duePositive (attends.unheard running closed)
      exact absurd enough (Nat.not_le.mpr ahead)
    | cons m rest ih =>
      have first := undisturbed m List.mem_cons_self
      have others : ∀ n ∈ rest, n.Undisturbed := fun n mem => undisturbed n (List.mem_cons_of_mem m mem)
      obtain ⟨rests, nearer⟩ := attends.settled closed running first
      have still : (p.move m).service.phase = .closed := (congrArg Connection.phase rests.connection).trans closed
      change ((p.move m).run rest).service.reports = _ ∧ (_ → ((p.move m).run rest).ended)
      cases stopped : (p.move m).ended with
      | true =>
        rw [endedStays stopped]
        exact ⟨rests.reports, fun _ => stopped⟩
      | false =>
        obtain ⟨reports, leaves⟩ := ih (attends.move first) still others stopped
        refine ⟨reports.trans rests.reports, fun enough => leaves ?_⟩
        rw [List.countP_cons] at enough
        rw [rests.reports]
        rcases nearer with left | less
        · rw [stopped] at left
          cases left
        · omega

/-- When a listener handles the end of its connection or of its stream nobody listens any more. Then the report
that the connection is closed is the last one for good, whoever had read everything before it has it among
the last ones, and the program leaves when it has read often enough. -/
theorem closingIsHeard {o : Options} {p : Program} (started : start o = .ok p) {before : List Move}
    (undisturbed : ∀ m ∈ before, m.Undisturbed) :
    let q := p.run before
    let reports := q.service.reports
    (∀ t ∈ q.service.listeners, t.Finishes → q.service.suspended t.stream = false →
      (q.move (.input (.turn t.stream))).service.listeners = []) ∧
    (q.service.listeners = [] → reports.getLast? = some (.phase .closed) ∧
      (∀ r : Receiver, r.seen < reports.length →
        (r.drain reports).1.getLast? = some (.report (.phase .closed))) ∧
      ∀ later : List Move, (∀ m ∈ later, m.Undisturbed) → (q.run later).service.reports = reports ∧
        (Receiver.capacity < later.countP Move.takesReport → (q.run later).ended)) := by
  intro q reports
  have attends : q.Attends := (Attends.start started).run undisturbed
  refine ⟨fun t mem finishes ready => ?_, fun none => ?_⟩
  · cases running : q.ended with
    | true =>
      rw [(attends.watched.down (attends.stopped running)).1] at mem
      cases mem
    | false =>
      have moved : q.move (.input (.turn t.stream)) = { q with service := q.service.turn t.stream } :=
        if_neg (by simp [running])
      have closed := attends.watched.finishes mem finishes ready
      have later : (q.move (.input (.turn t.stream))).Attends := attends.move trivial
      rw [moved] at later ⊢
      exact (later.watched.down closed).1
  · have closed : q.service.phase = .closed := by
      cases phase : q.service.phase with
      | closed => rfl
      | opening | connected | closing => exact (attends.watched.attended (by simp [phase]) none).elim
    have last := attends.watched.last closed
    refine ⟨last, fun r unread => Receiver.drainLast unread last, fun later calm => ?_⟩
    obtain ⟨silent, leaves⟩ := attends.leaves closed calm
    exact ⟨silent, fun enough => leaves (Nat.le_trans (Receiver.dueBound _ _) enough)⟩

theorem leavesBehindBacklog :
    let o : Options := ⟨"ws://a", some "account", "USD", 0, 0⟩
    let signals : List Signal := .opened :: List.replicate 70 (.frame "") ++ [.closed none]
    let before : List Move := [.input (.failSends [⟨"", .notConnected⟩]), .input (.arrive 1 signals)] ++
      List.replicate 72 (.input (.turn 1))
    let q := (opened o).run before
    start o = .ok (opened o) ∧ q.service.listeners = [] ∧ q.service.reports.length = 77 ∧
      q.service.reports.getLast? = some (.phase .closed) ∧
      (q.receiver.drain q.service.reports).1.head? = some (.lagged 13) ∧
      (q.receiver.drain q.service.reports).1.getLast? = some (.report (.phase .closed)) ∧
      (q.run (List.replicate 65 .takeReport)).ended := by
  intro o signals before q
  have started : start o = .ok (opened o) := opensStart (by decide +kernel)
  have undisturbed : ∀ m ∈ before, m.Undisturbed := by
    simp [before, Move.Undisturbed, Service.Input.Outside]
  have state : q.service.listeners = [] ∧ q.service.reports.length = 77 ∧ q.receiver.seen = 0 ∧
      (q.receiver.drain q.service.reports).1.head? = some (.lagged 13) := by
    decide +kernel
  have heard := (closingIsHeard started undisturbed).2
  rw [show (opened o).run before = q from rfl] at heard
  clear_value q
  obtain ⟨none, length, seen, lost⟩ := state
  obtain ⟨last, drains, leaves⟩ := heard none
  refine ⟨started, none, length, last, lost, drains q.receiver (by rw [seen, length]; decide), ?_⟩
  exact (leaves (List.replicate 65 .takeReport) (by simp [Move.Undisturbed])).2 (by decide)

end Program
end AccountWatch
