import AccountWatch.Program.Basic
import AccountWatch.Proofs.Json.Printing
import AccountWatch.Proofs.Service.News

/-! What the program prints. Every message that its service publishes waits for it: the lines printed and the lines
still to be printed are the messages published, in order. What waits when the program leaves is lost,
and it may leave while something waits. -/
namespace AccountWatch.Program

def Move.Regular : Move → Prop
  | .input i => i.Outside ∨ i = .requestUpdate
  | .takeMessage | .takeReport | .interrupt => True

def news (p : Program) : Move → List Message
  | .input i => if p.ended then [] else p.service.news i
  | .takeMessage | .takeReport | .interrupt => []

def published (p : Program) : List Move → List Message
  | [] => []
  | m :: rest => p.news m ++ (p.move m).published rest

def queued (p : Program) : List Message := p.service.publisher.queue p.subscription

structure Prints (p : Program) (told : List Message) (waiting : List Message) : Prop where
  own : p.subscription = 0
  solo : p.service.publisher = .solo waiting
  lines : p.output ++ waiting.map Message.line = told.map Message.line

section
variable {p : Program} {told waiting : List Message}

theorem Prints.queued (prints : p.Prints told waiting) : p.queued = waiting := by
  unfold Program.queued
  rw [prints.solo, prints.own]
  rfl

theorem Prints.same {q : Program} (prints : p.Prints told waiting) (own : q.subscription = p.subscription)
    (publisher : q.service.publisher = p.service.publisher) (output : q.output = p.output) :
    q.Prints told waiting :=
  ⟨own.trans prints.own, publisher.trans prints.solo, output ▸ prints.lines⟩

theorem Prints.leave (prints : p.Prints told waiting) : p.leave.Prints told waiting :=
  prints.same rfl (Service.unpublished (f := fun s => s.shutDown.1)
    fun publisher crashes => congrArg Prod.fst (Service.hostingShutDown p.service publisher crashes)).1 rfl

theorem Prints.takeReport (prints : p.Prints told waiting) : p.takeReport.Prints told waiting := by
  unfold Program.takeReport
  split
  · exact prints
  · rename_i received receiver _
    have held : ({ p with receiver } : Program).Prints told waiting := prints.same rfl rfl rfl
    dsimp only
    split
    · exact held.leave
    · exact held

theorem Prints.takes (prints : p.Prints told waiting) : p.takeMessage = match waiting with
    | [] => p
    | m :: rest => { p with
        service := { p.service with publisher := .solo rest }
        output := p.output ++ [m.line] } := by
  have polled : p.service.publisher.poll p.subscription = _ :=
    (congr (congrArg Publisher.poll prints.solo) prints.own).trans (Publisher.soloPoll waiting)
  unfold Program.takeMessage
  rw [polled]
  cases waiting <;> rfl

theorem Prints.takeMessage (prints : p.Prints told waiting) : p.takeMessage.Prints told waiting.tail := by
  rw [prints.takes]
  cases waiting with
  | nil => exact prints
  | cons m rest => exact ⟨prints.own, rfl, (List.append_assoc ..).trans prints.lines⟩

theorem Prints.input (prints : p.Prints told waiting) {i : Service.Input} (regular : i.Outside ∨ i = .requestUpdate) :
    ({ p with service := (p.service.step i).1 } : Program).Prints (told ++ p.service.news i)
      (waiting ++ p.service.news i) := by
  refine ⟨prints.own, ?_, ?_⟩
  · rcases regular with outside | rfl
    · exact (Service.outsideNews prints.solo outside).1
    · have kept := Service.unpublished (f := fun s => s.requestUpdate.1) (s := p.service)
        fun publisher crashes => congrArg Prod.fst (Service.hostingRequestUpdate p.service publisher crashes)
      exact (kept.1.trans prints.solo).trans (congrArg Publisher.solo (List.append_nil waiting).symm)
  · rw [List.map_append, List.map_append, ← List.append_assoc, prints.lines]

theorem Prints.move (prints : p.Prints told waiting) {m : Move} (regular : m.Regular) :
    ∃ waiting, (p.move m).Prints (told ++ p.news m) waiting := by
  by_cases ended : p.ended
  · have still : p.move m = p := if_pos ended
    have silent : p.news m = [] := by cases m <;> simp [news, ended]
    rw [still, silent, List.append_nil]
    exact ⟨_, prints⟩
  · unfold Program.move
    rw [if_neg ended]
    cases m with
    | input i =>
      rw [news, if_neg ended]
      exact ⟨_, prints.input regular⟩
    | takeMessage => exact ⟨_, (List.append_nil told).symm ▸ prints.takeMessage⟩
    | takeReport => exact ⟨_, (List.append_nil told).symm ▸ prints.takeReport⟩
    | interrupt => exact ⟨_, (List.append_nil told).symm ▸ prints.leave⟩

theorem Prints.run (prints : p.Prints told waiting) {moves : List Move} (regular : ∀ m ∈ moves, m.Regular) :
    ∃ waiting, (p.run moves).Prints (told ++ p.published moves) waiting := by
  induction moves generalizing p told waiting with
  | nil =>
    rw [published, List.append_nil]
    exact ⟨waiting, prints⟩
  | cons m rest ih =>
    obtain ⟨now, moved⟩ := prints.move (regular m List.mem_cons_self)
    rw [published, ← List.append_assoc]
    exact ih moved fun n mem => regular n (List.mem_cons_of_mem m mem)

end

def subscribed (o : Options) : Service :=
  { Service.start (o.address.map Address.mk) o.currency o.fallback with publisher := .solo [] }

def opened (o : Options) : Program := ⟨(subscribed o).openUp.1, 0, ⟨0⟩, [], false⟩

theorem startOpens {o : Options} {p : Program} (started : start o = .ok p) : p = opened o := by
  unfold start at started
  split at started
  · cases started
  · exact (Except.ok.inj started).symm

theorem opensStart {o : Options} (fit : checkEndpoint o.url = .ok ()) : start o = .ok (opened o) := by
  unfold start
  rw [fit]
  rfl

theorem startPrints {o : Options} {p : Program} (started : start o = .ok p) : p.Prints [] [] := by
  rw [startOpens started]
  have kept := Service.unpublished (f := fun s => s.openUp.1) (s := subscribed o)
    fun publisher crashes => congrArg Prod.fst (Service.hostingOpenUp (subscribed o) publisher crashes)
  exact ⟨rfl, kept.1, rfl⟩

theorem endedStays {p : Program} (ended : p.ended) (moves : List Move) : p.run moves = p := by
  induction moves with
  | nil => rfl
  | cons m rest ih =>
    have still : p.move m = p := if_pos ended
    change (p.move m).run rest = p
    rw [still, ih]

theorem linesOfPublished {o : Options} {p : Program} (started : start o = .ok p) {moves : List Move}
    (regular : ∀ m ∈ moves, m.Regular) :
    let q := p.run moves
    q.output ++ q.queued.map Message.line = (p.published moves).map Message.line ∧
      (∀ line ∈ q.output, ∀ c ∈ line.toList, 0x20 ≤ c.toNat) ∧
      (q.ended → ∀ later, (q.run later).output = q.output) := by
  intro q
  obtain ⟨waiting, prints⟩ := (startPrints started).run regular
  have lines : q.output ++ q.queued.map Message.line = (p.published moves).map Message.line :=
    prints.queued ▸ prints.lines
  refine ⟨lines, ?_, fun ended later => by rw [endedStays ended]⟩
  intro line printed c mem
  have told : line ∈ (p.published moves).map Message.line := lines ▸ List.mem_append_left _ printed
  obtain ⟨m, _, rfl⟩ := List.mem_map.mp told
  exact Json.writtenPrintable m.envelope c (by simpa [Message.line, Json.Value.text] using mem)

theorem oneLineOfTwo :
    let o : Options := ⟨"ws://a", none, "USD", 0, 0⟩
    let moves : List Move := [.input (.arrive 1 [.opened, .frame "\x7b\"work\":\"1\"\x7d",
        .frame "\x7b\"work\":\"2\"\x7d", .closed none]),
      .input (.turn 1), .input (.turn 1), .takeMessage, .input (.turn 1), .input (.turn 1),
      .takeReport, .takeReport, .takeReport]
    let q := (opened o).run moves
    start o = .ok (opened o) ∧ (∀ m ∈ moves, m.Regular) ∧ q.ended ∧ q.queued = [.work "2"] ∧
      q.output ++ q.queued.map Message.line = [.work "1", .work "2"].map Message.line := by
  intro o moves q
  have started : start o = .ok (opened o) := opensStart (by decide +kernel)
  have regular : ∀ m ∈ moves, m.Regular := by simp [moves, Move.Regular, Service.Input.Outside]
  have lines := (linesOfPublished started regular).1
  have published : (opened o).published moves = [.work "1", .work "2"] := by decide +kernel
  have left : q.ended ∧ q.queued = [.work "2"] := by decide +kernel
  rw [published] at lines
  exact ⟨started, regular, left.1, left.2, lines⟩

/-- Not everything that is published before the connection ends is printed: the program takes the report that it is
closed, and leaves, while a message still waits. -/
theorem closedBeforeTaken :
    ¬ ∀ (o : Options) (p : Program) (moves : List Move), start o = .ok p →
      (∀ m ∈ moves, m.Regular ∧ m ≠ .interrupt) → (p.run moves).ended →
        (p.run moves).output = (p.published moves).map Message.line := by
  intro complete
  let o : Options := ⟨"ws://a", none, "USD", 0, 0⟩
  let moves : List Move := [.input (.arrive 1 [.opened, .frame "\x7b\"work\":\"1\"\x7d", .closed none]),
    .input (.turn 1), .input (.turn 1), .input (.turn 1), .takeReport, .takeReport, .takeReport]
  have printed := complete o (opened o) moves (opensStart (by decide +kernel))
    (by simp [moves, Move.Regular, Service.Input.Outside]) (by decide +kernel)
  have nothing : ((opened o).run moves).output = [] := by decide +kernel
  have published : (opened o).published moves = [.work "1"] := by decide +kernel
  rw [nothing, published] at printed
  cases printed

end AccountWatch.Program
