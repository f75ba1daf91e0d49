import AccountWatch.Service.Run

/-! Every run is a run of single moves. An input that goes on until all that can run has run does nothing
that turns and answers, given one by one, do not do, so that what each single move preserves is
preserved by every run. -/
namespace AccountWatch.Service

def Input.Single : Input → Prop
  | .emit _ _ | .endStream _ | .permitSends _ | .releaseSends | .releaseClose => False
  | _ => True

def Input.Drives : Input → Prop
  | .arrive _ _ | .cut _ | .turn _ | .grantSends _ | .freeSends | .answerSend _ | .freeClose
  | .answerClose _ => True
  | _ => False

theorem Input.Drives.single {i : Input} (drives : i.Drives) : i.Single := by
  cases i <;> trivial

@[simp] theorem runCons (s : Service) (i : Input) (rest : List Input) :
    s.run (i :: rest) = (s.step i).1.run rest := rfl

theorem runAppend (s : Service) (left right : List Input) :
    s.run (left ++ right) = (s.run left).run right := List.foldl_append

def Driven (s t : Service) : Prop := ∃ moves : List Input, (∀ i ∈ moves, i.Drives) ∧ t = s.run moves

theorem Driven.refl (s : Service) : Driven s s := ⟨[], by simp, rfl⟩

theorem Driven.trans {s t u : Service} (first : Driven s t) (second : Driven t u) : Driven s u := by
  obtain ⟨left, driveLeft, rfl⟩ := first
  obtain ⟨right, driveRight, rfl⟩ := second
  refine ⟨left ++ right, ?_, (runAppend s left right).symm⟩
  intro i mem
  exact (List.mem_append.mp mem).elim (driveLeft i) (driveRight i)

theorem Driven.move (s : Service) {i : Input} (drives : i.Drives) : Driven s (s.step i).1 :=
  ⟨[i], by simpa using drives, rfl⟩

theorem Driven.fold {α : Type} {f : Service → α → Service} (each : ∀ s a, Driven s (f s a))
    (s : Service) (as : List α) : Driven s (as.foldl f s) := by
  induction as generalizing s with
  | nil => exact .refl s
  | cons a rest ih => exact (each s a).trans (ih (f s a))

theorem drivenTurns (s : Service) (stream n : Nat) : Driven s (turns stream n s) := by
  induction n generalizing s with
  | zero => exact .refl s
  | succ n ih => exact (Driven.move s (i := .turn stream) trivial).trans (ih (s.turn stream))

theorem drivenWake (s : Service) (stream : Nat) : Driven s (s.wake stream) := by
  unfold wake
  split
  · exact .refl s
  · exact drivenTurns s stream _

theorem drivenServe (s : Service) (caller : Caller) : Driven s (s.serve caller) := by
  have answered : Driven s (s.answerSend caller) := .move s (i := .answerSend caller) trivial
  cases caller with
  | call number => exact answered
  | listener stream => exact answered.trans (drivenWake _ stream)

theorem drivenSettle (s : Service) : Driven s s.settleCloses := by
  unfold settleCloses
  split
  · exact .refl s
  · exact .fold (fun s number => .move s (i := .answerClose number) trivial) s s.closings

theorem drivenStep (s : Service) (i : Input) (compound : ¬ i.Single) : Driven s (s.step i).1 := by
  cases i with
  | emit stream signals =>
    exact (Driven.move s (i := .arrive stream signals) trivial).trans (drivenWake _ stream)
  | endStream stream => exact (Driven.move s (i := .cut stream) trivial).trans (drivenWake _ stream)
  | permitSends count =>
    change Driven s (s.permitSends count)
    unfold permitSends
    split
    · exact .refl s
    · exact (Driven.move s (i := .grantSends _) trivial).trans (.fold drivenServe _ _)
  | releaseSends => exact (Driven.move s (i := .freeSends) trivial).trans (.fold drivenServe _ _)
  | releaseClose => exact (Driven.move s (i := .freeClose) trivial).trans (drivenSettle _)
  | _ => exact (compound trivial).elim

/-- A run of single moves that passes through every state of the run of `inputs` that starts at `s`. -/
inductive Unwinds : Service → List Input → List Input → Prop where
  | nil (s : Service) : Unwinds s [] []
  | single {s : Service} {i : Input} {rest moves : List Input} (single : i.Single)
      (later : Unwinds (s.step i).1 rest moves) : Unwinds s (i :: rest) (i :: moves)
  | driven {s : Service} {i : Input} {rest first moves : List Input} (compound : ¬ i.Single)
      (drives : ∀ j ∈ first, j.Drives) (reached : (s.step i).1 = s.run first)
      (later : Unwinds (s.step i).1 rest moves) : Unwinds s (i :: rest) (first ++ moves)

theorem unwound (s : Service) (inputs : List Input) : ∃ moves, Unwinds s inputs moves := by
  induction inputs generalizing s with
  | nil => exact ⟨[], .nil s⟩
  | cons i rest ih =>
    obtain ⟨moves, later⟩ := ih (s.step i).1
    by_cases single : i.Single
    · exact ⟨i :: moves, .single single later⟩
    · obtain ⟨first, drives, reached⟩ := drivenStep s i single
      exact ⟨first ++ moves, .driven single drives reached later⟩

theorem Unwinds.singles {s : Service} {inputs moves : List Input} (unwinds : Unwinds s inputs moves) :
    ∀ i ∈ moves, i.Single := by
  induction unwinds with
  | nil => exact nofun
  | single single _ ih => exact List.forall_mem_cons.mpr ⟨single, ih⟩
  | driven _ drives _ _ ih =>
    intro i mem
    exact (List.mem_append.mp mem).elim (fun mem => (drives i mem).single) (ih i)

theorem Unwinds.reaches {s : Service} {inputs moves : List Input} (unwinds : Unwinds s inputs moves) :
    s.run moves = s.run inputs := by
  induction unwinds with
  | nil => rfl
  | single _ _ ih => exact ih
  | driven _ _ reached _ ih => rw [runAppend, ← reached, ih, runCons]

end AccountWatch.Service
