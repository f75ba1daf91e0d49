import AccountWatch.Recorder

/-! Runs of the recording transport. It keeps every payload in order, also one whose sending fails. A reader gets what
was put into the stream that was opened last, in order and once each; what is put in while there is no stream is
lost, and so is what nobody read before the next opening. -/
namespace AccountWatch.Recorder

inductive Move where
  | connect
  | send (payload : String)
  | close
  | emit (signal : Signal)
  | poll
  | dropStream
  deriving DecidableEq, Repr

def Move.payload? : Move → Option String
  | .send payload => some payload
  | .connect | .close | .emit _ | .poll | .dropStream => none

def move (r : Recorder) : Move → Recorder
  | .connect => r.connect.1
  | .send payload => (r.send payload).1
  | .close => r.close
  | .emit signal => (r.emit signal).1
  | .poll => r.poll.1
  | .dropStream => r.dropStream

def run (r : Recorder) (moves : List Move) : Recorder := moves.foldl move r

structure Tape where
  put : List Signal
  taken : List Signal
  deriving DecidableEq, Repr

def Tape.follow (t : Tape) (r : Recorder) : Move → Tape
  | .connect => if r.refusing then t else ⟨[], []⟩
  | .emit signal => if r.stream.isSome then { t with put := t.put ++ [signal] } else t
  | .poll =>
      match r.poll.2 with
      | .signal signal => { t with taken := t.taken ++ [signal] }
      | .pending | .absent => t
  | .send _ | .close | .dropStream => t

def tape (r : Recorder) (t : Tape) : List Move → Tape
  | [] => t
  | m :: rest => tape (r.move m) (t.follow r m) rest

/- The script never changes, and without a stream there is nothing to account for. -/
structure Keeps (first r : Recorder) (t : Tape) : Prop where
  refusing : r.refusing = first.refusing
  needles : r.needles = first.needles
  stream : ∀ queue ∈ r.stream, t.put = t.taken ++ queue

theorem Keeps.move {first r : Recorder} {t : Tape} (keeps : Keeps first r t) (m : Move) :
    Keeps first (r.move m) (t.follow r m) := by
  obtain ⟨refuses, _, _, held, _, _⟩ := r
  obtain ⟨refusing, needles, stream⟩ := keeps
  cases m with
  | send | close => exact ⟨refusing, needles, stream⟩
  | dropStream => exact ⟨refusing, needles, nofun⟩
  | connect =>
    cases refuses with
    | true => exact ⟨refusing, needles, stream⟩
    | false => exact ⟨refusing, needles, fun queue fresh => by cases fresh; rfl⟩
  | emit signal =>
    cases held with
    | none => exact ⟨refusing, needles, stream⟩
    | some queue =>
      refine ⟨refusing, needles, fun longer grown => ?_⟩
      cases grown
      change t.put ++ [signal] = t.taken ++ (queue ++ [signal])
      rw [stream queue rfl, List.append_assoc]
  | poll =>
    rcases held with _ | _ | ⟨signal, rest⟩
    · exact ⟨refusing, needles, stream⟩
    · exact ⟨refusing, needles, stream⟩
    · refine ⟨refusing, needles, fun shorter left => ?_⟩
      cases left
      change t.put = t.taken ++ [signal] ++ rest
      rw [stream _ rfl, List.append_assoc, List.singleton_append]

theorem Keeps.run {first r : Recorder} {t : Tape} (keeps : Keeps first r t) (moves : List Move) :
    Keeps first (r.run moves) (r.tape t moves) := by
  induction moves generalizing r t with
  | nil => exact keeps
  | cons m rest ih => exact ih (keeps.move m)

theorem moveSent (r : Recorder) (m : Move) : (r.move m).sent = r.sent ++ m.payload?.toList := by
  obtain ⟨refuses, _, _, held, _, _⟩ := r
  cases m with
  | send payload => rfl
  | close | dropStream => exact (List.append_nil _).symm
  | connect => cases refuses <;> exact (List.append_nil _).symm
  | emit signal => cases held <;> exact (List.append_nil _).symm
  | poll => rcases held with _ | _ | _ <;> exact (List.append_nil _).symm

theorem runSent (r : Recorder) (moves : List Move) :
    (r.run moves).sent = r.sent ++ moves.filterMap Move.payload? := by
  induction moves generalizing r with
  | nil => exact (List.append_nil _).symm
  | cons m rest ih =>
    change ((r.move m).run rest).sent = _
    rw [ih, moveSent, List.append_assoc, List.filterMap_cons]
    cases m.payload? <;> rfl

theorem recorded (refusing : Bool) (needles : List String) (moves : List Move) :
    let first := start refusing needles
    let r := first.run moves
    let t := first.tape ⟨[], []⟩ moves
    r.sent = moves.filterMap Move.payload? ∧ (∀ queue, r.stream = some queue → t.put = t.taken ++ queue) ∧
      ∀ payload, (r.send payload).2.isSome ↔
        ∃ needle ∈ needles, Text.occurs needle.toList payload.toList := by
  intro first r t
  have began : Keeps first first ⟨[], []⟩ := ⟨rfl, rfl, fun queue none => by cases none⟩
  have keeps : Keeps first r t := began.run moves
  refine ⟨runSent first moves, keeps.stream, fun payload => ?_⟩
  have script : r.needles = needles := keeps.needles
  unfold send
  dsimp only
  rw [script, ← List.any_eq_true]
  cases needles.any fun needle => Text.occurs needle.toList payload.toList <;> simp

end AccountWatch.Recorder
