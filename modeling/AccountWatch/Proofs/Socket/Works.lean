import AccountWatch.Proofs.Socket.History

/-! What a link does when it is its turn, as far as its commands are concerned. It leaves them alone, writes or
fails to write the first, obeys a close, finds its channel gone, or goes over with everything still
queued. From that: the commands it is done with are the first ones, each with its own answer. -/
namespace AccountWatch.Socket

def Command.ticket : Command → Nat
  | .text ticket _ | .close ticket => ticket

def Command.closes : Command → Bool
  | .text _ _ => false
  | .close _ => true

def Written.ticket? : Written → Option Nat
  | .text ticket _ => some ticket
  | .close => none

@[simp] theorem abandonedTicket (c : Command) : c.abandoned.ticket = c.ticket := by
  cases c <;> rfl

namespace Link

inductive Works (l : Link) : Link → List Ack → Prop where
  | rests {k : Link} (gone : k.stage = .gone ↔ l.stage = .gone) (attached : k.attached = l.attached)
      (commands : k.commands = l.commands) (written : k.written = l.written) : Works l k []
  | writes {ticket : Nat} {payload : String} {rest : List Command} (live : l.stage ≠ .gone)
      (next : l.commands = .text ticket payload :: rest) :
      Works l { l with commands := rest, written := l.written ++ [.text ticket payload] } [⟨ticket, none⟩]
  | fails {ticket : Nat} {payload : String} {rest : List Command} (fault : String) (live : l.stage ≠ .gone)
      (next : l.commands = .text ticket payload :: rest) :
      Works l { l with commands := rest } [⟨ticket, some (.send fault)⟩]
  | closes {ticket : Nat} {rest : List Command} {last : Signal} (live : l.stage ≠ .gone)
      (next : l.commands = .close ticket :: rest) :
      Works l ({ l with commands := rest, written := l.written ++ [Written.close] }.goOver last).1
        (⟨ticket, none⟩ :: rest.map Command.abandoned)
  | misses {last : Signal} (live : l.stage ≠ .gone) (done : l.commands = []) (unplugged : l.attached = false) :
      Works l ({ l with written := l.written ++ [Written.close] }.goOver last).1 []
  | dies {last : Signal} (live : l.stage ≠ .gone) : Works l (l.goOver last).1 (l.commands.map Command.abandoned)

theorem Works.still (l : Link) : Works l l [] := .rests .rfl rfl rfl rfl

theorem connectedWorks (l : Link) : Works l l.connected.1 l.connected.2 := by
  unfold connected
  split
  · rename_i dialling
    exact .rests (by simp [dialling]) rfl rfl rfl
  · exact .still l
  · exact .still l

theorem refusedWorks (l : Link) (url text : String) :
    Works l (l.refused url text).1 (l.refused url text).2 := by
  unfold refused
  split
  · rename_i dialling
    exact .dies (by simp [dialling])
  · exact .still l
  · exact .still l

theorem obeyWorks (l : Link) (fault : Option String) : Works l (l.obey fault).1 (l.obey fault).2 := by
  unfold obey
  split
  · exact .still l
  · exact .still l
  · rename_i up
    have live : l.stage ≠ .gone := by simp [up]
    split
    · rename_i next
      cases fault with
      | none => exact .writes live next
      | some text => exact .fails text live next
    · rename_i next
      exact .closes live next
    · rename_i done
      split
      · exact .still l
      · rename_i unplugged
        have works : Works l ({ l with written := l.written ++ [Written.close] }.goOver (.closed none)).1 [] :=
          .misses live done (by simpa using unplugged)
        have silent : ({ l with written := l.written ++ [Written.close] }.goOver (.closed none)).2 = [] := by
          simp [goOver, done]
        rwa [← silent] at works

theorem receiveWorks (l : Link) (i : Incoming) : Works l (l.receive i).1 (l.receive i).2 := by
  unfold receive
  split
  · exact .still l
  · exact .still l
  · rename_i up
    have live : l.stage ≠ .gone := by simp [up]
    cases i with
    | text t => exact .rests .rfl rfl rfl rfl
    | other => exact .still l
    | close | broken | finished => exact .dies live

inductive Answers (l : Link) (acks : List Ack) : Command → Prop where
  | written {ticket : Nat} {payload : String} (wrote : .text ticket payload ∈ l.written)
      (told : ⟨ticket, none⟩ ∈ acks) : Answers l acks (.text ticket payload)
  | failed {ticket : Nat} {payload : String} (fault : String) (told : ⟨ticket, some (.send fault)⟩ ∈ acks) :
      Answers l acks (.text ticket payload)
  | closed {ticket : Nat} (told : ⟨ticket, none⟩ ∈ acks) : Answers l acks (.close ticket)
  | overtaken {c : Command} (gone : l.stage = .gone) (unclosed : .close ∉ l.written)
      (told : c.abandoned ∈ acks) : Answers l acks c

theorem Answers.mono {l k : Link} {acks more : List Ack} {c : Command} (answers : l.Answers acks c)
    (written : l.written ⊆ k.written)
    (gone : l.stage = .gone → k.stage = .gone ∧ k.written = l.written) (told : acks ⊆ more) :
    k.Answers more c := by
  cases answers with
  | written wrote ack => exact .written (written wrote) (told ack)
  | failed fault ack => exact .failed fault (told ack)
  | closed ack => exact .closed (told ack)
  | overtaken past unclosed ack =>
    obtain ⟨past, same⟩ := gone past
    exact .overtaken past (same ▸ unclosed) (told ack)

inductive Writes (l k : Link) (acks : List Ack) (done : List Command) : Prop where
  | nothing (written : k.written = l.written)
  | text {ticket : Nat} {payload : String} (first : done = [.text ticket payload])
      (told : ⟨ticket, none⟩ ∈ acks) (written : k.written = l.written ++ [.text ticket payload])
  | close (gone : k.stage = .gone) (unplugged : l.attached = false) (written : k.written = l.written ++ [Written.close])

/-- `done` are the commands that a link's turn settles. -/
structure Settles (l k : Link) (acks : List Ack) (done : List Command) : Prop where
  split : l.commands = done ++ k.commands
  answers : acks.map Ack.ticket = done.map Command.ticket
  fates : ∀ c ∈ done, k.Answers acks c
  writes : Writes l k acks done
  attached : k.attached = l.attached
  past : l.stage = .gone → k.stage = .gone ∧ k.written = l.written
  empties : k.stage = .gone → l.stage ≠ .gone → k.commands = []
  awaits : k.stage ≠ .gone → ∀ ticket, .close ticket ∈ l.commands → .close ticket ∈ k.commands

structure Orderly (l : Link) : Prop where
  last : ∀ front c rest, l.commands = front ++ c :: rest → c.closes → rest = []
  free : l.attached → ∀ c ∈ l.commands, c.closes = false
  unclosed : .close ∈ l.written → l.stage = .gone

theorem abandonedTickets (commands : List Command) :
    (commands.map Command.abandoned).map Ack.ticket = commands.map Command.ticket := by
  rw [List.map_map]
  exact List.map_congr_left fun c _ => abandonedTicket c

theorem Works.settles {l k : Link} {acks : List Ack} (works : Works l k acks) (orderly : l.Orderly) :
    ∃ done, Settles l k acks done := by
  cases works with
  | rests gone attached commands written =>
    exact ⟨[], commands.symm, rfl, nofun, .nothing written, attached,
      fun past => ⟨gone.mpr past, written⟩, fun past live => (live (gone.mp past)).elim,
      fun _ ticket mem => commands ▸ mem⟩
  | @writes ticket payload rest live next =>
    refine ⟨[.text ticket payload], next, rfl, ?_, .text rfl List.mem_cons_self rfl, rfl,
      fun past => (live past).elim, fun past => (live past).elim, ?_⟩
    · intro c mem
      rw [List.mem_singleton.mp mem]
      exact .written (List.mem_append_right _ List.mem_cons_self) List.mem_cons_self
    · intro _ n mem
      simpa [next] using mem
  | @fails ticket payload rest fault live next =>
    refine ⟨[.text ticket payload], next, rfl, ?_, .nothing rfl, rfl, fun past => (live past).elim,
      fun past => (live past).elim, ?_⟩
    · intro c mem
      rw [List.mem_singleton.mp mem]
      exact .failed fault List.mem_cons_self
    · intro _ n mem
      simpa [next] using mem
  | @closes ticket rest last live next =>
    -- nothing is queued behind a close, so that no text is overtaken by it
    obtain rfl : rest = [] := orderly.last [] _ rest next rfl
    have unplugged : l.attached = false := by
      refine Bool.eq_false_iff.mpr fun plugged => ?_
      have free := orderly.free plugged (.close ticket) (next ▸ List.mem_cons_self)
      cases free
    refine ⟨[.close ticket], next, rfl, ?_, .close rfl unplugged rfl, rfl, fun past => (live past).elim,
      fun _ _ => rfl, fun past => (past rfl).elim⟩
    intro c mem
    rw [List.mem_singleton.mp mem]
    exact .closed List.mem_cons_self
  | misses live done unplugged =>
    exact ⟨[], done, rfl, nofun, .close rfl unplugged rfl, rfl, fun past => (live past).elim, fun _ _ => rfl,
      fun past => (past rfl).elim⟩
  | dies live =>
    refine ⟨l.commands, (List.append_nil _).symm, abandonedTickets _, ?_, .nothing rfl, rfl,
      fun past => (live past).elim, fun _ _ => rfl, fun past => (past rfl).elim⟩
    intro c mem
    exact .overtaken rfl (fun closed => live (orderly.unclosed closed)) (List.mem_map_of_mem mem)

end Link
end AccountWatch.Socket
