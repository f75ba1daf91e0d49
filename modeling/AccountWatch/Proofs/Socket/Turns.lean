import AccountWatch.Proofs.Socket.Calls

/-! How long a call can wait. A command among the first `n` of a link that is up is answered by the time the link
has had `n` turns, whatever else happens meanwhile. Nothing takes an answer back. -/
namespace AccountWatch.Socket

def Move.link? : Move → Option Nat
  | .connected i | .refused i _ | .obey i _ | .receive i _ => some i
  | .openUp | .send _ | .close => none

def Move.obeys (i : Nat) : Move → Bool
  | .obey j _ => j = i
  | .openUp | .send _ | .close | .connected _ | .refused _ _ | .receive _ _ => false

namespace Link

structure Holds (l : Link) (c : Command) (n : Nat) : Prop where
  up : l.stage = .up
  near : c ∈ l.commands.take n

theorem Holds.queued {l : Link} {c : Command} {n : Nat} (holds : l.Holds c n) : c ∈ l.commands :=
  List.mem_of_mem_take holds.near

theorem overAnswers {l : Link} {c : Command} (queued : c ∈ l.commands) (last : Signal) :
    c.ticket ∈ (l.goOver last).2.map Ack.ticket := by
  rw [goOver, abandonedTickets]
  exact List.mem_map_of_mem queued

theorem Holds.receive {l : Link} {c : Command} {n : Nat} (holds : l.Holds c n) (i : Incoming) :
    (l.receive i).1.Holds c n ∨ c.ticket ∈ (l.receive i).2.map Ack.ticket := by
  unfold Link.receive
  split
  · exact .inl holds
  · exact .inl holds
  · cases i with
    | text => exact .inl ⟨holds.up, holds.near⟩
    | other => exact .inl holds
    | close | broken | finished => exact .inr (overAnswers holds.queued _)

theorem Holds.obey {l : Link} {c : Command} {n : Nat} (holds : l.Holds c (n + 1)) (fault : Option String) :
    (l.obey fault).1.Holds c n ∨ c.ticket ∈ (l.obey fault).2.map Ack.ticket := by
  have up := holds.up
  have near := holds.near
  unfold Link.obey
  split
  · rename_i dialling
    simp [dialling] at up
  · rename_i gone
    simp [gone] at up
  · split
    · rename_i next
      rw [next, List.take_succ_cons] at near
      rcases List.mem_cons.mp near with rfl | later
      · cases fault <;> exact .inr List.mem_cons_self
      · cases fault <;> exact .inl ⟨up, later⟩
    · rename_i next
      rw [next, List.take_succ_cons] at near
      rcases List.mem_cons.mp near with rfl | later
      · exact .inr List.mem_cons_self
      · have answered := overAnswers (l := { l with commands := _ }) (List.mem_of_mem_take later) (.closed closedByClient)
        exact .inr (List.mem_cons_of_mem _ answered)
    · rename_i done
      rw [done] at near
      cases near

theorem Holds.connected {l : Link} {c : Command} {n : Nat} (holds : l.Holds c n) : l.connected.1.Holds c n := by
  unfold Link.connected
  split
  · rename_i dialling
    simp [holds.up] at dialling
  · exact holds
  · exact holds

theorem Holds.refused {l : Link} {c : Command} {n : Nat} (holds : l.Holds c n) (url text : String) :
    (l.refused url text).1.Holds c n := by
  unfold Link.refused
  split
  · rename_i dialling
    simp [holds.up] at dialling
  · exact holds
  · exact holds

theorem Holds.grow {l k : Link} {c : Command} {n : Nat} (holds : l.Holds c n) (grows : l.Grows k) : k.Holds c n := by
  refine ⟨grows.stage.trans holds.up, ?_⟩
  obtain ⟨more, same⟩ := grows.commands
  rw [← same, List.take_append]
  exact List.mem_append_left _ holds.near

end Link

section
variable {s : Socket} {i : Nat} {l : Link}

theorem detachGrows (there : s.links[i]? = some l) : ∃ k, s.detach.links[i]? = some k ∧ l.Grows k := by
  unfold detach
  split
  · exact ⟨l, there, .refl l⟩
  · exact onLinkKeeps (s := { s with current := none }) there _ (.refl l) ⟨List.prefix_rfl, rfl, rfl, rfl⟩

theorem commandGrows (there : s.links[i]? = some l) (c : Command) :
    ∃ k, (s.command c).links[i]? = some k ∧ l.Grows k := by
  unfold command
  split
  · exact ⟨l, there, .refl l⟩
  · refine onLinkKeeps there _ (.refl l) ?_
    unfold enqueue
    split
    · exact .refl l
    · exact ⟨List.prefix_append _ _, rfl, rfl, rfl⟩
    · exact ⟨List.prefix_append _ _, rfl, rfl, rfl⟩

theorem callGrows {m : Move} (call : m.link? = none) (there : s.links[i]? = some l) :
    ∃ k, (s.move m).links[i]? = some k ∧ l.Grows k := by
  cases m with
  | openUp =>
    obtain ⟨k, found, grows⟩ := detachGrows there
    have inside : i < s.detach.links.length := (List.getElem?_eq_some_iff.mp found).1
    exact ⟨k, (List.getElem?_append_left inside).trans found, grows⟩
  | send payload => exact commandGrows (s := { s with tickets := s.tickets + 1 }) there _
  | close =>
    obtain ⟨k, found, grows⟩ := commandGrows (s := { s with tickets := s.tickets + 1 }) there (.close s.tickets)
    obtain ⟨m, last, more⟩ := detachGrows found
    exact ⟨m, last, grows.trans more⟩
  | connected | refused | obey | receive => cases call

end

theorem onLinkAcks (s : Socket) (i : Nat) (act : Link → Link × List Ack) : s.acks ⊆ (s.onLink i act).acks := by
  cases there : s.links[i]? with
  | none => rw [onLinkAbsent there]; exact List.Subset.refl _
  | some l => rw [onLinkThere there]; exact List.subset_append_left _ _

theorem detachAcks (s : Socket) : s.acks ⊆ s.detach.acks := by
  unfold detach
  split
  · exact List.Subset.refl _
  · exact onLinkAcks { s with current := none } _ _

theorem commandAcks (s : Socket) (c : Command) : s.acks ⊆ (s.command c).acks := by
  unfold command
  split
  · exact List.subset_append_left _ _
  · exact onLinkAcks _ _ _

theorem moveAcks (s : Socket) (m : Move) : s.acks ⊆ (s.move m).acks := by
  cases m with
  | openUp => exact detachAcks s
  | send payload => exact commandAcks { s with tickets := s.tickets + 1 } _
  | close => exact List.Subset.trans (commandAcks { s with tickets := s.tickets + 1 } _) (detachAcks _)
  | connected | refused | obey | receive => exact onLinkAcks _ _ _

theorem runAcks (s : Socket) (moves : List Move) : s.acks ⊆ (s.run moves).acks := by
  induction moves generalizing s with
  | nil => exact List.Subset.refl _
  | cons m rest ih => exact List.Subset.trans (moveAcks s m) (ih (s.move m))

def Holds (s : Socket) (i : Nat) (c : Command) (n : Nat) : Prop :=
  ∃ l, s.links[i]? = some l ∧ l.Holds c n

section
variable {s : Socket} {i n : Nat} {c : Command} {act : Link → Link × List Ack}

theorem Holds.turn {k : Nat} (holds : s.Holds i c n)
    (own : ∀ l : Link, l.Holds c n → (act l).1.Holds c k ∨ c.ticket ∈ (act l).2.map Ack.ticket) :
    (s.onLink i act).Holds i c k ∨ c.ticket ∈ (s.onLink i act).acks.map Ack.ticket := by
  obtain ⟨l, there, held⟩ := holds
  rw [onLinkThere there, List.map_append]
  rcases own l held with still | told
  · exact .inl ⟨_, setSelf there _, still⟩
  · exact .inr (List.mem_append_right _ told)

theorem Holds.apart {j : Nat} (holds : s.Holds i c n) (other : j ≠ i) : (s.onLink j act).Holds i c n := by
  obtain ⟨l, there, held⟩ := holds
  exact ⟨l, (onLinkApart s other act).trans there, held⟩

theorem Holds.passes (holds : s.Holds i c n) (j : Nat)
    (own : ∀ l : Link, l.Holds c n → (act l).1.Holds c n ∨ c.ticket ∈ (act l).2.map Ack.ticket) :
    (s.onLink j act).Holds i c n ∨ c.ticket ∈ (s.onLink j act).acks.map Ack.ticket := by
  by_cases same : j = i
  · subst same
    exact holds.turn own
  · exact .inl (holds.apart same)

theorem Holds.call {m : Move} (holds : s.Holds i c n) (call : m.link? = none) : (s.move m).Holds i c n := by
  obtain ⟨l, there, held⟩ := holds
  obtain ⟨k, found, grows⟩ := callGrows call there
  exact ⟨k, found, held.grow grows⟩

theorem Holds.move {m : Move} (holds : s.Holds i c (n + if m.obeys i then 1 else 0)) :
    (s.move m).Holds i c n ∨ c.ticket ∈ (s.move m).acks.map Ack.ticket := by
  cases m with
  | openUp | send | close => exact .inl (Holds.call holds rfl)
  | connected j => exact Holds.passes holds j fun l held => .inl held.connected
  | refused j text => exact Holds.passes holds j fun l held => .inl (held.refused s.url text)
  | receive j incoming => exact Holds.passes holds j fun l held => held.receive incoming
  | obey j fault =>
    by_cases own : j = i
    · subst own
      have first : s.Holds j c (n + 1) := by simpa [Move.obeys] using holds
      exact first.turn fun l held => held.obey fault
    · have still : s.Holds i c n := by simpa [Move.obeys, own] using holds
      exact .inl (still.apart own)

theorem Holds.run {moves : List Move} (holds : s.Holds i c (moves.countP (Move.obeys i))) :
    c.ticket ∈ (s.run moves).acks.map Ack.ticket := by
  induction moves generalizing s with
  | nil =>
    obtain ⟨l, _, held⟩ := holds
    cases held.near
  | cons m rest ih =>
    rw [List.countP_cons] at holds
    rcases holds.move with still | told
    · exact ih still
    · exact List.map_subset _ (runAcks (s.move m) rest) told

end
end AccountWatch.Socket
