import AccountWatch.Socket.Basic

/-! Histories of a run: what its moves bring about, one after the other, each seen from the state that it meets.
A member of a history has its origin in one move. What a move does to the list of links is told link by
link, so that no later proof looks into it. -/
namespace AccountWatch.Socket

theorem runAppend (s : Socket) (left right : List Move) : s.run (left ++ right) = (s.run left).run right :=
  List.foldl_append

theorem runConcat (s : Socket) (moves : List Move) (m : Move) : s.run (moves ++ [m]) = (s.run moves).move m :=
  runAppend s moves [m]

def history {α : Type} (brings : Socket → Move → List α) (s : Socket) : List Move → List α
  | [] => []
  | m :: rest => brings s m ++ history brings (s.move m) rest

theorem historyAppend {α : Type} (brings : Socket → Move → List α) (s : Socket) (left right : List Move) :
    history brings s (left ++ right) = history brings s left ++ history brings (s.run left) right := by
  induction left generalizing s with
  | nil => rfl
  | cons m rest ih =>
    change brings s m ++ history brings (s.move m) (rest ++ right) = _
    rw [ih, ← List.append_assoc]
    rfl

theorem historyConcat {α : Type} (brings : Socket → Move → List α) (s : Socket) (moves : List Move) (m : Move) :
    history brings s (moves ++ [m]) = history brings s moves ++ brings (s.run moves) m := by
  rw [historyAppend]
  exact congrArg _ (List.append_nil _)

theorem historyOrigin {α : Type} (brings : Socket → Move → List α) (s : Socket) (moves : List Move) (a : α) :
    a ∈ history brings s moves ↔
      ∃ before m after, moves = before ++ m :: after ∧ a ∈ brings (s.run before) m := by
  constructor
  · intro mem
    induction moves generalizing s with
    | nil => cases mem
    | cons m rest ih =>
      rcases List.mem_append.mp mem with now | later
      · exact ⟨[], m, rest, rfl, now⟩
      · obtain ⟨before, n, after, rfl, brought⟩ := ih (s.move m) later
        exact ⟨m :: before, n, after, rfl, brought⟩
  · rintro ⟨before, m, after, rfl, brought⟩
    rw [historyAppend]
    exact List.mem_append_right _ (List.mem_append_left _ brought)

theorem setCases {links : List Link} {i j : Nat} {k l : Link} (found : (links.set i k)[j]? = some l) :
    (j = i ∧ l = k ∧ i < links.length) ∨ (j ≠ i ∧ links[j]? = some l) := by
  rw [List.getElem?_set] at found
  split at found
  · split at found
    · rename_i same inside
      exact .inl ⟨same.symm, (Option.some.inj found).symm, inside⟩
    · cases found
  · rename_i other
    exact .inr ⟨fun same => other same.symm, found⟩

theorem setSelf {links : List Link} {i : Nat} {l : Link} (there : links[i]? = some l) (k : Link) :
    (links.set i k)[i]? = some k := by
  have inside : i < links.length := (List.getElem?_eq_some_iff.mp there).1
  rw [List.getElem?_set_self inside]

theorem setSame {links : List Link} {i : Nat} {l : Link} (there : links[i]? = some l) : links.set i l = links := by
  obtain ⟨inside, rfl⟩ := List.getElem?_eq_some_iff.mp there
  exact List.set_getElem_self inside

theorem onLinkThere {s : Socket} {i : Nat} {l : Link} (there : s.links[i]? = some l)
    (act : Link → Link × List Ack) :
    s.onLink i act = { s with links := s.links.set i (act l).1, acks := s.acks ++ (act l).2 } := by
  unfold onLink
  rw [there]
  rfl

theorem onLinkAbsent {s : Socket} {i : Nat} (absent : s.links[i]? = none) (act : Link → Link × List Ack) :
    s.onLink i act = s := by
  unfold onLink
  rw [absent]

theorem onLinkApart (s : Socket) {i j : Nat} (other : j ≠ i) (act : Link → Link × List Ack) :
    (s.onLink j act).links[i]? = s.links[i]? := by
  cases there : s.links[j]? with
  | none => rw [onLinkAbsent there]
  | some l =>
    rw [onLinkThere there]
    exact List.getElem?_set_ne other

theorem onLinkKeeps {s : Socket} {i : Nat} {l : Link} (there : s.links[i]? = some l) (j : Nat)
    {act : Link → Link × List Ack} {keeps : Link → Link → Prop} (same : keeps l l) (turned : keeps l (act l).1) :
    ∃ k, (s.onLink j act).links[i]? = some k ∧ keeps l k := by
  by_cases own : j = i
  · subst own
    rw [onLinkThere there]
    exact ⟨_, setSelf there _, turned⟩
  · exact ⟨l, (onLinkApart s own act).trans there, same⟩

theorem onLinkLength (s : Socket) (i : Nat) (act : Link → Link × List Ack) :
    (s.onLink i act).links.length = s.links.length := by
  cases there : s.links[i]? with
  | none => rw [onLinkAbsent there]
  | some l => rw [onLinkThere there, List.length_set]

theorem detachLength (s : Socket) : s.detach.links.length = s.links.length := by
  unfold detach
  split
  · rfl
  · exact onLinkLength { s with current := none } _ _

theorem commandLength (s : Socket) (c : Command) : (s.command c).links.length = s.links.length := by
  unfold command
  split
  · rfl
  · exact onLinkLength s _ _

theorem moveLength (s : Socket) (m : Move) : (s.move m).links.length = s.links.length + [m].count .openUp := by
  cases m with
  | openUp => exact (List.length_append ..).trans (congrArg (· + 1) (detachLength s))
  | send payload => exact commandLength { s with tickets := s.tickets + 1 } _
  | close => exact (detachLength _).trans (commandLength { s with tickets := s.tickets + 1 } _)
  | connected | refused | obey | receive => exact onLinkLength _ _ _

theorem runLength (s : Socket) (moves : List Move) :
    (s.run moves).links.length = s.links.length + moves.count .openUp := by
  induction moves generalizing s with
  | nil => rfl
  | cons m rest ih =>
    have split : (m :: rest).count Move.openUp = [m].count .openUp + rest.count .openUp := by
      rw [← List.count_append]
      rfl
    rw [split, ← Nat.add_assoc, ← moveLength]
    exact ih (s.move m)

theorem newLink {s : Socket} {i : Nat} {k : Link} {m : Move} (absent : s.links[i]? = none)
    (found : (s.move m).links[i]? = some k) : k = .start := by
  have beyond : s.links.length ≤ i := List.getElem?_eq_none_iff.mp absent
  have length := moveLength s m
  have inside : i < (s.move m).links.length := (List.getElem?_eq_some_iff.mp found).1
  cases m with
  | openUp =>
    change (s.detach.links ++ [.start])[i]? = some k at found
    rw [List.getElem?_append_right (by rwa [detachLength]), List.getElem?_singleton] at found
    split at found
    · exact (Option.some.inj found).symm
    · cases found
  | send | close | connected | refused | obey | receive =>
    simp only [List.count_singleton] at length
    simp at length
    omega

theorem onLinkUrl (s : Socket) (i : Nat) (act : Link → Link × List Ack) : (s.onLink i act).url = s.url := by
  cases there : s.links[i]? with
  | none => rw [onLinkAbsent there]
  | some l => rw [onLinkThere there]

theorem detachUrl (s : Socket) : s.detach.url = s.url := by
  unfold detach
  split
  · rfl
  · exact onLinkUrl { s with current := none } _ _

theorem commandUrl (s : Socket) (c : Command) : (s.command c).url = s.url := by
  unfold command
  split
  · rfl
  · exact onLinkUrl s _ _

theorem runUrl (s : Socket) (moves : List Move) : (s.run moves).url = s.url := by
  induction moves generalizing s with
  | nil => rfl
  | cons m rest ih =>
    refine (ih (s.move m)).trans ?_
    cases m with
    | openUp => exact detachUrl s
    | send payload => exact commandUrl { s with tickets := s.tickets + 1 } _
    | close => exact (detachUrl _).trans (commandUrl { s with tickets := s.tickets + 1 } _)
    | connected | refused | obey | receive => exact onLinkUrl _ _ _

end AccountWatch.Socket
