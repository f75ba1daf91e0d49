import AccountWatch.Proofs.Socket.Ledger

/-! Openings and calls, as equations between the links before and after, and the ledger over whole runs: every
call is booked when it is made, and no move loses or answers one twice. -/
namespace AccountWatch.Socket

section
variable {s t : Socket} {calls : List Call} {replaced : List Nat}

def Link.unplug (cut : Bool) (l : Link) : Link := { l with attached := l.attached && !cut }

@[simp] theorem unplugFalse : Link.unplug false = id := by
  funext l
  simp [Link.unplug]

theorem Wired.there (wired : s.Wired) {i : Nat} (current : s.current = some i) :
    ∃ l, s.links[i]? = some l := by
  have last := wired.latest i current
  exact ⟨s.links[i], List.getElem?_eq_getElem (by omega)⟩

theorem Wired.detached (wired : s.Wired) :
    s.detach = { s with current := none, links := s.links.map (Link.unplug true) } := by
  have loose {j : Nat} {l : Link} (there : s.links[j]? = some l) (other : s.current ≠ some j) :
      l.unplug true = l := by
    have off : l.attached = false := Bool.eq_false_iff.mpr fun on => other ((wired.attached j l there).mp on)
    simp [Link.unplug, ← off]
  unfold detach
  split
  · rename_i none
    have same : s.links.map (Link.unplug true) = s.links := by
      refine List.ext_getElem? fun j => ?_
      rw [List.getElem?_map]
      cases there : s.links[j]? with
      | none => rfl
      | some l => exact congrArg some (loose there (by simp [none]))
    rw [same, ← none]
  · rename_i i current
    obtain ⟨l, there⟩ := wired.there current
    have cut : s.links.set i { l with attached := false } = s.links.map (Link.unplug true) := by
      refine List.ext_getElem? fun j => ?_
      rw [List.getElem?_map]
      by_cases own : j = i
      · subst own
        rw [setSelf there, there]
        simp [Link.unplug]
      · rw [List.getElem?_set_ne (Ne.symm own)]
        cases found : s.links[j]? with
        | none => rfl
        | some m =>
          have other : s.current ≠ some j := fun same => own (Option.some.inj (same.symm.trans current))
          exact (congrArg some (loose found other)).symm
    rw [onLinkThere (s := { s with current := none }) there]
    dsimp only
    rw [cut, List.append_nil]

inductive Called (s : Socket) (c : Command) : Socket → Prop where
  | queued {i : Nat} {l : Link} (current : s.current = some i) (there : s.links[i]? = some l)
      (live : l.stage ≠ .gone) :
      Called s c { s with
        tickets := s.tickets + 1
        current := if c.closes then none else s.current
        links := (s.links.set i { l with commands := l.commands ++ [c] }).map (Link.unplug c.closes) }
  | abandoned (dead : ∀ i (l : Link), s.current = some i → s.links[i]? = some l → l.stage = .gone) :
      Called s c { s with
        tickets := s.tickets + 1
        current := if c.closes then none else s.current
        links := s.links.map (Link.unplug c.closes)
        acks := s.acks ++ [c.abandoned] }

theorem Wired.commanded (wired : s.Wired) (c : Command) :
    (∃ i l, s.current = some i ∧ s.links[i]? = some l ∧ l.stage ≠ .gone ∧
      s.command c = { s with links := s.links.set i { l with commands := l.commands ++ [c] } }) ∨
    ((∀ i (l : Link), s.current = some i → s.links[i]? = some l → l.stage = .gone) ∧
      s.command c = { s with acks := s.acks ++ [c.abandoned] }) := by
  unfold command
  split
  · rename_i none
    exact .inr ⟨by simp [none], rfl⟩
  · rename_i i current
    obtain ⟨l, there⟩ := wired.there current
    rw [onLinkThere there]
    unfold enqueue
    split
    · rename_i gone
      refine .inr ⟨?_, ?_⟩
      · intro j m own found
        obtain rfl : i = j := Option.some.inj (current.symm.trans own)
        exact Option.some.inj (there.symm.trans found) ▸ gone
      · rw [setSame there]
    · rename_i dialling
      exact .inl ⟨i, l, current, there, by simp [dialling], by rw [List.append_nil]⟩
    · rename_i up
      exact .inl ⟨i, l, current, there, by simp [up], by rw [List.append_nil]⟩

theorem Wired.queue (wired : s.Wired) {i : Nat} {l : Link} (there : s.links[i]? = some l) (c : Command) :
    Wired { s with links := s.links.set i { l with commands := l.commands ++ [c] } } := by
  refine ⟨by simpa using wired.latest, ?_⟩
  intro j m found
  rcases setCases found with ⟨rfl, rfl, _⟩ | ⟨_, found⟩
  · exact wired.attached j l there
  · exact wired.attached j m found

theorem Wired.sends (wired : s.Wired) (payload : String) :
    Called s (.text s.tickets payload) (s.send payload) := by
  have next : Wired { s with tickets := s.tickets + 1 } := ⟨wired.latest, wired.attached⟩
  unfold send
  rcases next.commanded (.text s.tickets payload) with ⟨i, l, current, there, live, same⟩ | ⟨dead, same⟩
  · have queued : Called s (.text s.tickets payload) _ := .queued current there live
    simpa [same, Command.closes] using queued
  · have abandoned : Called s (.text s.tickets payload) _ := .abandoned dead
    simpa [same, Command.closes] using abandoned

theorem Wired.closes (wired : s.Wired) : Called s (.close s.tickets) s.close := by
  have next : Wired { s with tickets := s.tickets + 1 } := ⟨wired.latest, wired.attached⟩
  unfold close
  rcases next.commanded (.close s.tickets) with ⟨i, l, current, there, live, same⟩ | ⟨dead, same⟩
  · rw [same, (next.queue there _).detached]
    exact .queued current there live
  · have told : Wired { s with tickets := s.tickets + 1, acks := s.acks ++ [(Command.close s.tickets).abandoned] } :=
      ⟨wired.latest, wired.attached⟩
    rw [same, told.detached]
    exact .abandoned dead

theorem Wired.opens (wired : s.Wired) : s.openUp = { s with
    links := s.links.map (Link.unplug true) ++ [.start]
    current := some s.links.length } := by
  unfold openUp
  rw [wired.detached]
  simp

theorem Link.Orderly.unplug {l : Link} (orderly : l.Orderly) (cut : Bool) : (l.unplug cut).Orderly where
  last := orderly.last
  free := fun plugged => orderly.free ((Bool.and_eq_true_iff.mp plugged).1)
  unclosed := orderly.unclosed

theorem Link.Booked.unplug {l : Link} {i : Nat} {acks : List Ack} {more : List Call} {others : List Nat}
    (booked : l.Booked i calls replaced acks) (cut : Bool) (asked : calls ⊆ more) (lost : replaced ⊆ others)
    (loses : cut → l.stage ≠ .gone → l.attached → i ∈ others) : (l.unplug cut).Booked i more others acks := by
  refine { booked.toOrderly.unplug cut with
    queued := fun c mem => ⟨asked (booked.queued c mem).1, (booked.queued c mem).2⟩
    written := fun n p wrote => ⟨asked (booked.written n p wrote).1, (booked.written n p wrote).2⟩
    ordered := booked.ordered
    empty := booked.empty
    unplugged := ?_
    shut := ?_
    final := booked.final }
  · intro live off
    by_cases plugged : l.attached
    · have cutting : cut := by simpa [Link.unplug, plugged] using off
      exact .inr (loses cutting live plugged)
    · exact (booked.unplugged live (by simpa using plugged)).imp_right fun mem => lost mem
  · intro closed
    have off : l.attached = false := booked.shut closed
    simp [Link.unplug, off]

structure Link.Grows (l k : Link) : Prop where
  commands : l.commands <+: k.commands
  written : k.written = l.written
  stage : k.stage = l.stage
  signals : k.signals = l.signals

theorem Link.Grows.refl (l : Link) : l.Grows l := ⟨List.prefix_rfl, rfl, rfl, rfl⟩

theorem Link.Grows.trans {l k m : Link} (first : l.Grows k) (second : k.Grows m) : l.Grows m where
  commands := first.commands.trans second.commands
  written := second.written.trans first.written
  stage := second.stage.trans first.stage
  signals := second.signals.trans first.signals

theorem Stands.grow {links others : List Link} {acks more : List Ack} {c : Call} (stands : Stands links acks c)
    (grows : ∀ (i : Nat) (l : Link), links[i]? = some l → ∃ k, others[i]? = some k ∧ l.Grows k)
    (told : acks ⊆ more) : Stands others more c := by
  cases stands with
  | waits there queued =>
    obtain ⟨k, found, grow⟩ := grows _ _ there
    exact .waits found (grow.commands.subset queued)
  | answered there answers =>
    obtain ⟨k, found, grow⟩ := grows _ _ there
    exact .answered found (answers.mono (grow.written ▸ List.Subset.refl _)
      (fun gone => ⟨grow.stage.trans gone, grow.written⟩) told)
  | unheard ack => exact .unheard (told ack)

theorem Wired.unplugged (wired : s.Wired) {j : Nat} {l : Link} (found : s.links[j]? = some l) (cut : Bool) :
    (l.unplug cut).attached = true ↔ (if cut then none else s.current) = some j := by
  have own := wired.attached j l found
  cases cut with
  | false => simpa [Link.unplug] using own
  | true => simp [Link.unplug]

theorem startBooked (i : Nat) (calls : List Call) (replaced : List Nat) (acks : List Ack) :
    Link.start.Booked i calls replaced acks where
  last := by simp [Link.start]
  free := nofun
  unclosed := nofun
  queued := nofun
  written := nofun
  ordered := .nil
  empty := nofun
  unplugged := nofun
  shut := nofun
  final := by simp [Link.start]

theorem unpluggedLinks {links : List Link} {cut : Bool} {j : Nat} {k : Link}
    (found : (links.map (Link.unplug cut))[j]? = some k) : ∃ l, links[j]? = some l ∧ k = l.unplug cut := by
  rw [List.getElem?_map] at found
  obtain ⟨l, there, rfl⟩ := Option.map_eq_some_iff.mp found
  exact ⟨l, there, rfl⟩

theorem openedLinks {links : List Link} {j : Nat} {k : Link}
    (found : (links.map (Link.unplug true) ++ [Link.start])[j]? = some k) :
    (j = links.length ∧ k = .start) ∨ ∃ l, links[j]? = some l ∧ k = l.unplug true := by
  rw [List.getElem?_append, List.length_map] at found
  split at found
  · exact .inr (unpluggedLinks found)
  · rw [List.getElem?_singleton] at found
    split at found
    · exact .inl ⟨by omega, (Option.some.inj found).symm⟩
    · cases found

theorem Ledger.opens (ledger : Ledger s calls replaced) :
    Ledger s.openUp calls (replaced ++ s.current.toList) := by
  rw [ledger.toWired.opens]
  refine ⟨⟨?_, ?_⟩, ledger.numbered, ledger.once, ledger.known, ?_, ?_⟩
  · intro i current
    obtain rfl : s.links.length = i := Option.some.inj current
    simp
  · intro j k found
    rcases openedLinks found with ⟨rfl, rfl⟩ | ⟨l, there, rfl⟩
    · simp [Link.start]
    · have inside : j < s.links.length := (List.getElem?_eq_some_iff.mp there).1
      have other : s.links.length ≠ j := by omega
      simp [Link.unplug, other]
  · intro c mem
    refine (ledger.stands c mem).grow (fun j l there => ⟨l.unplug true, ?_, ?_⟩) (List.Subset.refl _)
    · have inside : j < s.links.length := (List.getElem?_eq_some_iff.mp there).1
      rw [List.getElem?_append_left (by simpa using inside), List.getElem?_map, there]
      rfl
    · exact ⟨List.prefix_rfl, rfl, rfl, rfl⟩
  · intro j k found
    rcases openedLinks found with ⟨rfl, rfl⟩ | ⟨l, there, rfl⟩
    · exact startBooked _ _ _ _
    · refine (ledger.booked j l there).unplug true (List.Subset.refl _) (List.subset_append_left _ _) ?_
      intro _ _ plugged
      have current : s.current = some j := (ledger.attached j l there).mp plugged
      exact List.mem_append_right _ (by simp [current])

theorem Link.Booked.queues {l : Link} {i n : Nat} {c : Command} {acks : List Ack}
    (booked : l.Booked i calls replaced acks) (plugged : l.attached = true) (live : l.stage ≠ .gone)
    (known : ∀ d ∈ calls, d.ticket < n) (told : ∀ a ∈ acks, a.ticket < n) (own : c.ticket = n) :
    ({ l with commands := l.commands ++ [c] }.unplug c.closes).Booked i (calls ++ [Call.mk c (some i)])
      replaced acks := by
  have free := booked.free plugged
  refine {
    last := ?_
    free := ?_
    unclosed := booked.unclosed
    queued := ?_
    written := ?_
    ordered := ?_
    empty := fun gone => (live gone).elim
    unplugged := ?_
    shut := ?_
    final := booked.final }
  · intro front d rest split closes
    rcases List.eq_nil_or_concat rest with none | ⟨before, last, rfl⟩
    · exact none
    · -- only texts were queued before, as long as the link was attached
      have same : l.commands ++ [c] = (front ++ d :: before) ++ [last] := by
        simpa [Link.unplug] using split
      have mem : d ∈ l.commands := by
        rw [(List.append_inj' same rfl).1]
        exact List.mem_append_right _ List.mem_cons_self
      rw [free d mem] at closes
      cases closes
  · intro still d mem
    rcases List.mem_append.mp mem with old | new
    · exact free d old
    · rw [List.mem_singleton.mp new]
      simpa [Link.unplug, plugged] using still
  · intro d mem
    rcases List.mem_append.mp mem with old | new
    · exact ⟨List.mem_append_left _ (booked.queued d old).1, (booked.queued d old).2⟩
    · rw [List.mem_singleton.mp new]
      refine ⟨List.mem_append_right _ List.mem_cons_self, fun mem => ?_⟩
      obtain ⟨a, ack, same⟩ := List.mem_map.mp mem
      have below := told a ack
      omega
  · intro ticket payload wrote
    obtain ⟨asked, ack⟩ := booked.written ticket payload wrote
    exact ⟨List.mem_append_left _ asked, ack⟩
  · change (l.written.filterMap Written.ticket? ++ (l.commands ++ [c]).map Command.ticket).Pairwise (· < ·)
    rw [List.map_append, ← List.append_assoc, List.pairwise_append]
    refine ⟨booked.ordered, List.pairwise_singleton _ _, ?_⟩
    intro ticket mem last new
    obtain rfl : last = c.ticket := by simpa using new
    rw [own]
    rcases List.mem_append.mp mem with old | waits
    · obtain ⟨w, wrote, same⟩ := List.mem_filterMap.mp old
      cases w with
      | text m payload =>
        obtain rfl : m = ticket := Option.some.inj same
        exact known _ (booked.written m payload wrote).1
      | close => cases same
    · obtain ⟨d, queued, rfl⟩ := List.mem_map.mp waits
      exact known _ (booked.queued d queued).1
  · intro _ off
    cases c with
    | text ticket payload => simp [Link.unplug, plugged, Command.closes] at off
    | close ticket => exact .inl ⟨ticket, List.mem_append_right _ List.mem_cons_self⟩
  · intro closed
    have off : l.attached = false := booked.shut closed
    rw [plugged] at off
    cases off

theorem Ledger.numberedNext (ledger : Ledger s calls replaced) {c : Command} (own : c.ticket = s.tickets) :
    (calls ++ [Call.mk c s.current]).map Call.ticket = List.range (s.tickets + 1) := by
  have last : [Call.mk c s.current].map Call.ticket = [s.tickets] := congrArg (· :: []) own
  rw [List.map_append, ledger.numbered, last, List.range_succ]

theorem Wired.latestNext (wired : s.Wired) (c : Command) :
    ∀ i, (if c.closes then none else s.current) = some i → i + 1 = s.links.length := by
  intro i current
  cases closes : c.closes with
  | false => exact wired.latest i (by simpa [closes] using current)
  | true => simp [closes] at current

theorem Ledger.called (ledger : Ledger s calls replaced) {c : Command} (called : Called s c t)
    (own : c.ticket = s.tickets) : Ledger t (calls ++ [⟨c, s.current⟩]) replaced := by
  have numbered := ledger.numberedNext own
  have latest := ledger.latestNext c
  have below : ∀ a ∈ s.acks, a.ticket < s.tickets + 1 := fun a mem => Nat.lt_succ_of_lt (ledger.known a mem)
  have asked : calls ⊆ calls ++ [Call.mk c s.current] := List.subset_append_left _ _
  cases called with
  | @queued i l current there live =>
    have plugged : l.attached = true := (ledger.attached i l there).mpr current
    have wired := ledger.toWired.queue there c
    let queue : Link := { l with commands := l.commands ++ [c] }
    have self : (s.links.set i queue)[i]? = some queue := setSelf there queue
    have grows (j : Nat) (m : Link) (found : s.links[j]? = some m) :
        ∃ k, ((s.links.set i queue).map (Link.unplug c.closes))[j]? = some k ∧ m.Grows k := by
      rw [List.getElem?_map]
      by_cases same : j = i
      · subst same
        obtain rfl : l = m := Option.some.inj (there.symm.trans found)
        exact ⟨_, congrArg _ self, List.prefix_append _ _, rfl, rfl, rfl⟩
      · rw [List.getElem?_set_ne (Ne.symm same), found]
        exact ⟨_, rfl, List.prefix_rfl, rfl, rfl, rfl⟩
    refine ⟨⟨by simpa using latest, ?_⟩, numbered, ledger.once, below, ?_, ?_⟩
    · intro j k found
      obtain ⟨m, before, rfl⟩ := unpluggedLinks found
      exact wired.unplugged before c.closes
    · intro d mem
      rcases List.mem_append.mp mem with old | new
      · exact (ledger.stands d old).grow grows (List.Subset.refl _)
      · rw [List.mem_singleton.mp new, current]
        refine .waits (l := queue.unplug c.closes) ?_ (List.mem_append_right _ List.mem_cons_self)
        rw [List.getElem?_map, self]
        rfl
    · intro j k found
      obtain ⟨m, before, rfl⟩ := unpluggedLinks found
      rcases setCases before with ⟨rfl, rfl, _⟩ | ⟨other, before⟩
      · rw [current]
        exact (ledger.booked j l there).queues plugged live (fun d mem => ledger.below mem) ledger.known own
      · refine (ledger.booked j m before).unplug c.closes asked (List.Subset.refl _) ?_
        intro _ _ on
        have same := current.symm.trans ((ledger.attached j m before).mp on)
        exact (other (Option.some.inj same).symm).elim
  | abandoned dead =>
    have more : s.acks ⊆ s.acks ++ [c.abandoned] := List.subset_append_left _ _
    have found (j : Nat) (m : Link) (there : s.links[j]? = some m) :
        (s.links.map (Link.unplug c.closes))[j]? = some (m.unplug c.closes) := by
      rw [List.getElem?_map, there]
      rfl
    refine ⟨⟨by simpa using latest, ?_⟩, numbered, ?_, ?_, ?_, ?_⟩
    · intro j k found
      obtain ⟨m, there, rfl⟩ := unpluggedLinks found
      exact ledger.unplugged there c.closes
    · rw [List.map_append]
      refine ledger.once.append (List.nodup_singleton _) ?_
      intro ticket old new
      obtain ⟨a, mem, rfl⟩ := List.mem_map.mp old
      have same : a.ticket = c.ticket := by simpa using new
      have less := ledger.known a mem
      omega
    · intro a mem
      rcases List.mem_append.mp mem with old | new
      · exact below a old
      · rw [List.mem_singleton.mp new, abandonedTicket, own]
        exact Nat.lt_succ_self _
    · intro d mem
      rcases List.mem_append.mp mem with old | new
      · exact (ledger.stands d old).grow
          (fun j m there => ⟨_, found j m there, List.prefix_rfl, rfl, rfl, rfl⟩) more
      · rw [List.mem_singleton.mp new]
        have told : c.abandoned ∈ s.acks ++ [c.abandoned] := List.mem_append_right _ List.mem_cons_self
        cases current : s.current with
        | none => exact .unheard told
        | some i =>
          obtain ⟨l, there⟩ := ledger.there current
          refine .answered (found i l there) (.overtaken (dead i l current there) ?_ told)
          -- an attached link has written no close
          intro closed
          have off := (ledger.booked i l there).shut closed
          rw [(ledger.attached i l there).mpr current] at off
          cases off
    · intro j k found
      obtain ⟨m, there, rfl⟩ := unpluggedLinks found
      have booked : (m.unplug c.closes).Booked j (calls ++ [Call.mk c s.current]) replaced s.acks := by
        refine (ledger.booked j m there).unplug c.closes asked (List.Subset.refl _) ?_
        intro _ live on
        exact (live (dead j m ((ledger.attached j m there).mp on) there)).elim
      refine booked.told fun d mem told => ?_
      have same : d.ticket = c.ticket := by simpa using told
      have less : d.ticket < s.tickets := ledger.below ((ledger.booked j m there).queued d mem).1
      omega

theorem Ledger.turn (ledger : Ledger s calls replaced) (i : Nat) {act : Link → Link × List Ack}
    (works : ∀ l : Link, l.Works (act l).1 (act l).2) :
    Ledger (s.onLink i act) (calls ++ []) (replaced ++ []) := by
  rw [List.append_nil, List.append_nil]
  cases there : s.links[i]? with
  | none => rwa [onLinkAbsent there]
  | some l =>
    rw [onLinkThere there]
    exact ledger.works there (works l)

theorem Ledger.move (ledger : Ledger s calls replaced) (m : Move) :
    Ledger (s.move m) (calls ++ s.asks m) (replaced ++ s.replaces m) := by
  cases m with
  | openUp =>
    have opened := ledger.opens
    rwa [← List.append_nil calls] at opened
  | send payload =>
    have sent := ledger.called (ledger.toWired.sends payload) rfl
    rwa [← List.append_nil replaced] at sent
  | close =>
    have closed := ledger.called ledger.toWired.closes rfl
    rwa [← List.append_nil replaced] at closed
  | connected i => exact ledger.turn i fun l => l.connectedWorks
  | refused i text => exact ledger.turn i fun l => l.refusedWorks s.url text
  | obey i fault => exact ledger.turn i fun l => l.obeyWorks fault
  | receive i incoming => exact ledger.turn i fun l => l.receiveWorks incoming

theorem Ledger.run (ledger : Ledger s calls replaced) (moves : List Move) :
    Ledger (s.run moves) (calls ++ history asks s moves) (replaced ++ history replaces s moves) := by
  induction moves generalizing s calls replaced with
  | nil =>
    rw [show history asks s [] = [] from rfl, show history replaces s [] = [] from rfl, List.append_nil,
      List.append_nil]
    exact ledger
  | cons m rest ih =>
    have later := ih (ledger.move m)
    rwa [List.append_assoc, List.append_assoc] at later

end

theorem runLedger (url : String) (moves : List Move) :
    Ledger ((start url).run moves) (history asks (start url) moves) (history replaces (start url) moves) :=
  (startLedger url).run moves

end AccountWatch.Socket
