import AccountWatch.Proofs.Socket.Works
import Mathlib.Data.List.Nodup

/-! The ledger of a socket: every call with the link that it was handed to, and how it stands. A call waits in the
queue of its link, or it has been answered once, or nobody took it. Each turn of a link keeps the
ledger. -/
namespace AccountWatch.Socket

structure Call where
  command : Command
  link : Option Nat

def Call.ticket (c : Call) : Nat := c.command.ticket

def asks (s : Socket) : Move → List Call
  | .send payload => [⟨.text s.tickets payload, s.current⟩]
  | .close => [⟨.close s.tickets, s.current⟩]
  | .openUp | .connected _ | .refused _ _ | .obey _ _ | .receive _ _ => []

def replaces (s : Socket) : Move → List Nat
  | .openUp => s.current.toList
  | .send _ | .close | .connected _ | .refused _ _ | .obey _ _ | .receive _ _ => []

inductive Stands (links : List Link) (acks : List Ack) : Call → Prop where
  | waits {i : Nat} {l : Link} {c : Command} (there : links[i]? = some l) (queued : c ∈ l.commands) :
      Stands links acks ⟨c, some i⟩
  | answered {i : Nat} {l : Link} {c : Command} (there : links[i]? = some l) (answers : l.Answers acks c) :
      Stands links acks ⟨c, some i⟩
  | unheard {c : Command} (told : c.abandoned ∈ acks) : Stands links acks ⟨c, none⟩

structure Link.Booked (i : Nat) (calls : List Call) (replaced : List Nat) (acks : List Ack) (l : Link) : Prop
    extends Orderly l where
  queued : ∀ c ∈ l.commands, ⟨c, some i⟩ ∈ calls ∧ c.ticket ∉ acks.map Ack.ticket
  written : ∀ ticket payload, .text ticket payload ∈ l.written →
    ⟨.text ticket payload, some i⟩ ∈ calls ∧ ⟨ticket, none⟩ ∈ acks
  ordered : (l.written.filterMap Written.ticket? ++ l.commands.map Command.ticket).Pairwise (· < ·)
  empty : l.stage = .gone → l.commands = []
  unplugged : l.stage ≠ .gone → l.attached = false → (∃ ticket, .close ticket ∈ l.commands) ∨ i ∈ replaced
  shut : .close ∈ l.written → l.attached = false
  final : ∀ front rest, l.written = front ++ .close :: rest → rest = []

structure Wired (s : Socket) : Prop where
  latest : ∀ i, s.current = some i → i + 1 = s.links.length
  attached : ∀ i (l : Link), s.links[i]? = some l → (l.attached = true ↔ s.current = some i)

structure Ledger (s : Socket) (calls : List Call) (replaced : List Nat) : Prop extends Wired s where
  numbered : calls.map Call.ticket = List.range s.tickets
  once : (s.acks.map Ack.ticket).Nodup
  known : ∀ a ∈ s.acks, a.ticket < s.tickets
  stands : ∀ c ∈ calls, Stands s.links s.acks c
  booked : ∀ i (l : Link), s.links[i]? = some l → l.Booked i calls replaced s.acks

theorem startLedger (url : String) : Ledger (start url) [] [] :=
  ⟨⟨nofun, nofun⟩, rfl, List.nodup_nil, nofun, nofun, nofun⟩

namespace Link
variable {i : Nat} {calls : List Call} {replaced : List Nat} {acks more : List Ack}
  {l k : Link} {done : List Command}

theorem Booked.told (booked : l.Booked i calls replaced acks)
    (fresh : ∀ c ∈ l.commands, c.ticket ∉ more.map Ack.ticket) :
    l.Booked i calls replaced (acks ++ more) := by
  refine { booked with queued := ?_, written := ?_ }
  · intro c mem
    obtain ⟨asked, old⟩ := booked.queued c mem
    refine ⟨asked, ?_⟩
    rw [List.map_append]
    exact List.not_mem_append old (fresh c mem)
  · intro ticket payload wrote
    obtain ⟨asked, told⟩ := booked.written ticket payload wrote
    exact ⟨asked, List.mem_append_left _ told⟩

theorem Booked.distinct (booked : l.Booked i calls replaced acks) :
    (l.commands.map Command.ticket).Nodup :=
  (List.pairwise_append.mp booked.ordered).2.1.imp Nat.ne_of_lt

theorem Settles.fresh (settles : l.Settles k more done) (distinct : (l.commands.map Command.ticket).Nodup) :
    ∀ c ∈ k.commands, c.ticket ∉ more.map Ack.ticket := by
  intro c mem
  rw [settles.split, List.map_append] at distinct
  rw [settles.answers]
  intro settled
  exact (List.disjoint_of_nodup_append distinct) settled (List.mem_map_of_mem mem)

theorem Settles.ordered (settles : l.Settles k more done)
    (ordered : (l.written.filterMap Written.ticket? ++ l.commands.map Command.ticket).Pairwise (· < ·)) :
    (k.written.filterMap Written.ticket? ++ k.commands.map Command.ticket).Pairwise (· < ·) := by
  rw [settles.split, List.map_append] at ordered
  have shorter : (l.written.filterMap Written.ticket? ++ k.commands.map Command.ticket).Pairwise (· < ·) :=
    ordered.sublist ((List.Sublist.refl _).append (List.sublist_append_right _ _))
  cases settles.writes with
  | nothing written => rwa [written]
  | @text ticket payload first _ written =>
    rw [written, List.filterMap_append, List.append_assoc]
    rwa [first] at ordered
  | close _ _ written =>
    have silent : [Written.close].filterMap Written.ticket? = [] := rfl
    rwa [written, List.filterMap_append, silent, List.append_nil]

theorem endsOnce {xs front rest : List Written} {x y : Written} (new : y ∉ xs)
    (same : xs ++ [x] = front ++ y :: rest) : rest = [] := by
  rcases List.eq_nil_or_concat rest with none | ⟨before, last, rfl⟩
  · exact none
  · have split : xs ++ [x] = (front ++ y :: before) ++ [last] := by simpa using same
    have whole : xs = front ++ y :: before := (List.append_inj' split rfl).1
    exact (new (whole ▸ List.mem_append_right _ List.mem_cons_self)).elim

theorem Settles.orderly (settles : l.Settles k more done) (orderly : l.Orderly) : k.Orderly where
  last := by
    intro front c rest split closes
    refine orderly.last (done ++ front) c rest ?_ closes
    rw [settles.split, split, List.append_assoc]
  free := by
    intro plugged c mem
    exact orderly.free (settles.attached ▸ plugged) c (settles.split ▸ List.mem_append_right _ mem)
  unclosed := by
    intro closed
    cases settles.writes with
    | nothing written => exact (settles.past (orderly.unclosed (written ▸ closed))).1
    | text _ _ written =>
      rw [written] at closed
      exact (settles.past (orderly.unclosed (by simpa using closed))).1
    | close gone => exact gone

theorem Booked.settled (booked : l.Booked i calls replaced acks) (settles : l.Settles k more done) :
    k.Booked i calls replaced (acks ++ more) := by
  have asked : ∀ c ∈ done ++ k.commands, ⟨c, some i⟩ ∈ calls ∧ c.ticket ∉ acks.map Ack.ticket :=
    settles.split ▸ booked.queued
  -- a link that may still write has written no close
  have open_ : k.written ≠ l.written → .close ∉ l.written := fun other closed =>
    other (settles.past (booked.unclosed closed)).2
  have grown {w : Written} (written : k.written = l.written ++ [w]) : k.written ≠ l.written := by
    rw [written]
    simp
  refine { settles.orderly booked.toOrderly with
    queued := ?_
    written := ?_
    ordered := settles.ordered booked.ordered
    empty := ?_
    unplugged := ?_
    shut := ?_
    final := ?_ }
  · intro c mem
    obtain ⟨called, old⟩ := asked c (List.mem_append_right _ mem)
    refine ⟨called, ?_⟩
    rw [List.map_append]
    exact List.not_mem_append old (settles.fresh booked.distinct c mem)
  · have earlier (ticket : Nat) (payload : String) (wrote : .text ticket payload ∈ l.written) :
        ⟨.text ticket payload, some i⟩ ∈ calls ∧ ⟨ticket, none⟩ ∈ acks ++ more := by
      obtain ⟨called, told⟩ := booked.written ticket payload wrote
      exact ⟨called, List.mem_append_left _ told⟩
    intro ticket payload wrote
    cases settles.writes with
    | nothing written => exact earlier ticket payload (written ▸ wrote)
    | text first told written =>
      rw [written] at wrote
      rcases List.mem_append.mp wrote with old | new
      · exact earlier ticket payload old
      · obtain ⟨rfl, rfl⟩ : ticket = _ ∧ payload = _ := by simpa using new
        exact ⟨(asked _ (first ▸ List.mem_append_left _ List.mem_cons_self)).1, List.mem_append_right _ told⟩
    | close _ _ written =>
      rw [written] at wrote
      exact earlier ticket payload (by simpa using wrote)
  · intro gone
    by_cases before : l.stage = .gone
    · have none : done ++ k.commands = [] := settles.split ▸ booked.empty before
      exact (List.append_eq_nil_iff.mp none).2
    · exact settles.empties gone before
  · intro live plugged
    have before : l.stage ≠ .gone := fun gone => live (settles.past gone).1
    rcases booked.unplugged before (settles.attached ▸ plugged) with ⟨ticket, waits⟩ | replaced
    · exact .inl ⟨ticket, settles.awaits live ticket waits⟩
    · exact .inr replaced
  · intro closed
    rw [settles.attached]
    cases settles.writes with
    | nothing written => exact booked.shut (written ▸ closed)
    | text _ _ written =>
      rw [written] at closed
      exact booked.shut (by simpa using closed)
    | close _ unplugged => exact unplugged
  · intro front rest split
    cases settles.writes with
    | nothing written => exact booked.final front rest (written ▸ split)
    | text _ _ written | close _ _ written => exact endsOnce (open_ (grown written)) (written ▸ split)

end Link

section
variable {s : Socket} {calls : List Call} {replaced : List Nat}

theorem Ledger.below (ledger : Ledger s calls replaced) {c : Call} (mem : c ∈ calls) : c.ticket < s.tickets := by
  have listed : c.ticket ∈ calls.map Call.ticket := List.mem_map_of_mem mem
  rw [ledger.numbered] at listed
  exact List.mem_range.mp listed

theorem Ledger.unique (ledger : Ledger s calls replaced) {c d : Call} (left : c ∈ calls) (right : d ∈ calls)
    (same : c.ticket = d.ticket) : c = d :=
  List.inj_on_of_nodup_map (ledger.numbered ▸ List.nodup_range) left right same

theorem Stands.worked {links : List Link} {acks more : List Ack} {i : Nat} {l k : Link} {done : List Command}
    {c : Call} (there : links[i]? = some l) (settles : l.Settles k more done) (stands : Stands links acks c) :
    Stands (links.set i k) (acks ++ more) c := by
  have grows : l.written ⊆ k.written := by
    cases settles.writes with
    | nothing written => exact written ▸ List.Subset.refl _
    | text _ _ written | close _ _ written => exact written ▸ List.subset_append_left _ _
  have kept {j : Nat} {m : Link} (found : links[j]? = some m) (other : j ≠ i) :
      (links.set i k)[j]? = some m := by
    rwa [List.getElem?_set_ne other.symm]
  cases stands with
  | @waits j m c found queued =>
    by_cases own : j = i
    · subst own
      obtain rfl : l = m := Option.some.inj (there.symm.trans found)
      rw [settles.split] at queued
      rcases List.mem_append.mp queued with now | still
      · exact .answered (setSelf there k) ((settles.fates c now).mono (List.Subset.refl _)
          (fun gone => ⟨gone, rfl⟩) (List.subset_append_right _ _))
      · exact .waits (setSelf there k) still
    · exact .waits (kept found own) queued
  | @answered j m c found answers =>
    by_cases own : j = i
    · subst own
      obtain rfl : l = m := Option.some.inj (there.symm.trans found)
      exact .answered (setSelf there k) (answers.mono grows settles.past (List.subset_append_left _ _))
    · exact .answered (kept found own) (answers.mono (List.Subset.refl _) (fun gone => ⟨gone, rfl⟩)
        (List.subset_append_left _ _))
  | unheard told => exact .unheard (List.mem_append_left _ told)

theorem Ledger.works (ledger : Ledger s calls replaced) {i : Nat} {l k : Link} {acks : List Ack}
    (there : s.links[i]? = some l) (works : l.Works k acks) :
    Ledger { s with links := s.links.set i k, acks := s.acks ++ acks } calls replaced := by
  have booked := ledger.booked i l there
  obtain ⟨done, settles⟩ := works.settles booked.toOrderly
  have settled : ∀ ticket ∈ acks.map Ack.ticket, ∃ c ∈ l.commands, c.ticket = ticket := by
    intro ticket told
    rw [settles.answers] at told
    obtain ⟨c, mem, same⟩ := List.mem_map.mp told
    exact ⟨c, settles.split ▸ List.mem_append_left _ mem, same⟩
  refine ⟨⟨by simpa using ledger.latest, ?_⟩, ledger.numbered, ?_, ?_,
    fun c mem => (ledger.stands c mem).worked there settles, ?_⟩
  · intro j m found
    rcases setCases found with ⟨rfl, rfl, _⟩ | ⟨_, found⟩
    · rw [settles.attached]
      exact ledger.attached j l there
    · exact ledger.attached j m found
  · have distinct := booked.distinct
    rw [settles.split, List.map_append, ← settles.answers] at distinct
    rw [List.map_append]
    refine ledger.once.append distinct.of_append_left ?_
    intro ticket old new
    obtain ⟨c, mem, rfl⟩ := settled ticket new
    exact (booked.queued c mem).2 old
  · intro a mem
    rcases List.mem_append.mp mem with old | new
    · exact ledger.known a old
    · obtain ⟨c, queued, same⟩ := settled a.ticket (List.mem_map_of_mem new)
      exact same ▸ ledger.below (booked.queued c queued).1
  · intro j m found
    rcases setCases found with ⟨rfl, rfl, _⟩ | ⟨other, found⟩
    · exact booked.settled settles
    · -- what waits at another link is another call, with a ticket of its own
      refine (ledger.booked j m found).told fun c mem told => ?_
      obtain ⟨d, queued, same⟩ := settled c.ticket told
      have one : (⟨d, some i⟩ : Call) = ⟨c, some j⟩ := ledger.unique (booked.queued d queued).1
        ((ledger.booked j m found).queued c mem).1 same
      exact other (by simpa using (congrArg Call.link one).symm)

end
end AccountWatch.Socket
