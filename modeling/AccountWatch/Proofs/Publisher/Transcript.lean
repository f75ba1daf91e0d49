import AccountWatch.Proofs.Publisher.Roster

/-! What a subscription is given over a whole run. The roster says which publications are owed to whom, without
queues, pruning or half-finished deliveries. One event adds to what a subscription has received and to what
is queued for it just what it is owed for the event, so over a run both together are what it is owed. -/
namespace AccountWatch

namespace Roster
open Publisher (Event)

def Reaches (r : Roster) (number : Nat) (m : Message) : Prop :=
  (∃ x ∈ r.present, x.number = number ∧ x.filter m = .accept) ∧
    ∀ x ∈ r.present, x.number ≤ number → x.filter m ≠ .crash

instance (r : Roster) (number : Nat) (m : Message) : Decidable (r.Reaches number m) :=
  inferInstanceAs (Decidable (_ ∧ _))

def owes (r : Roster) (number : Nat) : Event → List Message
  | .publish m => if r.closed = false ∧ r.Reaches number m then [m] else []
  | _ => []

def owed (number : Nat) : Roster → List Event → List Message
  | _, [] => []
  | r, e :: rest => r.owes number e ++ owed number (r.next e) rest

def Keeps (r : Roster) (number : Nat) : Prop := (∃ x ∈ r.present, x.number = number) ∨ r.made ≤ number

theorem Keeps.earlier {r : Roster} {e : Event} {number : Nat} (keeps : (r.next e).Keeps number) :
    r.Keeps number := by
  unfold next at keeps
  cases e with
  | subscribe filter =>
    dsimp only at keeps
    split at keeps
    · exact keeps
    · rcases keeps with ⟨x, mem, own⟩ | later
      · rcases List.mem_append.mp mem with old | new
        · exact .inl ⟨x, old, own⟩
        · rw [List.mem_singleton.mp new] at own
          exact .inr (Nat.le_of_eq own)
      · exact .inr (Nat.le_of_succ_le later)
  | unsubscribe n =>
    rcases keeps with ⟨x, mem, own⟩ | later
    · exact .inl ⟨x, (List.mem_filter.mp mem).1, own⟩
    · exact .inr later
  | publish | read | drain | close => exact keeps

theorem Keeps.start {r : Roster} {events : List Event} {number : Nat}
    (keeps : (r.after events).Keeps number) : r.Keeps number := by
  induction events generalizing r with
  | nil => exact keeps
  | cons e rest ih => exact (ih keeps).earlier

end Roster

namespace Publisher

theorem updateQueue (p : Publisher) (number : Nat) {f : Subscriber → Subscriber}
    (keeps : ∀ x, (f x).number = x.number) (k : Nat) : (p.update number f).queue k =
      (((p.subscribers.find? fun x => x.number = k).map fun x =>
        if x.number = number then f x else x).map Subscriber.queue).getD [] := by
  have same : (fun x => decide (x.number = k)) ∘ (fun x => if x.number = number then f x else x) =
      fun x : Subscriber => decide (x.number = k) := by
    funext x
    by_cases own : x.number = number
    · simp [own, keeps]
    · simp [own]
  unfold queue update
  dsimp only
  rw [List.find?_map, same]

theorem updateQueueOther (p : Publisher) {number k : Nat} {f : Subscriber → Subscriber}
    (keeps : ∀ x, (f x).number = x.number) (other : number ≠ k) :
    (p.update number f).queue k = p.queue k := by
  rw [updateQueue p number keeps]
  unfold queue
  cases found : p.subscribers.find? fun x => x.number = k with
  | none => rfl
  | some x =>
    have own : x.number = k := by simpa using List.find?_some found
    simp [own, other.symm]

theorem requeued (p : Publisher) (number : Nat) (queue : List Message) :
    (p.update number fun x => { x with queue }).queue number =
      ((p.subscribers.find? fun x => x.number = number).map fun _ => queue).getD [] := by
  rw [updateQueue p number (f := fun x => { x with queue }) fun _ => rfl]
  cases found : p.subscribers.find? fun x => x.number = number with
  | none => rfl
  | some x =>
    have own : x.number = number := by simpa using List.find?_some found
    simp [own]

theorem subscribeQueue (p : Publisher) (filter : Filter) (number : Nat) :
    (p.subscribe filter).1.queue number = p.queue number := by
  unfold queue subscribe
  dsimp only
  rw [List.find?_append]
  cases p.subscribers.find? fun x => x.number = number with
  | some x => rfl
  | none => by_cases own : p.created = number <;> simp [own]

theorem messageAnswer (way : Reading) (m : Message) : (way.answer (.message m)).messages = [m] := by
  cases way <;> rfl

theorem emptyAnswer (way : Reading) (p : Publisher) :
    (way.answer (if p.gone then .ended else .pending)).messages = [] := by
  cases p.gone <;> cases way <;> rfl

theorem readQueue (p : Publisher) (way : Reading) (number k : Nat) :
    p.taken k (.read way number) ++ (p.step (.read way number)).queue k = p.queue k := by
  change (if number = k then (way.answer (p.poll number).2).messages else []) ++
    (p.poll number).1.queue k = _
  by_cases own : number = k
  · subst own
    rw [if_pos rfl]
    unfold poll
    split
    · rename_i none
      rw [emptyAnswer, none]
      rfl
    · rename_i m rest queued
      rw [messageAnswer, requeued]
      cases found : p.subscribers.find? fun x => x.number = number with
      | none => simp [queue, found] at queued
      | some x => rw [queued]; rfl
  · rw [if_neg own, List.nil_append]
    unfold poll
    split
    · rfl
    · exact updateQueueOther p (fun _ => rfl) own

theorem drainQueue (p : Publisher) (number k : Nat) :
    p.taken k (.drain number) ++ (p.step (.drain number)).queue k = p.queue k := by
  change (if number = k then p.queue number else []) ++
    (p.update number fun x => { x with queue := [] }).queue k = _
  by_cases own : number = k
  · subst own
    rw [if_pos rfl, requeued]
    cases p.subscribers.find? fun x => x.number = number <;> exact List.append_nil _
  · rw [if_neg own, List.nil_append]
    exact updateQueueOther p (fun _ => rfl) own

theorem Lists.enrolled {p : Publisher} {r : Roster} (lists : p.Lists r) {x : Subscriber}
    (mem : x ∈ p.subscribers) (live : x.live) : x.enrolment ∈ r.present := by
  rw [← lists.present]
  exact List.mem_map_of_mem (List.mem_filter.mpr ⟨mem, live⟩)

theorem Lists.subscriber {p : Publisher} {r : Roster} (lists : p.Lists r) {y : Enrolment}
    (mem : y ∈ r.present) : ∃ x ∈ p.subscribers, x.live ∧ x.enrolment = y := by
  rw [← lists.present] at mem
  obtain ⟨x, found, rfl⟩ := List.mem_map.mp mem
  obtain ⟨old, live⟩ := List.mem_filter.mp found
  exact ⟨x, old, live, rfl⟩

theorem Numbered.apart {p : Publisher} (numbered : p.Numbered) (m : Message) {x y : Subscriber}
    (early : x ∈ passed m p.subscribers) (late : y ∈ unreached m p.subscribers) : x.number < y.number := by
  have ascending := numbered.ascending
  rw [← passedUnreached m p.subscribers, List.map_append, List.pairwise_append] at ascending
  exact ascending.2.2 _ (List.mem_map_of_mem early) _ (List.mem_map_of_mem late)

theorem passedCalm {m : Message} {xs : List Subscriber} {x : Subscriber} (mem : x ∈ passed m xs)
    (live : x.live) : x.filter m ≠ .crash := by
  have calm : x.calm m := List.mem_takeWhile_imp mem
  simpa [Subscriber.calm, live] using calm

theorem crashedHead {m : Message} {xs rest : List Subscriber} {x : Subscriber}
    (stopped : unreached m xs = x :: rest) : x.live ∧ x.filter m = .crash := by
  have head := List.head?_dropWhile_not (Subscriber.calm m) xs
  unfold unreached at stopped
  simpa [stopped, Subscriber.calm] using head

theorem Lists.reachesPassed {p : Publisher} {r : Roster} (lists : p.Lists r) {m : Message} {x : Subscriber}
    (early : x ∈ passed m p.subscribers) (live : x.live) :
    r.Reaches x.number m ↔ x.filter m = .accept := by
  have listed : x ∈ p.subscribers := passedUnreached m p.subscribers ▸ List.mem_append_left _ early
  constructor
  · rintro ⟨⟨y, mem, own, accepts⟩, _⟩
    obtain ⟨z, old, _, rfl⟩ := lists.subscriber mem
    exact lists.numbered.unique old listed own ▸ accepts
  · intro accepts
    refine ⟨⟨x.enrolment, lists.enrolled listed live, rfl, accepts⟩, ?_⟩
    intro y mem least
    obtain ⟨z, old, zLive, rfl⟩ := lists.subscriber mem
    rw [← passedUnreached m p.subscribers] at old
    rcases List.mem_append.mp old with also | late
    · exact passedCalm also zLive
    · exact absurd least (Nat.not_le_of_lt (lists.numbered.apart m early late))

theorem Lists.reachesUnreached {p : Publisher} {r : Roster} (lists : p.Lists r) {m : Message}
    {x : Subscriber} (late : x ∈ unreached m p.subscribers) : ¬ r.Reaches x.number m := by
  obtain ⟨z, rest, stopped⟩ := List.exists_cons_of_ne_nil (List.ne_nil_of_mem late)
  obtain ⟨live, crash⟩ := crashedHead stopped
  have listed : z ∈ p.subscribers := by
    rw [← passedUnreached m p.subscribers, stopped]
    exact List.mem_append_right _ List.mem_cons_self
  have least : z.number ≤ x.number := by
    have ascending := lists.numbered.ascending
    rw [← passedUnreached m p.subscribers, stopped, List.map_append, List.pairwise_append, List.map_cons,
      List.pairwise_cons] at ascending
    rw [stopped] at late
    rcases List.mem_cons.mp late with rfl | behind
    · exact Nat.le_refl _
    · exact Nat.le_of_lt (ascending.2.1.1 _ (List.mem_map_of_mem behind))
  rintro ⟨_, calm⟩
  exact calm z.enrolment (lists.enrolled listed live) least crash

theorem Lists.publishQueue {p : Publisher} {r : Roster} (lists : p.Lists r) {number : Nat}
    (keeps : r.Keeps number) (m : Message) : (p.publish m).1.queue number =
      p.queue number ++ if r.Reaches number m then [m] else [] := by
  have after := lists.numbered.publish m
  have delivered : (p.publish m).1.subscribers = ((passed m p.subscribers).filter Subscriber.live).map
      (Subscriber.offer m) ++ unreached m p.subscribers := deliverSubscribers m p.subscribers
  rcases keeps with ⟨y, mem, rfl⟩ | later
  · obtain ⟨x, listed, live, rfl⟩ := lists.subscriber mem
    change (p.publish m).1.queue x.number = p.queue x.number ++ if r.Reaches x.number m then [m] else []
    rw [lists.numbered.holds listed]
    rw [← passedUnreached m p.subscribers] at listed
    rcases List.mem_append.mp listed with early | late
    · have offered : x.offer m ∈ (p.publish m).1.subscribers := by
        rw [delivered]
        exact List.mem_append_left _ (List.mem_map_of_mem (List.mem_filter.mpr ⟨early, live⟩))
      have queue := after.holds offered
      rw [Subscriber.offerNumber, Subscriber.offerQueue] at queue
      simp only [queue, lists.reachesPassed early live]
    · have kept : x ∈ (p.publish m).1.subscribers := by
        rw [delivered]
        exact List.mem_append_right _ late
      rw [after.holds kept, if_neg (lists.reachesUnreached late), List.append_nil]
  · -- one that is yet to subscribe: no queue before or after, and nothing owed
    have fresh : p.created ≤ number := lists.made ▸ later
    have apart : ¬ r.Reaches number m := by
      rintro ⟨⟨y, mem, rfl, _⟩, _⟩
      obtain ⟨x, listed, _, rfl⟩ := lists.subscriber mem
      exact absurd fresh (Nat.not_le_of_lt (lists.numbered.known x listed))
    rw [after.fresh fresh, lists.numbered.fresh fresh, if_neg apart, List.nil_append]

theorem Lists.balance {p : Publisher} {r : Roster} (lists : p.Lists r) {number : Nat} (e : Event)
    (keeps : (r.next e).Keeps number) :
    p.taken number e ++ (p.step e).queue number = p.queue number ++ r.owes number e := by
  have before := keeps.earlier
  cases e with
  | subscribe filter =>
    change [] ++ (if p.gone then p else (p.subscribe filter).1).queue number = p.queue number ++ []
    rw [List.nil_append, List.append_nil]
    split
    · rfl
    · exact subscribeQueue p filter number
  | publish m =>
    change [] ++ (if p.gone then p else (p.publish m).1).queue number =
      p.queue number ++ if r.closed = false ∧ r.Reaches number m then [m] else []
    rw [List.nil_append, lists.closed]
    cases r.closed with
    | true => simp
    | false => simpa using lists.publishQueue before m
  | read way n => exact (readQueue p way n number).trans (List.append_nil _).symm
  | drain n => exact (drainQueue p n number).trans (List.append_nil _).symm
  | unsubscribe n =>
    change [] ++ (p.unsubscribe n).queue number = p.queue number ++ []
    rw [List.nil_append, List.append_nil]
    rcases keeps with ⟨y, mem, rfl⟩ | later
    · have other : n ≠ y.number := (of_decide_eq_true (List.mem_filter.mp mem).2).symm
      exact updateQueueOther p (fun _ => rfl) other
    · have fresh : p.created ≤ number := lists.made ▸ later
      have dropped := lists.numbered.update n (f := fun x => { x with live := false, queue := [] })
        fun _ => rfl
      rw [lists.numbered.fresh fresh]
      exact dropped.fresh fresh
  | close => exact (List.append_nil _).symm

theorem Lists.transcript {p : Publisher} {r : Roster} (lists : p.Lists r) {number : Nat}
    {events : List Event} (keeps : (r.after events).Keeps number) :
    received number p events ++ (p.run events).queue number =
      p.queue number ++ Roster.owed number r events := by
  induction events generalizing p r with
  | nil => exact (List.append_nil _).symm
  | cons e rest ih =>
    have after : ((r.next e).after rest).Keeps number := keeps
    have later : received number (p.step e) rest ++ ((p.step e).run rest).queue number =
        (p.step e).queue number ++ Roster.owed number (r.next e) rest := ih (lists.step e) keeps
    calc received number p (e :: rest) ++ (p.run (e :: rest)).queue number
      _ = p.taken number e ++ (received number (p.step e) rest ++ ((p.step e).run rest).queue number) :=
        List.append_assoc _ _ _
      _ = p.taken number e ++ (p.step e).queue number ++ Roster.owed number (r.next e) rest := by
        rw [later, List.append_assoc]
      _ = p.queue number ++ Roster.owed number r (e :: rest) := by
        rw [lists.balance e after.start, List.append_assoc]
        rfl

/-- What a subscription has received, in whatever way it was read, and what is queued for it are together what it
is owed. A read that does not give the first message of the queue finds it empty, and says whether the
publisher is gone if it can say that. -/
theorem receivedIsOwed (events : List Event) :
    let p := empty.run events
    (∀ x ∈ (Roster.start.after events).present,
      received x.number empty events ++ p.queue x.number = Roster.owed x.number .start events) ∧
      ∀ way number,
        (∀ m, (p.read way number).2 = .message m ↔ (p.queue number).head? = some m) ∧
        ((p.read way number).2 = .ended ↔ way ≠ .attempt ∧ .close ∈ events ∧ p.queue number = []) ∧
        ((p.read way number).2 = .pending ↔ way ≠ .attempt ∧ .close ∉ events ∧ p.queue number = []) ∧
        ((p.read way number).2 = .nothing ↔ way = .attempt ∧ p.queue number = []) := by
  intro p
  have gone : p.gone = true ↔ .close ∈ events := by
    rw [(emptyLists.run events).closed, Roster.closedAfter]
    simp [Roster.start]
  refine ⟨?_, ?_⟩
  · intro x mem
    exact emptyLists.transcript (.inl ⟨x, mem, rfl⟩)
  · intro way number
    rw [← gone]
    unfold read poll
    cases p.queue number with
    | nil => cases p.gone <;> cases way <;> simp [Reading.answer]
    | cons m rest => cases way <;> simp [Reading.answer]

end Publisher
end AccountWatch
