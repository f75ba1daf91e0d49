import AccountWatch.Proofs.Publisher.Delivery
import AccountWatch.Publisher.Run
import Mathlib.Data.List.Nodup

/-! Which subscriptions there are. The roster is read off the events of a run alone: the subscriptions that were
made and not dropped, in the order in which they were made. The publisher of the run keeps the same list,
whatever it has pruned and wherever a filter crashed, and knows its subscribers by ascending numbers. -/
namespace AccountWatch

structure Enrolment where
  number : Nat
  filter : Filter

structure Roster where
  made : Nat
  present : List Enrolment
  closed : Bool

namespace Roster
open Publisher (Event)

def start : Roster := ⟨0, [], false⟩

def next (r : Roster) : Event → Roster
  | .subscribe filter =>
      if r.closed then r else { r with made := r.made + 1, present := r.present ++ [⟨r.made, filter⟩] }
  | .unsubscribe number => { r with present := r.present.filter fun x => x.number ≠ number }
  | .close => { r with closed := true }
  | .publish _ | .read _ _ | .drain _ => r

def after (r : Roster) (events : List Event) : Roster := events.foldl next r

theorem closedAfter (r : Roster) (events : List Event) :
    (r.after events).closed = true ↔ r.closed = true ∨ .close ∈ events := by
  induction events generalizing r with
  | nil => simp [after]
  | cons e rest ih =>
    change ((r.next e).after rest).closed = true ↔ _
    rw [ih]
    cases e with
    | subscribe filter => cases closed : r.closed <;> simp [next, closed]
    | publish | read | drain | unsubscribe | close => simp [next]

end Roster

def Subscriber.enrolment (x : Subscriber) : Enrolment := ⟨x.number, x.filter⟩

namespace Publisher

structure Numbered (p : Publisher) : Prop where
  ascending : (p.subscribers.map Subscriber.number).Pairwise (· < ·)
  known : ∀ x ∈ p.subscribers, x.number < p.created

theorem Numbered.holds {p : Publisher} (numbered : p.Numbered) {x : Subscriber} (mem : x ∈ p.subscribers) :
    p.queue x.number = x.queue := by
  obtain ⟨ascending, _⟩ := numbered
  unfold queue
  generalize p.subscribers = xs at mem ascending
  induction xs with
  | nil => simp at mem
  | cons y rest ih =>
    rw [List.map_cons, List.pairwise_cons] at ascending
    rcases List.mem_cons.mp mem with rfl | later
    · simp
    · have less := ascending.1 x.number (List.mem_map_of_mem later)
      rw [List.find?_cons_of_neg (by simp; omega)]
      exact ih later ascending.2

theorem Numbered.unique {p : Publisher} (numbered : p.Numbered) {x y : Subscriber} (left : x ∈ p.subscribers)
    (right : y ∈ p.subscribers) (same : x.number = y.number) : x = y :=
  List.inj_on_of_nodup_map (numbered.ascending.imp Nat.ne_of_lt) left right same

theorem queueAbsent {p : Publisher} {number : Nat} (absent : ∀ x ∈ p.subscribers, x.number ≠ number) :
    p.queue number = [] := by
  unfold queue
  rw [List.find?_eq_none.mpr (by simpa using absent)]
  rfl

theorem Numbered.fresh {p : Publisher} (numbered : p.Numbered) {number : Nat}
    (fresh : p.created ≤ number) : p.queue number = [] := by
  apply queueAbsent
  intro x mem
  have known := numbered.known x mem
  omega

theorem updateNumbers (p : Publisher) (number : Nat) {f : Subscriber → Subscriber}
    (keeps : ∀ x, (f x).number = x.number) :
    (p.update number f).subscribers.map Subscriber.number = p.subscribers.map Subscriber.number := by
  unfold update
  rw [List.map_map]
  apply List.map_congr_left
  intro x _
  by_cases own : x.number = number
  · simp [own, keeps]
  · simp [own]

theorem Numbered.update {p : Publisher} (numbered : p.Numbered) (number : Nat)
    {f : Subscriber → Subscriber} (keeps : ∀ x, (f x).number = x.number) :
    (p.update number f).Numbered := by
  have same := updateNumbers p number keeps
  refine ⟨same ▸ numbered.ascending, ?_⟩
  intro x mem
  have listed : x.number ∈ p.subscribers.map Subscriber.number := same ▸ List.mem_map_of_mem mem
  obtain ⟨y, old, number⟩ := List.mem_map.mp listed
  exact number ▸ numbered.known y old

theorem Numbered.publish {p : Publisher} (numbered : p.Numbered) (m : Message) : (p.publish m).1.Numbered := by
  have fewer : ((p.publish m).1.subscribers.map Subscriber.number).Sublist
      (p.subscribers.map Subscriber.number) := deliverNumbers m p.subscribers
  refine ⟨numbered.ascending.sublist fewer, ?_⟩
  intro x mem
  obtain ⟨y, old, number⟩ := List.mem_map.mp (fewer.subset (List.mem_map_of_mem mem))
  exact number ▸ numbered.known y old

theorem Numbered.subscribe {p : Publisher} (numbered : p.Numbered) (filter : Filter) :
    (p.subscribe filter).1.Numbered := by
  refine ⟨?_, ?_⟩
  · change ((p.subscribers ++ [_]).map Subscriber.number).Pairwise _
    rw [List.map_append, List.pairwise_append]
    refine ⟨numbered.ascending, by simp, ?_⟩
    intro a mem b last
    obtain ⟨x, old, rfl⟩ := List.mem_map.mp mem
    rw [List.mem_singleton.mp last]
    exact numbered.known x old
  · intro x mem
    rcases List.mem_append.mp mem with old | new
    · exact Nat.lt_succ_of_lt (numbered.known x old)
    · rw [List.mem_singleton.mp new]
      exact Nat.lt_succ_self _

structure Lists (p : Publisher) (r : Roster) : Prop where
  made : p.created = r.made
  closed : p.gone = r.closed
  present : (p.subscribers.filter Subscriber.live).map Subscriber.enrolment = r.present
  numbered : p.Numbered

theorem emptyLists : empty.Lists .start := ⟨rfl, rfl, rfl, ⟨.nil, nofun⟩⟩

theorem requeueEnrolled (p : Publisher) (number : Nat) (queue : List Message) :
    ((p.update number fun x => { x with queue }).subscribers.filter Subscriber.live).map
        Subscriber.enrolment = (p.subscribers.filter Subscriber.live).map Subscriber.enrolment := by
  unfold update
  induction p.subscribers with
  | nil => rfl
  | cons x rest ih =>
    by_cases own : x.number = number
    · cases live : x.live <;> simpa [own, live, Subscriber.enrolment] using ih
    · cases live : x.live <;> simpa [own, live, Subscriber.enrolment] using ih

theorem unsubscribeEnrolled (p : Publisher) (number : Nat) :
    ((p.unsubscribe number).subscribers.filter Subscriber.live).map Subscriber.enrolment =
      ((p.subscribers.filter Subscriber.live).map Subscriber.enrolment).filter fun x => x.number ≠ number := by
  unfold unsubscribe update
  induction p.subscribers with
  | nil => rfl
  | cons x rest ih =>
    by_cases own : x.number = number
    · cases live : x.live <;> simpa [own, live, Subscriber.enrolment] using ih
    · cases live : x.live <;> simpa [own, live, Subscriber.enrolment] using ih

theorem publishEnrolled (p : Publisher) (m : Message) :
    ((p.publish m).1.subscribers.filter Subscriber.live).map Subscriber.enrolment =
      (p.subscribers.filter Subscriber.live).map Subscriber.enrolment := by
  have offered : Subscriber.enrolment ∘ Subscriber.offer m = Subscriber.enrolment := by
    funext x
    simp [Subscriber.enrolment]
  change ((deliver m p.subscribers).1.filter Subscriber.live).map Subscriber.enrolment = _
  conv => rhs; rw [← passedUnreached m p.subscribers, List.filter_append, List.map_append]
  rw [deliverLive, List.map_append, List.map_map, offered]

theorem Lists.requeue {p : Publisher} {r : Roster} (lists : p.Lists r) (number : Nat)
    (queue : List Message) : (p.update number fun x => { x with queue }).Lists r :=
  ⟨lists.made, lists.closed, (requeueEnrolled p number queue).trans lists.present,
    lists.numbered.update number fun _ => rfl⟩

theorem Lists.step {p : Publisher} {r : Roster} (lists : p.Lists r) (e : Event) :
    (p.step e).Lists (r.next e) := by
  obtain ⟨made, closed, present, numbered⟩ := lists
  cases e with
  | subscribe filter =>
    unfold Publisher.step Roster.next
    dsimp only
    rw [closed]
    split
    · exact ⟨made, closed, present, numbered⟩
    · refine ⟨congrArg (· + 1) made, closed, ?_, numbered.subscribe filter⟩
      unfold subscribe
      dsimp only
      rw [List.filter_append, List.map_append, present, made]
      rfl
  | publish m =>
    unfold Publisher.step Roster.next
    dsimp only
    split
    · exact ⟨made, closed, present, numbered⟩
    · exact ⟨made, closed, (publishEnrolled p m).trans present, numbered.publish m⟩
  | read way number =>
    change (p.poll number).1.Lists r
    unfold poll
    split
    · exact ⟨made, closed, present, numbered⟩
    · exact Lists.requeue ⟨made, closed, present, numbered⟩ number _
  | drain number => exact Lists.requeue ⟨made, closed, present, numbered⟩ number []
  | unsubscribe number =>
    have dropped := unsubscribeEnrolled p number
    rw [present] at dropped
    exact ⟨made, closed, dropped, numbered.update number fun _ => rfl⟩
  | close => exact ⟨made, rfl, present, numbered.ascending, numbered.known⟩

theorem Lists.run {p : Publisher} {r : Roster} (lists : p.Lists r) (events : List Event) :
    (p.run events).Lists (r.after events) := by
  induction events generalizing p r with
  | nil => exact lists
  | cons e rest ih => exact ih (lists.step e)

end Publisher
end AccountWatch
