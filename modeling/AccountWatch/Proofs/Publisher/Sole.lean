import AccountWatch.Proofs.Publisher.Roster

/-! A publisher as the holder of one subscription sees it: no other subscription is there, and its own has the number
zero. Nobody's publisher has no subscription at all. As long as no filter crashes, publishing and
whatever the holder does come to the same there, and what the others do changes nothing. -/
namespace AccountWatch

def Subscriber.alone (x : Subscriber) : Subscriber := { x with number := 0 }

theorem Subscriber.offerAlone (m : Message) (x : Subscriber) : x.alone.offer m = (x.offer m).alone := by
  unfold offer alone
  dsimp only
  split <;> rfl

namespace Publisher

def sole (who : Option Nat) (p : Publisher) : Publisher :=
  ⟨1, (p.subscribers.filter fun x => some x.number = who).map Subscriber.alone, p.gone⟩

def Passes : Publisher → List Message → Prop
  | _, [] => True
  | p, m :: rest => (p.publish m).2 ≠ .crashed ∧ (p.publish m).1.Passes rest

theorem passesAppend {p : Publisher} {left right : List Message} :
    p.Passes (left ++ right) ↔ p.Passes left ∧ (p.publishAll left).Passes right := by
  induction left generalizing p with
  | nil => exact (iff_of_eq (true_and _)).symm
  | cons m left ih => simp only [List.cons_append, Passes, publishAllCons, ih, and_assoc]

theorem publishAllAppend (p : Publisher) (left right : List Message) :
    p.publishAll (left ++ right) = (p.publishAll left).publishAll right := List.foldl_append

theorem calmOfPassed {p : Publisher} {m : Message} (passes : (p.publish m).2 ≠ .crashed) :
    ∀ x ∈ p.subscribers, Subscriber.calm m x := by
  have delivered : (p.publish m).2 = _ := deliverDelivery m p.subscribers
  by_cases all : unreached m p.subscribers = []
  · exact List.dropWhile_eq_nil_iff.mp all
  · rw [if_neg all] at delivered
    exact (passes delivered).elim

theorem soleCalm {p : Publisher} {m : Message} (calm : ∀ x ∈ p.subscribers, Subscriber.calm m x)
    (who : Option Nat) : ∀ x ∈ (p.sole who).subscribers, Subscriber.calm m x := by
  intro y mem
  obtain ⟨x, own, rfl⟩ := List.mem_map.mp mem
  exact calm x (List.mem_filter.mp own).1

theorem publishSole {p : Publisher} {m : Message} (passes : (p.publish m).2 ≠ .crashed) (who : Option Nat) :
    ((p.sole who).publish m).1 = (p.publish m).1.sole who ∧ ((p.sole who).publish m).2 ≠ .crashed := by
  have calm := calmOfPassed passes
  obtain ⟨left, _⟩ := deliverCalm calm
  obtain ⟨right, passed⟩ := deliverCalm (soleCalm calm who)
  refine ⟨?_, passed⟩
  have same : (deliver m (p.sole who).subscribers).1 =
      ((deliver m p.subscribers).1.filter fun x => some x.number = who).map Subscriber.alone := by
    rw [left, right]
    unfold sole
    dsimp only
    induction p.subscribers with
    | nil => rfl
    | cons x rest ih =>
      have offered := Subscriber.offerAlone m x
      have kept : x.alone.live = x.live := rfl
      cases live : x.live <;> by_cases own : some x.number = who <;> simp [live, own, kept, offered, ih]
  exact congrArg (fun subscribers => (⟨1, subscribers, p.gone⟩ : Publisher)) same

theorem publishAllSole {p : Publisher} {ms : List Message} (passes : p.Passes ms) (who : Option Nat) :
    (p.sole who).Passes ms ∧ (p.sole who).publishAll ms = (p.publishAll ms).sole who := by
  induction ms generalizing p with
  | nil => exact ⟨trivial, rfl⟩
  | cons m rest ih =>
    obtain ⟨first, later⟩ := passes
    obtain ⟨same, passed⟩ := publishSole first who
    obtain ⟨pass, reached⟩ := ih later
    rw [← same] at pass reached
    exact ⟨⟨passed, pass⟩, reached⟩

theorem publishAllNumbered {p : Publisher} (numbered : p.Numbered) (ms : List Message) :
    (p.publishAll ms).Numbered ∧ (p.publishAll ms).created = p.created := by
  induction ms generalizing p with
  | nil => exact ⟨numbered, rfl⟩
  | cons m rest ih => exact ih (numbered.publish m)

theorem subscribeSoleOther {p : Publisher} {who : Option Nat} (other : some p.created ≠ who) (filter : Filter) :
    (p.subscribe filter).1.sole who = p.sole who := by
  simp [sole, subscribe, other]

theorem updateOwned (p : Publisher) (who : Option Nat) (number : Nat) {f : Subscriber → Subscriber}
    (keeps : ∀ x, (f x).number = x.number) :
    ((p.update number f).subscribers.filter fun x => some x.number = who) =
      (p.subscribers.filter fun x => some x.number = who).map fun x => if x.number = number then f x else x := by
  have same : (fun x : Subscriber => decide (some x.number = who)) ∘
      (fun x => if x.number = number then f x else x) = fun x => decide (some x.number = who) := by
    funext x
    by_cases own : x.number = number <;> simp [own, keeps]
  unfold update
  rw [List.filter_map, same]

theorem updateSoleOther (p : Publisher) {who : Option Nat} {number : Nat} (other : some number ≠ who)
    {f : Subscriber → Subscriber} (keeps : ∀ x, (f x).number = x.number) :
    (p.update number f).sole who = p.sole who := by
  have untouched : ∀ x ∈ p.subscribers.filter (fun x => some x.number = who),
      (if x.number = number then f x else x) = x := by
    intro x mem
    have own : some x.number = who := by simpa using (List.mem_filter.mp mem).2
    exact if_neg fun same : x.number = number => other (same ▸ own)
  unfold sole
  rw [updateOwned p who number keeps, List.map_congr_left untouched, List.map_id']
  rfl

theorem subscribeSole {p : Publisher} (numbered : p.Numbered) (filter : Filter) :
    (p.subscribe filter).1.sole (some p.created) = { p.sole none with subscribers := [⟨0, filter, true, []⟩] } := by
  have fresh : (p.subscribers.filter fun x => some x.number = some p.created) = [] := by
    apply List.filter_eq_nil_iff.mpr
    intro x mem same
    have less := numbered.known x mem
    simp at same
    omega
  unfold sole subscribe
  dsimp only
  rw [List.filter_append, fresh]
  simp [Subscriber.alone]

theorem soleQueue (p : Publisher) (number : Nat) : (p.sole (some number)).queue 0 = p.queue number := by
  unfold queue sole
  dsimp only
  rw [List.find?_map, List.find?_filter]
  simp [Subscriber.alone, Function.comp_def]

theorem updateSole (p : Publisher) (number : Nat) {f : Subscriber → Subscriber}
    (keeps : ∀ x, (f x).number = x.number) (blind : ∀ x : Subscriber, f x.alone = (f x).alone) :
    (p.update number f).sole (some number) = (p.sole (some number)).update 0 f := by
  have own : ∀ x ∈ p.subscribers.filter (fun x => some x.number = some number),
      ((if x.number = number then f x else x).alone) = f x.alone := by
    intro x mem
    have same : x.number = number := by simpa using (List.mem_filter.mp mem).2
    rw [if_pos same, blind]
  unfold sole
  rw [updateOwned p (some number) number keeps, List.map_map]
  unfold update
  dsimp only
  rw [List.map_map]
  exact congrArg (fun subscribers => (⟨1, subscribers, p.gone⟩ : Publisher)) (List.map_congr_left own)

theorem requeueSole (p : Publisher) (number : Nat) (queue : List Message) :
    (p.update number fun x => { x with queue }).sole (some number) =
      (p.sole (some number)).update 0 fun x => { x with queue } :=
  updateSole p number (f := fun x => { x with queue }) (fun _ => rfl) fun _ => rfl

theorem unsubscribeSole (p : Publisher) (number : Nat) :
    (p.unsubscribe number).sole (some number) = (p.sole (some number)).unsubscribe 0 :=
  updateSole p number (f := fun x => { x with live := false, queue := [] }) (fun _ => rfl) fun _ => rfl

theorem pollSole (p : Publisher) (number : Nat) : (p.sole (some number)).poll 0 =
    ((p.poll number).1.sole (some number), (p.poll number).2) := by
  unfold poll
  rw [soleQueue]
  split
  · rfl
  · rename_i m rest _
    exact congrArg (·, Poll.message m) (requeueSole p number rest).symm

theorem drainSole (p : Publisher) (number : Nat) : (p.sole (some number)).drain 0 =
    ((p.drain number).1.sole (some number), (p.drain number).2) := by
  unfold drain
  rw [soleQueue, requeueSole]

theorem pollSoleOther (p : Publisher) {who : Option Nat} {number : Nat} (other : some number ≠ who) :
    (p.poll number).1.sole who = p.sole who := by
  unfold poll
  split
  · rfl
  · exact updateSoleOther p other fun _ => rfl

end Publisher
end AccountWatch
