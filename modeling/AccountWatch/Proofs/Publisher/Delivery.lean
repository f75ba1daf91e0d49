import AccountWatch.Publisher.Basic
import Mathlib.Data.List.TakeWhile

/-! What a publication leaves of the list of subscribers. It goes as far as the first filter that crashes: of
the subscribers before that one the dropped ones are gone and the others were offered the message, and
from that one on nothing has changed. No filter crashes on the dropped ones, which are not asked. -/
namespace AccountWatch

namespace Subscriber

def calm (m : Message) (x : Subscriber) : Bool := !x.live || x.filter m != .crash

def offer (m : Message) (x : Subscriber) : Subscriber :=
  if x.filter m = .accept then { x with queue := x.queue ++ [m] } else x

@[simp] theorem offerNumber (m : Message) (x : Subscriber) : (x.offer m).number = x.number := by
  unfold offer
  split <;> rfl

@[simp] theorem offerFilter (m : Message) (x : Subscriber) : (x.offer m).filter = x.filter := by
  unfold offer
  split <;> rfl

@[simp] theorem offerLive (m : Message) (x : Subscriber) : (x.offer m).live = x.live := by
  unfold offer
  split <;> rfl

theorem offerQueue (m : Message) (x : Subscriber) :
    (x.offer m).queue = x.queue ++ if x.filter m = .accept then [m] else [] := by
  unfold offer
  split
  · rfl
  · exact (List.append_nil _).symm

end Subscriber

open Subscriber (calm offer)

def passed (m : Message) (xs : List Subscriber) : List Subscriber := xs.takeWhile (calm m)

def unreached (m : Message) (xs : List Subscriber) : List Subscriber := xs.dropWhile (calm m)

theorem passedUnreached (m : Message) (xs : List Subscriber) : passed m xs ++ unreached m xs = xs :=
  List.takeWhile_append_dropWhile

theorem deliverSubscribers (m : Message) (xs : List Subscriber) :
    (deliver m xs).1 = ((passed m xs).filter Subscriber.live).map (offer m) ++ unreached m xs := by
  unfold passed unreached
  induction xs with
  | nil => rfl
  | cons x rest ih =>
    unfold deliver
    cases live : x.live with
    | false => simp [calm, live, ih]
    | true =>
      cases verdict : x.filter m with
      | crash => simp [calm, live, verdict]
      | reject => simp [calm, live, verdict, offer, ih]
      | accept => simp [calm, live, verdict, offer, Subscriber.push, ih]

theorem deliverDelivery (m : Message) (xs : List Subscriber) :
    (deliver m xs).2 = if unreached m xs = [] then
      .delivered (xs.countP fun x => x.live && x.filter m == .accept) else .crashed := by
  unfold unreached
  induction xs with
  | nil => rfl
  | cons x rest ih =>
    unfold deliver
    cases live : x.live with
    | false => simpa [calm, live] using ih
    | true =>
      cases verdict : x.filter m with
      | crash => simp [calm, live, verdict]
      | reject => simpa [calm, live, verdict] using ih
      | accept =>
        simp only [Bool.not_true, Bool.false_eq_true, if_false, ih]
        split <;> rename_i stopped <;> simp [calm, live, verdict, Delivery.next, stopped]

theorem passedAll {m : Message} {xs : List Subscriber} (calms : ∀ x ∈ xs, calm m x) :
    passed m xs = xs ∧ unreached m xs = [] :=
  ⟨List.takeWhile_eq_self_iff.mpr calms, List.dropWhile_eq_nil_iff.mpr calms⟩

theorem deliverCalm {m : Message} {xs : List Subscriber} (calms : ∀ x ∈ xs, calm m x) :
    (deliver m xs).1 = (xs.filter Subscriber.live).map (offer m) ∧ (deliver m xs).2 ≠ .crashed := by
  obtain ⟨passes, stops⟩ := passedAll calms
  rw [deliverSubscribers, deliverDelivery, passes, stops]
  exact ⟨List.append_nil _, nofun⟩

theorem deliverNumbers (m : Message) (xs : List Subscriber) :
    ((deliver m xs).1.map Subscriber.number).Sublist (xs.map Subscriber.number) := by
  conv => rhs; rw [← passedUnreached m xs, List.map_append]
  rw [deliverSubscribers, List.map_append, List.map_map]
  have same : Subscriber.number ∘ offer m = Subscriber.number := funext (Subscriber.offerNumber m)
  rw [same]
  exact (List.filter_sublist.map Subscriber.number).append (List.Sublist.refl _)

theorem deliverLive (m : Message) (xs : List Subscriber) : (deliver m xs).1.filter Subscriber.live =
    ((passed m xs).filter Subscriber.live).map (offer m) ++ (unreached m xs).filter Subscriber.live := by
  rw [deliverSubscribers, List.filter_append, List.filter_map]
  have same : Subscriber.live ∘ offer m = Subscriber.live := funext (Subscriber.offerLive m)
  rw [same, List.filter_filter]
  simp

namespace Publisher

def publishAll (p : Publisher) (ms : List Message) : Publisher := ms.foldl (fun p m => (p.publish m).1) p

@[simp] theorem publishAllNil (p : Publisher) : p.publishAll [] = p := rfl

@[simp] theorem publishAllCons (p : Publisher) (m : Message) (rest : List Message) :
    p.publishAll (m :: rest) = (p.publish m).1.publishAll rest := rfl

def Calm (p : Publisher) : Prop := ∀ x ∈ p.subscribers, x.live → ∀ m, x.filter m ≠ .crash

theorem publishCalm {p : Publisher} {m : Message}
    (calm : ∀ x ∈ p.subscribers, x.live → x.filter m ≠ .crash) :
    (p.publish m).1.subscribers = (p.subscribers.filter Subscriber.live).map (offer m) ∧
      (p.publish m).2 ≠ .crashed := by
  refine deliverCalm fun x mem => ?_
  cases live : x.live <;> simp_all [Subscriber.calm]

theorem Calm.publish {p : Publisher} (calm : p.Calm) (m : Message) : (p.publish m).1.Calm := by
  intro y mem _
  rw [(publishCalm fun x old live => calm x old live m).1] at mem
  obtain ⟨x, kept, rfl⟩ := List.mem_map.mp mem
  obtain ⟨old, live⟩ := List.mem_filter.mp kept
  rw [Subscriber.offerFilter]
  exact calm x old live

theorem Calm.reached {p : Publisher} (calm : p.Calm) (ms : List Message) {x : Subscriber}
    (mem : x ∈ p.subscribers) (live : x.live) :
    { x with queue := x.queue ++ ms.filter fun m => x.filter m = .accept } ∈
      (p.publishAll ms).subscribers := by
  induction ms generalizing p x with
  | nil => simpa using mem
  | cons m rest ih =>
    have offered : x.offer m ∈ (p.publish m).1.subscribers := by
      rw [(publishCalm fun y old live => calm y old live m).1]
      exact List.mem_map_of_mem (List.mem_filter.mpr ⟨mem, live⟩)
    have later := ih (calm.publish m) offered (by simpa using live)
    have same : x.offer m = { x with queue := (x.offer m).queue } := by
      unfold offer
      split <;> rfl
    rw [same, Subscriber.offerQueue] at later
    by_cases accepts : x.filter m = .accept
    · simpa [accepts] using later
    · simpa [accepts] using later

end Publisher
end AccountWatch
