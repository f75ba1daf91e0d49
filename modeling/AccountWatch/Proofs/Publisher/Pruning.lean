import AccountWatch.Proofs.Publisher.Transcript

/-! What a publication does to the list of subscribers, told as it ends: it returns and has met everybody, or it stops
at the first live subscriber whose filter crashes, and then that one and all behind it stand as they stood.
Dropped subscribers go where they are met. Nobody else does, so how many there are does not depend on it. -/
namespace AccountWatch

inductive Publication (m : Message) : List Subscriber → List Subscriber → Delivery → Prop where
  | returns {xs : List Subscriber} (calm : ∀ x ∈ xs, x.live → x.filter m ≠ .crash) :
      Publication m xs ((xs.filter Subscriber.live).map (Subscriber.offer m))
        (.delivered (xs.countP fun x => x.live && x.filter m == .accept))
  | stops {before rest : List Subscriber} {x : Subscriber} (calm : ∀ y ∈ before, y.live → y.filter m ≠ .crash)
      (live : x.live) (crash : x.filter m = .crash) :
      Publication m (before ++ x :: rest)
        ((before.filter Subscriber.live).map (Subscriber.offer m) ++ x :: rest) .crashed

namespace Publisher

theorem publication (p : Publisher) (m : Message) :
    Publication m p.subscribers (p.publish m).1.subscribers (p.publish m).2 := by
  have split := passedUnreached m p.subscribers
  have subscribers : (p.publish m).1.subscribers = _ := deliverSubscribers m p.subscribers
  have delivery : (p.publish m).2 = _ := deliverDelivery m p.subscribers
  have calm : ∀ y ∈ passed m p.subscribers, y.live → y.filter m ≠ .crash := fun _ => passedCalm
  rw [subscribers, delivery]
  cases stopped : unreached m p.subscribers with
  | nil =>
    rw [stopped, List.append_nil] at split
    rw [split] at calm ⊢
    rw [List.append_nil, if_pos rfl]
    exact .returns calm
  | cons x rest =>
    obtain ⟨live, crash⟩ := crashedHead stopped
    rw [stopped] at split
    rw [if_neg (List.cons_ne_nil x rest)]
    generalize passed m p.subscribers = before at split calm
    rw [← split]
    exact .stops calm live crash

theorem publishCount (p : Publisher) (m : Message) : (p.publish m).1.count = p.count := by
  have enrolled := congrArg List.length (publishEnrolled p m)
  rwa [List.length_map, List.length_map] at enrolled

theorem Lists.count {p : Publisher} {r : Roster} (lists : p.Lists r) : p.count = r.present.length := by
  rw [← lists.present, List.length_map]
  rfl

theorem publicationPrunes (p : Publisher) (m : Message) (events : List Event) :
    let q := (p.publish m).1
    Publication m p.subscribers q.subscribers (p.publish m).2 ∧
      (q.subscribers.filter Subscriber.live).map Subscriber.enrolment =
        (p.subscribers.filter Subscriber.live).map Subscriber.enrolment ∧
      q.count = p.count ∧
      (empty.run events).count = (Roster.start.after events).present.length :=
  ⟨publication p m, publishEnrolled p m, publishCount p m, (emptyLists.run events).count⟩

end Publisher
end AccountWatch
