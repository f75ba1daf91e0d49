import AccountWatch.Proofs.Service.Sending
import Mathlib.Data.List.Nodup

/-! Payloads accounted for by updates. Everything that was handed over belongs to one update, in the order of its
requests. What an update has not handed over is in the burst that waits for it, or was in a burst
that was dropped. -/
namespace AccountWatch

def Asked.Stops (x : Asked) (b : Burst) (handed : List Request) : Prop :=
  b.caller = x.caller ∧ ∃ done, x.requests = done ++ b.current :: b.rest ∧ handed = done ++ [b.current]

theorem Asked.Stops.handed {x : Asked} {b : Burst} {handed : List Request} (stops : x.Stops b handed) :
    handed <+: x.requests := by
  obtain ⟨_, done, split, rfl⟩ := stops
  refine ⟨b.rest, ?_⟩
  rw [split, List.append_assoc, List.singleton_append]

theorem Asked.Stops.asks {x : Asked} {b : Burst} {handed : List Request} (stops : x.Stops b handed) :
    x.requests ≠ [] := by
  obtain ⟨_, done, split, _⟩ := stops
  rw [split]
  exact List.append_ne_nil_of_right_ne_nil done (List.cons_ne_nil _ _)

namespace Traffic

structure Accounted (dropped : Burst → Prop) (a : Traffic) : Prop where
  distinct : (a.asked.map Asked.caller).Nodup
  known : ∀ h ∈ a.sent, ∃ x ∈ a.asked, x.caller = h.caller
  alone : (a.bursts.map Burst.caller).Nodup
  waits : ∀ b ∈ a.bursts, ∃ x ∈ a.asked, x.Stops b (a.handedBy x.caller)
  idle : ∀ x ∈ a.asked, (∀ b ∈ a.bursts, b.caller ≠ x.caller) →
    a.handedBy x.caller = x.requests ∨ ∃ b, dropped b ∧ x.Stops b (a.handedBy x.caller)

theorem Accounted.mono {dropped more : Burst → Prop} {a : Traffic} (accounted : Accounted dropped a)
    (weaker : ∀ b, dropped b → more b) : Accounted more a := by
  refine ⟨accounted.distinct, accounted.known, accounted.alone, accounted.waits, ?_⟩
  intro x mem none
  rcases accounted.idle x mem none with whole | ⟨b, gone, stops⟩
  · exact .inl whole
  · exact .inr ⟨b, weaker b gone, stops⟩

theorem Accounted.count {dropped : Burst → Prop} {a : Traffic} (accounted : Accounted dropped a) :
    Accounted dropped a.count :=
  ⟨accounted.distinct, accounted.known, accounted.alone, accounted.waits, accounted.idle⟩

theorem Accounted.update {dropped : Burst → Prop} {a : Traffic} (accounted : Accounted dropped a)
    {x : Asked} (mem : x ∈ a.asked) :
    a.handedBy x.caller = x.requests ∨
      ∃ b, (b ∈ a.bursts ∨ dropped b) ∧ x.Stops b (a.handedBy x.caller) := by
  by_cases waiting : ∃ b ∈ a.bursts, b.caller = x.caller
  · obtain ⟨b, waits, own⟩ := waiting
    obtain ⟨y, asked, stops⟩ := accounted.waits b waits
    obtain rfl : y = x :=
      List.inj_on_of_nodup_map accounted.distinct asked mem (stops.1.symm.trans own)
    exact .inr ⟨b, .inl waits, stops⟩
  · rcases accounted.idle x mem (by simpa using waiting) with whole | ⟨b, gone, stops⟩
    · exact .inl whole
    · exact .inr ⟨b, .inr gone, stops⟩

theorem Accounted.unknown {dropped : Burst → Prop} {a : Traffic} (accounted : Accounted dropped a)
    {caller : Caller} (fresh : ∀ x ∈ a.asked, x.caller ≠ caller) : a.handedBy caller = [] := by
  unfold handedBy
  rw [List.filter_eq_nil_iff.mpr]
  · rfl
  · intro h mem own
    obtain ⟨x, asked, same⟩ := accounted.known h mem
    exact fresh x asked (same.trans (by simpa using own))

theorem Accounted.unheld {dropped : Burst → Prop} {a : Traffic} (accounted : Accounted dropped a)
    {caller : Caller} (fresh : ∀ x ∈ a.asked, x.caller ≠ caller) :
    ∀ b ∈ a.bursts, b.caller ≠ caller := by
  intro b mem own
  obtain ⟨x, asked, stops⟩ := accounted.waits b mem
  exact fresh x asked (stops.1.symm.trans own)

/-! Handing over. All updates but one are accounted for, and that one still owes some of its requests. -/

structure Owes (dropped : Burst → Prop) (x : Asked) (requests : List Request) (a : Traffic) : Prop where
  asks : x ∈ a.asked
  split : x.requests = a.handedBy x.caller ++ requests
  distinct : (a.asked.map Asked.caller).Nodup
  known : ∀ h ∈ a.sent, ∃ y ∈ a.asked, y.caller = h.caller
  alone : (a.bursts.map Burst.caller).Nodup
  others : ∀ b ∈ a.bursts, b.caller ≠ x.caller
  waits : ∀ b ∈ a.bursts, ∃ y ∈ a.asked, y.Stops b (a.handedBy y.caller)
  idle : ∀ y ∈ a.asked, y.caller ≠ x.caller → (∀ b ∈ a.bursts, b.caller ≠ y.caller) →
    a.handedBy y.caller = y.requests ∨ ∃ b, dropped b ∧ y.Stops b (a.handedBy y.caller)

theorem Owes.hands {dropped : Burst → Prop} {x : Asked} {requests : List Request} {a t : Traffic}
    (owes : Owes dropped x requests a) (hands : Hands x.caller requests a t) : Accounted dropped t := by
  have asked : t.asked = a.asked := hands.kept.1
  have apart (y : Asked) (other : y.caller ≠ x.caller) : t.handedBy y.caller = a.handedBy y.caller :=
    hands.other other
  have known : ∀ h ∈ t.sent, ∃ y ∈ t.asked, y.caller = h.caller := by
    intro h mem
    rw [asked]
    rcases hands.sent mem with old | own
    · exact owes.known h old
    · exact ⟨x, owes.asks, own.symm⟩
  have older (b : Burst) (mem : b ∈ a.bursts) : ∃ y ∈ t.asked, y.Stops b (t.handedBy y.caller) := by
    obtain ⟨y, asks, stops⟩ := owes.waits b mem
    rw [asked]
    exact ⟨y, asks, (apart y fun same => owes.others b mem (stops.1.trans same)).symm ▸ stops⟩
  have still (y : Asked) (mem : y ∈ a.asked) (other : y.caller ≠ x.caller)
      (none : ∀ b ∈ a.bursts, b.caller ≠ y.caller) :
      t.handedBy y.caller = y.requests ∨ ∃ b, dropped b ∧ y.Stops b (t.handedBy y.caller) := by
    rw [apart y other]
    exact owes.idle y mem other none
  rcases hands.own with ⟨handed, bursts⟩ | ⟨done, current, rest, accepted, split, handed, bursts⟩
  · refine ⟨asked ▸ owes.distinct, known, bursts ▸ owes.alone, bursts ▸ older, ?_⟩
    intro y mem none
    rw [asked] at mem
    by_cases same : y.caller = x.caller
    · obtain rfl : y = x := List.inj_on_of_nodup_map owes.distinct mem owes.asks same
      exact .inl (handed.trans owes.split.symm)
    · exact still y mem same (bursts ▸ none)
  · refine ⟨asked ▸ owes.distinct, known, ?_, ?_, ?_⟩
    · rw [bursts, List.map_append, List.map_singleton]
      refine owes.alone.append (List.nodup_singleton _) ?_
      intro caller old new
      obtain ⟨b, mem, rfl⟩ := List.mem_map.mp old
      exact owes.others b mem (List.mem_singleton.mp new)
    · intro b mem
      rw [bursts] at mem
      rcases List.mem_append.mp mem with old | new
      · exact older b old
      · rw [List.mem_singleton.mp new]
        refine ⟨x, asked ▸ owes.asks, rfl, a.handedBy x.caller ++ done, ?_, ?_⟩
        · rw [owes.split, split, List.append_assoc]
        · rw [handed, List.append_assoc]
    · intro y mem none
      rw [asked] at mem
      rw [bursts] at none
      have other : y.caller ≠ x.caller := fun same =>
        none _ (List.mem_append_right _ List.mem_cons_self) same.symm
      exact still y mem other fun b mem => none b (List.mem_append_left _ mem)

theorem Accounted.begins {dropped : Burst → Prop} {a : Traffic} (accounted : Accounted dropped a)
    {x : Asked} (fresh : ∀ y ∈ a.asked, y.caller ≠ x.caller) : Owes dropped x x.requests (a.ask x) := by
  have nothing : (a.ask x).handedBy x.caller = [] := accounted.unknown fresh
  have old {y : Asked} (mem : y ∈ a.asked) : y ∈ (a.ask x).asked := List.mem_append_left _ mem
  refine ⟨List.mem_append_right _ List.mem_cons_self, ?_, ?_, ?_, accounted.alone,
    accounted.unheld fresh, ?_, ?_⟩
  · rw [nothing, List.nil_append]
  · change ((a.asked ++ [x]).map Asked.caller).Nodup
    rw [List.map_append, List.map_singleton]
    refine accounted.distinct.append (List.nodup_singleton _) ?_
    intro caller asked new
    obtain ⟨y, mem, rfl⟩ := List.mem_map.mp asked
    exact fresh y mem (List.mem_singleton.mp new)
  · intro h mem
    obtain ⟨y, asked, same⟩ := accounted.known h mem
    exact ⟨y, old asked, same⟩
  · intro b mem
    obtain ⟨y, asked, stops⟩ := accounted.waits b mem
    exact ⟨y, old asked, stops⟩
  · intro y mem other none
    rcases List.mem_append.mp mem with asked | new
    · exact accounted.idle y asked none
    · exact (other (congrArg Asked.caller (List.mem_singleton.mp new))).elim

theorem withoutOther {a : Traffic} {caller : Caller} {b : Burst} (other : b.caller ≠ caller) :
    b ∈ (a.without caller).bursts ↔ b ∈ a.bursts := List.mem_eraseP_of_neg (by simpa using other)

theorem withoutOwn {a : Traffic} (alone : (a.bursts.map Burst.caller).Nodup) (caller : Caller) :
    ∀ b ∈ (a.without caller).bursts, b.caller ≠ caller := by
  intro b mem own
  have erased : (a.without caller).bursts.map Burst.caller = (a.bursts.map Burst.caller).erase caller := by
    rw [List.erase_eq_eraseP', List.eraseP_map]
    rfl
  have left : caller ∈ (a.bursts.map Burst.caller).erase caller := by
    rw [← erased]
    exact List.mem_map.mpr ⟨b, mem, own⟩
  exact alone.not_mem_erase left

theorem Accounted.answers {dropped : Burst → Prop} {a : Traffic} (accounted : Accounted dropped a)
    {b : Burst} (mem : b ∈ a.bursts) :
    ∃ x, b.caller = x.caller ∧ Owes dropped x b.rest (a.without b.caller) := by
  obtain ⟨x, asks, own, done, split, handed⟩ := accounted.waits b mem
  have removed := withoutOwn accounted.alone b.caller
  refine ⟨x, own, asks, ?_, accounted.distinct, accounted.known, ?_, own ▸ removed, ?_, ?_⟩
  · change x.requests = a.handedBy x.caller ++ b.rest
    rw [handed, split, List.append_assoc, List.singleton_append]
  · exact accounted.alone.sublist (List.eraseP_sublist.map _)
  · intro c waits
    exact accounted.waits c ((withoutOther (removed c waits)).mp waits)
  · intro y mem other none
    refine accounted.idle y mem fun c waits same => none c ?_ same
    exact (withoutOther fun same' => other (same.symm.trans (same'.trans own))).mpr waits

theorem Accounted.aborts {dropped : Burst → Prop} {a : Traffic} (accounted : Accounted dropped a)
    (handle : Option Nat) :
    Accounted (fun b => dropped b ∨ b ∈ a.bursts ∧ ∃ stream, b.caller = .listener stream)
      (a.abort handle) := by
  cases handle with
  | none => exact accounted.mono fun b gone => .inl gone
  | some stream =>
    refine ⟨accounted.distinct, accounted.known, ?_, ?_, ?_⟩
    · exact accounted.alone.sublist (List.filter_sublist.map _)
    · exact fun b mem => accounted.waits b (abortBursts mem).1
    · intro x asks none
      rcases accounted.update asks with whole | ⟨b, waits | gone, stops⟩
      · exact .inl whole
      · refine .inr ⟨b, .inr ⟨waits, stream, ?_⟩, stops⟩
        by_contra kept
        exact none b (List.mem_filter.mpr ⟨waits, by simpa using kept⟩) stops.1
      · exact .inr ⟨b, .inl gone, stops⟩

end Traffic
end AccountWatch
