import AccountWatch.Session
import Mathlib.Data.List.Induction

/-! What a session has been told. Of the messages that it observed only the last subscribe message counts, and of the
addresses that it was given only the last; neither depends on what else came between. -/
namespace AccountWatch

def Message.update? : Message → Option AccountUpdate
  | .subscribe update => some update
  | _ => none

namespace Session

def lastCount (ms : List Message) (before : Option UInt64) : Option UInt64 :=
  ((ms.filterMap Message.update?).getLast?.map AccountUpdate.blockCount).getD before

theorem lastCountConcat (ms : List Message) (m : Message) (before : Option UInt64) :
    lastCount (ms ++ [m]) before = (m.update?.map AccountUpdate.blockCount).getD (lastCount ms before) := by
  unfold lastCount
  cases m <;> simp [Message.update?, List.filterMap_append]

theorem observeCount (s : Session) (m : Message) :
    s.observe m = { s with blockCount := (m.update?.map AccountUpdate.blockCount).getD s.blockCount } := by
  cases m <;> rfl

inductive Operation where
  | setAddress (address : Address)
  | clearAddress
  | observe (m : Message)
  deriving DecidableEq, Repr

def Operation.address? : Operation → Option (Option Address)
  | .setAddress address => some (some address)
  | .clearAddress => some none
  | .observe _ => none

def Operation.update? : Operation → Option AccountUpdate
  | .observe m => m.update?
  | .setAddress _ | .clearAddress => none

def apply (s : Session) : Operation → Session
  | .setAddress address => s.setAddress (some address)
  | .clearAddress => s.setAddress none
  | .observe m => s.observe m

def after (s : Session) (history : List Operation) : Session := history.foldl apply s

theorem applied (s : Session) (o : Operation) : s.apply o = { s with
    address := o.address?.getD s.address
    blockCount := (o.update?.map AccountUpdate.blockCount).getD s.blockCount } := by
  cases o with
  | setAddress | clearAddress => rfl
  | observe m => exact observeCount s m

theorem afterHistory (s : Session) (history : List Operation) : s.after history = { s with
    address := (history.filterMap Operation.address?).getLast?.getD s.address
    blockCount := ((history.filterMap Operation.update?).getLast?.map AccountUpdate.blockCount).getD
      s.blockCount } := by
  induction history using List.reverseRecOn with
  | nil => rfl
  | append_singleton history o ih =>
    have last : s.after (history ++ [o]) = (s.after history).apply o := List.foldl_append
    rw [last, applied, ih, List.filterMap_append, List.filterMap_append, List.filterMap_cons, List.filterMap_cons]
    cases o.address? <;> cases o.update? <;> simp

theorem heldAfterHistory (fallback : UInt64) (history : List Operation) :
    let s := (start fallback).after history
    let address := (history.filterMap Operation.address?).getLast?.join
    let count := ((history.filterMap Operation.update?).getLast?.bind AccountUpdate.blockCount).getD fallback
    s.address = address ∧ s.effectiveCount = count ∧
      ∀ currency, s.requests? currency = address.map fun account =>
        [.subscribe account currency, .price currency, .price "BTC", .history account count] := by
  intro s address count
  have reached := afterHistory (start fallback) history
  have held : s.address = address := by
    unfold s address
    rw [reached]
    cases (history.filterMap Operation.address?).getLast? <;> rfl
  have counted : s.effectiveCount = count := by
    unfold s count
    rw [reached]
    cases (history.filterMap Operation.update?).getLast? <;> rfl
  refine ⟨held, counted, fun currency => ?_⟩
  unfold requests?
  rw [held, counted]
  rfl

end Session
end AccountWatch
