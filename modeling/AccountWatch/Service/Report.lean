import AccountWatch.Service.Phase

/-! What the service reports, and receivers of the reports. A receiver starts at the end of the reports made
so far; one that falls behind by more than the capacity is told how many it lost and goes on with
the last ones. -/
namespace AccountWatch

inductive Report where
  | phase (next : Phase)
  | transportFailure (text : String)
  | malformed (text : String)
  | sendFailure (action text : String)
  deriving DecidableEq, Repr

inductive Received where
  | lagged (lost : Nat)
  | report (r : Report)
  deriving DecidableEq, Repr

structure Receiver where
  seen : Nat
  deriving DecidableEq, Repr

namespace Receiver

def capacity : Nat := 64

def start (reports : List Report) : Receiver := ⟨reports.length⟩

def next? (r : Receiver) (reports : List Report) : Option (Received × Receiver) :=
  let oldest := reports.length - capacity
  if r.seen < oldest then some (.lagged (oldest - r.seen), ⟨oldest⟩)
  else reports[r.seen]?.map fun report => (.report report, ⟨r.seen + 1⟩)

def drain (r : Receiver) (reports : List Report) : List Received × Receiver :=
  let oldest := reports.length - capacity
  let lost := if r.seen < oldest then [.lagged (oldest - r.seen)] else []
  (lost ++ (reports.drop (max r.seen oldest)).map .report, ⟨reports.length⟩)

end Receiver
end AccountWatch
