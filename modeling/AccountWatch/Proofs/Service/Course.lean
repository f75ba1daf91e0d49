import AccountWatch.Proofs.Service.Soundness
import Mathlib.Data.List.Chain

/-! The course of a connection: the phases that are reported. Every move that enters a phase follows an edge
of the lifecycle graph, since each is made at a stage whose phase allows it; and each call to the
transport goes with the one report that it makes. -/
namespace AccountWatch
open Connection (Stage Moves Path)

theorem Phase.Follows.different {p next : Phase} (edge : p.Follows next) : p ≠ next := by
  cases edge <;> exact nofun

theorem Phase.Follows.lost {p : Phase} (active : p.active) : p.Follows .closed := by
  cases p <;> first | exact .fail | exact .lose | cases active

theorem Phase.Follows.left {p : Phase} (active : p.active) : p.Follows .closing := by
  cases p <;> first | exact .cancel | exact .leave | cases active

namespace Connection

structure Charted (c : Connection) : Prop where
  follows : List.IsChain Phase.Follows (.closed :: c.course)
  last : (Phase.closed :: c.course).getLast? = some c.phase
  opens : c.opens = c.course.count .opening
  closes : c.closes = c.course.count .closing

theorem enterCourse {c : Connection} {next : Phase} (edge : c.phase.Follows next) :
    (c.enter next).course = c.course ++ [next] := by
  unfold enter
  rw [if_neg edge.different]

theorem enterCalls (c : Connection) (next : Phase) :
    (c.enter next).opens = c.opens ∧ (c.enter next).closes = c.closes := by
  rw [enterKeeps]
  exact ⟨rfl, rfl⟩

theorem Charted.next {c d : Connection} (charted : c.Charted) {next : Phase} (edge : c.phase.Follows next)
    (phase : d.phase = next) (course : d.course = c.course ++ [next])
    (opens : d.opens = c.opens + [next].count .opening)
    (closes : d.closes = c.closes + [next].count .closing) : d.Charted := by
  refine ⟨?_, ?_, ?_, ?_⟩
  · rw [course, ← List.cons_append]
    apply charted.follows.append (List.isChain_singleton next)
    intro x last y first
    rw [charted.last] at last
    cases last
    cases first
    exact edge
  · rw [course, phase, ← List.cons_append, List.getLast?_concat]
  · rw [opens, charted.opens, course, List.count_append]
  · rw [closes, charted.closes, course, List.count_append]

theorem Charted.stay {c d : Connection} (charted : c.Charted) (phase : d.phase = c.phase)
    (course : d.course = c.course) (opens : d.opens = c.opens) (closes : d.closes = c.closes) :
    d.Charted := by
  refine ⟨?_, ?_, ?_, ?_⟩
  · rw [course]; exact charted.follows
  · rw [course, phase]; exact charted.last
  · rw [opens, course]; exact charted.opens
  · rw [closes, course]; exact charted.closes

theorem Charted.move {c d : Connection} (charted : c.Charted) (stage : c.Stage) (moved : Moves c d) :
    d.Charted := by
  cases moved with
  | establish reader opening =>
    have edge : c.phase.Follows .connected := opening ▸ .establish
    obtain ⟨opens, closes⟩ := enterCalls c .connected
    exact charted.next edge (enterPhase _ _) (enterCourse edge) opens closes
  | crash reader active => exact charted.stay rfl rfl rfl rfl
  | lose reader =>
    have edge := Phase.Follows.lost (stage.read reader).2.1
    obtain ⟨opens, closes⟩ := enterCalls c .closed
    exact charted.next edge (enterPhase _ _) (enterCourse edge) opens closes
  | fade reader passive => exact charted.stay rfl rfl rfl rfl
  | dial number free down =>
    have edge : c.phase.Follows .opening := down ▸ .start
    obtain ⟨opens, closes⟩ := enterCalls c .opening
    refine charted.next edge (enterPhase _ _) (enterCourse edge) ?_ closes
    exact congrArg Nat.succ opens
  | refuse connecting =>
    have opening := (stage.dialled connecting).1
    have edge : ({ c with connecting := none } : Connection).phase.Follows .closed := opening ▸ .fail
    obtain ⟨opens, closes⟩ := enterCalls { c with connecting := none } .closed
    exact charted.next edge (enterPhase _ _) (enterCourse edge) opens closes
  | accept connecting =>
    rw [acceptKeeps]
    exact charted.stay rfl rfl rfl rfl
  | leave number free active =>
    have edge := Phase.Follows.left active
    rw [leaveKeeps]
    exact charted.next edge rfl (enterCourse edge) rfl rfl
  | @left number inside =>
    have closing := stage.closed (List.ne_nil_of_mem inside)
    have edge : ({ c with closings := c.closings.erase number } : Connection).phase.Follows .closed :=
      closing ▸ .finish
    obtain ⟨opens, closes⟩ := enterCalls { c with closings := c.closings.erase number } .closed
    exact charted.next edge (enterPhase _ _) (enterCourse edge) opens closes

theorem Charted.path {c d : Connection} (charted : c.Charted) (stage : c.Stage) (path : Path c d) :
    d.Charted := by
  induction path with
  | refl => exact charted
  | tail earlier last ih => exact ih.move (stage.path earlier) last

end Connection

theorem Phase.closedBetween {between rest : List Phase}
    (chain : List.IsChain Phase.Follows (.opening :: between ++ .opening :: rest)) : .closed ∈ between := by
  rcases List.eq_nil_or_concat between with rfl | ⟨front, last, rfl⟩
  · simp only [List.cons_append, List.nil_append, List.isChain_cons_cons] at chain
    nomatch chain.1
  · rw [List.concat_eq_append, List.cons_append, List.append_assoc, List.singleton_append,
      ← List.cons_append, List.isChain_append_cons_cons] at chain
    have edge := chain.2.1
    have same : last = .closed := by
      cases edge
      rfl
    simp [same]

theorem Phase.openingBetween {between rest : List Phase}
    (chain : List.IsChain Phase.Follows (.closing :: between ++ .closing :: rest)) : .opening ∈ between := by
  cases between with
  | nil =>
    simp only [List.cons_append, List.nil_append, List.isChain_cons_cons] at chain
    nomatch chain.1
  | cons first between =>
    simp only [List.cons_append, List.isChain_cons_cons] at chain
    obtain ⟨edge, chain⟩ := chain
    cases edge
    cases between with
    | nil =>
      simp only [List.nil_append, List.isChain_cons_cons] at chain
      nomatch chain.1
    | cons second between =>
      simp only [List.cons_append, List.isChain_cons_cons] at chain
      have edge := chain.1
      cases edge
      simp

namespace Service

/-- The reported phases are a path in the lifecycle graph that starts and ends where the connection does.
The transport is called once for every report that the connection is opening or closing, so neither
call is made twice for one connection. -/
theorem courseFollowsGraph (account : Option Address) (currency : String) (fallback : UInt64)
    (inputs : List Input) :
    let s := (start account currency fallback).run inputs
    let course := s.reports.filterMap Report.entered?
    List.IsChain Phase.Follows (.closed :: course) ∧
      s.phase = course.getLast?.getD .closed ∧
      s.transport.opens = course.count .opening ∧
      s.transport.closes = course.count .closing ∧
      (∀ before between after, course = before ++ .opening :: between ++ .opening :: after →
        .closed ∈ between) ∧
      ∀ before between after, course = before ++ .closing :: between ++ .closing :: after →
        .opening ∈ between := by
  intro s course
  have sound := startSound account currency fallback
  have first : (start account currency fallback).connection.Charted :=
    ⟨List.isChain_singleton _, rfl, rfl, rfl⟩
  have charted : s.connection.Charted := first.path sound.stage (runPath sound inputs)
  refine ⟨charted.follows, ?_, charted.opens, charted.closes, ?_, ?_⟩
  · have last := charted.last
    rw [List.getLast?_cons] at last
    exact (Option.some.inj last).symm
  · intro before between after split
    have chain : List.IsChain Phase.Follows (.closed :: course) := charted.follows
    rw [split, List.append_assoc, ← List.cons_append] at chain
    exact Phase.closedBetween chain.right_of_append
  · intro before between after split
    have chain : List.IsChain Phase.Follows (.closed :: course) := charted.follows
    rw [split, List.append_assoc, ← List.cons_append] at chain
    exact Phase.openingBetween chain.right_of_append

end Service
end AccountWatch
