import AccountWatch.Text
import Mathlib.Data.List.TakeWhile

/-! Texts in parts: characters of one class in front of a text that goes on with another character, and a text between
the blanks that trimming takes away. -/
namespace AccountWatch.Text

theorem takeRun {p : Char → Bool} {run rest : List Char} (all : ∀ c ∈ run, p c)
    (stops : ∀ c ∈ rest.head?, p c = false) :
    (run ++ rest).takeWhile p = run ∧ (run ++ rest).dropWhile p = rest := by
  rw [List.takeWhile_append_of_pos all, List.dropWhile_append_of_pos all]
  cases rest with
  | nil => simp
  | cons c rest => simp [stops c rfl]

theorem runStops (p : Char → Bool) (s : List Char) : ∀ c ∈ (s.dropWhile p).head?, p c = false := by
  intro c first
  have stops := List.head?_dropWhile_not p s
  rwa [Option.mem_def.mp first] at stops

theorem splitRun (p : Char → Bool) (s : List Char) : s = s.takeWhile p ++ s.dropWhile p :=
  List.takeWhile_append_dropWhile.symm

theorem dropBlank {s : List Char} (blank : ∀ c ∈ s, isBlank c) (rest : List Char) :
    (s ++ rest).dropWhile isBlank = rest.dropWhile isBlank := List.dropWhile_append_of_pos blank

theorem dropSolid {s : List Char} (solid : ∀ c ∈ s, isBlank c = false) : s.dropWhile isBlank = s := by
  cases s with
  | nil => rfl
  | cons c s => exact List.dropWhile_cons_of_neg (by simp [solid c List.mem_cons_self])

theorem trimBetween {before s after : List Char} (ahead : ∀ c ∈ before, isBlank c)
    (solid : ∀ c ∈ s, isBlank c = false) (behind : ∀ c ∈ after, isBlank c) : trim (before ++ (s ++ after)) = s := by
  have back : ∀ c ∈ after.reverse, isBlank c := fun c mem => behind c (List.mem_reverse.mp mem)
  have turned : ∀ c ∈ s.reverse, isBlank c = false := fun c mem => solid c (List.mem_reverse.mp mem)
  unfold trim
  rw [dropBlank ahead]
  cases s with
  | nil =>
    have none := dropBlank behind []
    rw [List.append_nil] at none
    rw [List.nil_append, none]
    rfl
  | cons c s =>
    have first : isBlank c = false := solid c List.mem_cons_self
    rw [List.cons_append, List.dropWhile_cons_of_neg (by simp [first]), ← List.cons_append, List.reverse_append,
      dropBlank back, dropSolid turned, List.reverse_reverse]

theorem trimSplit (s : List Char) : ∃ before after, s = before ++ (trim s ++ after) ∧
    (∀ c ∈ before, isBlank c) ∧ ∀ c ∈ after, isBlank c := by
  let rest := s.dropWhile isBlank
  have back : trim s ++ (rest.reverse.takeWhile isBlank).reverse = rest := by
    rw [trim, ← List.reverse_append, List.takeWhile_append_dropWhile, List.reverse_reverse]
  refine ⟨s.takeWhile isBlank, (rest.reverse.takeWhile isBlank).reverse, ?_, fun _ => List.mem_takeWhile_imp,
    fun _ mem => List.mem_takeWhile_imp (List.mem_reverse.mp mem)⟩
  rw [back, List.takeWhile_append_dropWhile]

end AccountWatch.Text
