import AccountWatch.Uri
import Mathlib.Data.List.DropRight
import Mathlib.Tactic.SplitIfs

/-! Authorities, said of their text. The scan keeps a few flags and a number, and all of them can be told from the text
read so far; so what may follow a character, and where an authority may end, depends on the text before it only. -/
namespace AccountWatch.Uri

def endsStretch (c : Char) : Bool := c = '@' || c = ']'

def stretch (s : List Char) : List Char := s.rtakeWhile (!endsStretch ·)

theorem stretchEnds {c : Char} (ends : endsStretch c) (s : List Char) : stretch (s ++ [c]) = [] :=
  List.rtakeWhile_concat_neg (fun c => !endsStretch c) s c (by simp [ends])

theorem stretchGrows {c : Char} (goesOn : endsStretch c = false) (s : List Char) :
    stretch (s ++ [c]) = stretch s ++ [c] :=
  List.rtakeWhile_concat_pos (fun c => !endsStretch c) s c (by simp [goesOn])

structure Follows (before : List Char) (c : Char) : Prop where
  known : isAuthorityChar c
  colon : c = ':' → (stretch before).count ':' < colonLimit
  opening : c = '[' → '[' ∉ before ∧ '%' ∉ stretch before
  closing : c = ']' → '[' ∈ before ∧ ']' ∉ before

structure Ends (s : List Char) : Prop where
  paired : '[' ∈ s ↔ ']' ∈ s
  port : (stretch s).count ':' ≤ 1
  named : s.getLast? ≠ some '@'
  plain : '%' ∉ stretch s

def Continues (before s : List Char) : Prop :=
  ∀ ahead c after, s = ahead ++ c :: after → Follows (before ++ ahead) c

structure IsAuthority (s : List Char) : Prop where
  continues : Continues [] s
  ends : Ends s

theorem continuesCons {before rest : List Char} {c : Char} :
    Continues before (c :: rest) ↔ Follows before c ∧ Continues (before ++ [c]) rest := by
  constructor
  · intro given
    refine ⟨?_, fun ahead d after same => ?_⟩
    · have first := given [] c rest rfl
      rwa [List.append_nil] at first
    · have later := given (c :: ahead) d after (same ▸ rfl)
      rwa [List.append_cons] at later
  · rintro ⟨first, others⟩ ahead d after same
    cases ahead with
    | nil =>
      obtain ⟨rfl, rfl⟩ := List.cons.inj same
      rwa [List.append_nil]
    | cons e ahead =>
      obtain ⟨rfl, split⟩ := List.cons.inj same
      rw [List.append_cons]
      exact others ahead d after split

def remembered (s : List Char) : Scan where
  colons := (stretch s).count ':'
  percent := '%' ∈ stretch s
  opened := '[' ∈ s
  closed := ']' ∈ s
  atSign := s.getLast? = some '@'

theorem followsColon (before : List Char) : Follows before ':' ↔ (remembered before).colons < colonLimit :=
  ⟨fun given => given.colon rfl, fun few => ⟨by decide, fun _ => few, by simp, by simp⟩⟩

theorem followsOpening (before : List Char) :
    Follows before '[' ↔ ((remembered before).percent || (remembered before).opened) = false := by
  have first : ((remembered before).percent || (remembered before).opened) = false ↔
      '[' ∉ before ∧ '%' ∉ stretch before := by simp [remembered, and_comm]
  rw [first]
  exact ⟨fun given => given.opening rfl, fun given => ⟨by decide, by simp, fun _ => given, by simp⟩⟩

theorem followsClosing (before : List Char) :
    Follows before ']' ↔ (!(remembered before).opened || (remembered before).closed) = false := by
  have first : (!(remembered before).opened || (remembered before).closed) = false ↔
      '[' ∈ before ∧ ']' ∉ before := by simp [remembered]
  rw [first]
  exact ⟨fun given => given.closing rfl, fun given => ⟨by decide, by simp, by simp, fun _ => given⟩⟩

theorem followsPlain {before : List Char} {c : Char} (colon : c ≠ ':') (opening : c ≠ '[') (closing : c ≠ ']') :
    Follows before c ↔ isAuthorityChar c :=
  ⟨Follows.known, fun known => ⟨known, fun same => (colon same).elim, fun same => (opening same).elim,
    fun same => (closing same).elim⟩⟩

theorem rememberedGrows {c : Char} (goesOn : endsStretch c = false) (s : List Char) : remembered (s ++ [c]) =
    { remembered s with
      colons := (remembered s).colons + if c = ':' then 1 else 0
      percent := (remembered s).percent || c = '%'
      opened := (remembered s).opened || c = '['
      atSign := false } := by
  have breaks : c ≠ '@' ∧ c ≠ ']' := by simpa [endsStretch] using goesOn
  have turned (d : Char) : d = c ↔ c = d := eq_comm
  simp [remembered, stretchGrows goesOn, breaks, turned, List.count_singleton]

theorem rememberedEnds {c : Char} (ends : endsStretch c) (s : List Char) : remembered (s ++ [c]) =
    ⟨0, false, (remembered s).opened, (remembered s).closed || c = ']', c = '@'⟩ := by
  have breaks : c = '@' ∨ c = ']' := by simpa [endsStretch] using ends
  rcases breaks with rfl | rfl <;> simp [remembered, stretchEnds ends]

theorem nextIff {before : List Char} {c : Char} {scan : Scan} : (remembered before).next c = .ok scan ↔
    Follows before c ∧ remembered (before ++ [c]) = scan := by
  unfold Scan.next
  by_cases known : isAuthorityChar c
  case neg => exact iff_of_false (by simp [known]) fun given => known given.1.known
  rw [if_neg (by simp [known])]
  by_cases colon : c = ':'
  · subst colon
    rw [followsColon, rememberedGrows rfl]
    by_cases few : (remembered before).colons < colonLimit
    · simp [few, Nat.not_le.mpr few]
    · simp [few, Nat.not_lt.mp few]
  by_cases opening : c = '['
  · subst opening
    rw [followsOpening, rememberedGrows rfl]
    cases (remembered before).percent || (remembered before).opened <;> simp
  by_cases closing : c = ']'
  · subst closing
    rw [followsClosing, rememberedEnds rfl]
    cases !(remembered before).opened || (remembered before).closed <;> simp
  rw [followsPlain colon opening closing, and_iff_right known]
  by_cases named : c = '@'
  · subst named
    rw [rememberedEnds rfl]
    simp
  · rw [rememberedGrows (by simp [endsStretch, named, closing])]
    by_cases percent : c = '%' <;> simp [colon, opening, closing, named, percent]

theorem scanCons {before rest : List Char} {c : Char} {scan : Scan} :
    scanAuthority (remembered before) (c :: rest) = .ok scan ↔
      Follows before c ∧ scanAuthority (remembered (before ++ [c])) rest = .ok scan := by
  rw [scanAuthority]
  cases read : (remembered before).next c with
  | error e => exact iff_of_false nofun fun given => nomatch read.symm.trans (nextIff.mpr ⟨given.1, rfl⟩)
  | ok next =>
    obtain ⟨follows, rfl⟩ := nextIff.mp read
    exact (and_iff_right follows).symm

theorem scanIff {before s : List Char} {scan : Scan} : scanAuthority (remembered before) s = .ok scan ↔
    Continues before s ∧ remembered (before ++ s) = scan := by
  induction s generalizing before with
  | nil => simp [scanAuthority, Continues]
  | cons c rest ih => rw [scanCons, ih, continuesCons, and_assoc, List.append_assoc, List.singleton_append]

theorem acceptedIff {s : List Char} : (remembered s).accepted ↔ Ends s := by
  unfold Scan.accepted remembered
  simp only [Bool.and_eq_true, beq_iff_eq, decide_eq_true_eq, Bool.not_eq_true', decide_eq_false_iff_not,
    decide_eq_decide]
  exact ⟨fun ⟨⟨⟨paired, port⟩, named⟩, plain⟩ => ⟨paired, port, named, plain⟩,
    fun ⟨paired, port, named, plain⟩ => ⟨⟨⟨paired, port⟩, named⟩, plain⟩⟩

theorem IsAuthority.known {s : List Char} (authority : IsAuthority s) {c : Char} (mem : c ∈ s) : isAuthorityChar c := by
  obtain ⟨before, after, split⟩ := List.append_of_mem mem
  exact (authority.continues before c after split).known

theorem IsAuthority.closes {before after : List Char} (authority : IsAuthority (before ++ '[' :: after)) :
    ']' ∈ after := by
  have first : '[' ∉ before := ((authority.continues before '[' after rfl).opening rfl).1
  have closed := authority.ends.paired.mp (List.mem_append_right _ List.mem_cons_self)
  rcases List.mem_append.mp closed with early | late
  · obtain ⟨ahead, more, split⟩ := List.append_of_mem early
    subst split
    have opened : '[' ∈ ahead := ((authority.continues ahead ']' (more ++ '[' :: after) (by simp)).closing rfl).1
    exact (first (List.mem_append_left _ opened)).elim
  · exact (List.mem_cons.mp late).resolve_left (by decide)

theorem authorityIff {s : List Char} :
    (∃ scan, scanAuthority .start s = .ok scan ∧ scan.accepted) ↔ IsAuthority s := by
  have start : Scan.start = remembered [] := by decide
  rw [start]
  constructor
  · rintro ⟨scan, read, accepted⟩
    obtain ⟨continues, rfl⟩ := scanIff.mp read
    exact ⟨continues, acceptedIff.mp accepted⟩
  · rintro ⟨continues, ends⟩
    exact ⟨_, scanIff.mpr ⟨continues, rfl⟩, acceptedIff.mpr ends⟩

end AccountWatch.Uri
