import AccountWatch.Proofs.Text
import AccountWatch.Proofs.Uri.Authority

/-! The texts of resource identifiers, form by form, and that exactly these are read. A text has one form at most, since
no scheme holds a colon and no authority a slash. -/
namespace AccountWatch.Uri

/-! Paths, queries and fragments. What stands behind `#` is not looked at. -/

def Run (p : Char → Bool) (Last : List Char → Prop) (s : List Char) : Prop :=
  ∃ run rest, s = run ++ rest ∧ (∀ c ∈ run, p c) ∧ Last rest

theorem runCons {p : Char → Bool} {Last : List Char → Prop} {c : Char} {rest : List Char} :
    Run p Last (c :: rest) ↔ Last (c :: rest) ∨ p c ∧ Run p Last rest := by
  constructor
  · rintro ⟨run, behind, split, chars, last⟩
    cases run with
    | nil =>
      obtain rfl : c :: rest = behind := split
      exact .inl last
    | cons d run =>
      obtain ⟨rfl, rfl⟩ := List.cons.inj split
      obtain ⟨first, others⟩ := List.forall_mem_cons.mp chars
      exact .inr ⟨first, run, behind, rfl, others, last⟩
  · rintro (last | ⟨first, run, behind, rfl, others, last⟩)
    · exact ⟨[], _, rfl, nofun, last⟩
    · exact ⟨c :: run, behind, rfl, List.forall_mem_cons.mpr ⟨first, others⟩, last⟩

inductive IsFragment : List Char → Prop where
  | none : IsFragment []
  | mark (rest : List Char) : IsFragment ('#' :: rest)

inductive IsQuery : List Char → Prop where
  | none {s : List Char} (last : IsFragment s) : IsQuery s
  | mark {rest : List Char} (chars : Run isQueryChar IsFragment rest) : IsQuery ('?' :: rest)

inductive IsPath : List Char → Prop where
  | none {s : List Char} (behind : IsQuery s) : IsPath s
  | slash {rest : List Char} (chars : Run isPathChar IsQuery rest) : IsPath ('/' :: rest)

theorem checkQueryIff {s : List Char} : checkQuery s = .ok () ↔ Run isQueryChar IsFragment s := by
  induction s with
  | nil => exact iff_of_true rfl ⟨[], [], rfl, nofun, .none⟩
  | cons c rest ih =>
    rw [checkQuery, runCons, ← ih]
    by_cases mark : c = '#'
    · subst mark
      exact iff_of_true rfl (.inl (.mark rest))
    · have other : ¬ IsFragment (c :: rest) := by rintro ⟨⟩; exact mark rfl
      rw [if_neg mark, or_iff_right other]
      by_cases known : isQueryChar c <;> simp [known]

theorem checkPathIff {s : List Char} : checkPath s = .ok () ↔ Run isPathChar IsQuery s := by
  induction s with
  | nil => exact iff_of_true rfl ⟨[], [], rfl, nofun, .none .none⟩
  | cons c rest ih =>
    rw [checkPath, runCons, ← ih]
    by_cases query : c = '?'
    · subst query
      have behind : IsQuery ('?' :: rest) ↔ Run isQueryChar IsFragment rest :=
        ⟨fun given => by rcases given with ⟨⟨⟩⟩ | chars; exact chars, .mark⟩
      rw [if_pos rfl, behind, checkQueryIff]
      simp [show isPathChar '?' = false by decide]
    by_cases mark : c = '#'
    · subst mark
      exact iff_of_true rfl (.inl (.none (.mark rest)))
    · have other : ¬ IsQuery (c :: rest) := by
        rintro (⟨⟨⟩⟩ | _)
        · exact mark rfl
        · exact query rfl
      rw [if_neg query, if_neg mark, or_iff_right other]
      by_cases known : isPathChar c <;> simp [known]

def Bounded (s : List Char) : Prop := ∀ c ∈ s.head?, endsAuthority c

theorem endsMark {c : Char} : endsAuthority c ↔ (c = '/' ∨ c = '?') ∨ c = '#' := by simp [endsAuthority]

theorem pathIff {s : List Char} : IsPath s ↔ checkPath s = .ok () ∧ Bounded s := by
  rw [checkPathIff]
  constructor
  · rintro (behind | chars)
    · refine ⟨⟨[], s, rfl, nofun, behind⟩, ?_⟩
      rcases behind with ⟨_ | _⟩ | _ <;> simp [Bounded, endsAuthority]
    · exact ⟨runCons.mpr (.inr ⟨by decide, chars⟩), by simp [Bounded, endsAuthority]⟩
  · rintro ⟨run, bounded⟩
    cases s with
    | nil => exact .none (.none .none)
    | cons c rest =>
      rcases runCons.mp run with behind | ⟨known, chars⟩
      · exact .none behind
      · rcases endsMark.mp (bounded c rfl) with (rfl | rfl) | rfl
        · exact .slash chars
        · cases known
        · cases known

def IsWeb (s : List Char) : Prop := s.map Char.toLower = "http".toList ∨ s.map Char.toLower = "https".toList

/-- A scheme as it is held and as it is written. Two of them are known in any case of letters. -/
inductive SpellsScheme : List Char → List Char → Prop where
  | web {written : List Char} (web : IsWeb written) : SpellsScheme (written.map Char.toLower) written
  | other {written : List Char} (other : ¬ IsWeb written) (chars : ∀ c ∈ written, isSchemeChar c)
      (short : written.length ≤ schemeLimit) : SpellsScheme written written

theorem lowerCases (c : Char) : c.toLower = c ∨ 65 ≤ c.toNat ∧ c.toNat ≤ 90 ∧ c.toLower.toNat = c.toNat + 32 := by
  by_cases upper : c.val ≥ 'A'.val ∧ c.val ≤ 'Z'.val
  · have low : 65 ≤ c.toNat := UInt32.le_iff_toNat_le.mp upper.1
    have high : c.toNat ≤ 90 := UInt32.le_iff_toNat_le.mp upper.2
    have moved : c.toLower.val = c.val + 32 := congrArg Char.val (dif_pos upper)
    have small : c.val.toNat ≤ 90 := high
    refine .inr ⟨low, high, ?_⟩
    change c.toLower.val.toNat = c.val.toNat + 32
    rw [moved, UInt32.toNat_add]
    exact Nat.mod_eq_of_lt (Nat.lt_of_le_of_lt (Nat.add_le_add_right small 32) (by decide))
  · exact .inl (dif_neg upper)

theorem lowerMarks {s marks : List Char} (low : ∀ c ∈ marks, c.toNat < 97) (same : s.map Char.toLower = marks) :
    s = marks := by
  have kept : ∀ c ∈ s, c.toLower = c := by
    intro c mem
    have below := low c.toLower (same ▸ List.mem_map_of_mem mem)
    rcases lowerCases c with kept | ⟨large, _, moved⟩
    · exact kept
    · omega
  rw [← same, List.map_congr_left kept, List.map_id']

theorem webChars {s : List Char} (web : IsWeb s) : ∀ c ∈ s, isSchemeChar c := by
  intro c mem
  have image := List.mem_map_of_mem (f := Char.toLower) mem
  have letter : isSchemeChar c.toLower := by
    have letters : (∀ d ∈ "http".toList, isSchemeChar d) ∧ ∀ d ∈ "https".toList, isSchemeChar d :=
      ⟨List.all_eq_true.mp rfl, List.all_eq_true.mp rfl⟩
    rcases web with same | same <;> rw [same] at image
    · exact letters.1 _ image
    · exact letters.2 _ image
  rcases lowerCases c with kept | ⟨low, high, _⟩
  · rwa [kept] at letter
  · have upper : c.isUpper :=
      decide_eq_true ⟨UInt32.le_iff_toNat_le.mpr low, UInt32.le_iff_toNat_le.mpr high⟩
    have known : c.isAlphanum := by
      change (c.isUpper || c.isLower || c.isDigit) = true
      rw [upper]
      rfl
    simp [isSchemeChar, known]

theorem SpellsScheme.chars {scheme written : List Char} (spelled : SpellsScheme scheme written) :
    ∀ c ∈ written, isSchemeChar c := by
  cases spelled with
  | web web => exact webChars web
  | other _ chars => exact chars

theorem behindIff {word s rest : List Char} : behind? (word ++ "://".toList) s = some rest ↔
    ∃ written, written.map Char.toLower = word ∧ s = written ++ ':' :: '/' :: '/' :: rest := by
  unfold behind?
  constructor
  · intro read
    obtain ⟨front, left⟩ := Option.ite_none_right_eq_some.mp read
    obtain ⟨written, marks, split, same, low⟩ := List.map_eq_append_iff.mp front
    have drawn := lowerMarks (by simp) low
    refine ⟨written, same, ?_⟩
    rw [← List.take_append_drop (word ++ "://".toList).length s, split, drawn, Option.some.inj left, List.append_assoc]
    rfl
  · rintro ⟨written, rfl, rfl⟩
    have long : (written.map Char.toLower ++ "://".toList).length = (written ++ "://".toList).length := by simp
    have split : written ++ ':' :: '/' :: '/' :: rest = (written ++ "://".toList) ++ rest := by simp
    rw [long, split, List.take_left, List.drop_left, if_pos]
    rw [List.map_append]
    rfl

theorem takeScheme {written : List Char} (chars : ∀ c ∈ written, isSchemeChar c) (rest : List Char) :
    (written ++ ':' :: rest).takeWhile isSchemeChar = written ∧
      (written ++ ':' :: rest).dropWhile isSchemeChar = ':' :: rest := by
  refine Text.takeRun chars fun c first => ?_
  cases first
  rfl

theorem behindWritten {word written : List Char} (web : word = "http".toList ∨ word = "https".toList)
    (chars : ∀ c ∈ written, isSchemeChar c) (rest : List Char) :
    behind? (word ++ "://".toList) (written ++ ':' :: '/' :: '/' :: rest) =
      if written.map Char.toLower = word then some rest else none := by
  split_ifs with same
  · exact behindIff.mpr ⟨written, same, rfl⟩
  · rw [Option.eq_none_iff_forall_ne_some]
    intro left read
    obtain ⟨other, cased, split⟩ := behindIff.mp read
    have others := webChars (web.imp cased.trans cased.trans)
    have one : written = other := by
      rw [← (takeScheme chars _).1, split, (takeScheme others _).1]
    exact same (one ▸ cased)

theorem splitSchemeWritten {written : List Char} (chars : ∀ c ∈ written, isSchemeChar c) (rest : List Char) :
    splitScheme (written ++ ':' :: '/' :: '/' :: rest) =
      if written.map Char.toLower = "http".toList then .ok (some "http".toList, rest)
      else if written.map Char.toLower = "https".toList then .ok (some "https".toList, rest)
      else if Text.width (written ++ ':' :: '/' :: '/' :: rest) ≤ 3 then
        .ok (none, written ++ ':' :: '/' :: '/' :: rest)
      else if schemeLimit < written.length then .error .schemeTooLong
      else .ok (some written, rest) := by
  have first := behindWritten (.inl rfl) chars rest
  have second := behindWritten (.inr rfl) chars rest
  obtain ⟨taken, left⟩ := takeScheme chars ('/' :: '/' :: rest)
  unfold splitScheme
  rw [show "http://".toList = "http".toList ++ "://".toList from rfl,
    show "https://".toList = "https".toList ++ "://".toList from rfl, first, second, taken, left]
  by_cases http : written.map Char.toLower = "http".toList
  · simp only [if_pos http]
  by_cases https : written.map Char.toLower = "https".toList
  · simp only [if_neg http, if_pos https]
  · simp only [if_neg http, if_neg https]

theorem splitSchemeCases (s : List Char) :
    (∃ written rest, (∀ c ∈ written, isSchemeChar c) ∧ s = written ++ ':' :: '/' :: '/' :: rest) ∨
      splitScheme s = .ok (none, s) := by
  by_cases marked : ∃ written rest, (∀ c ∈ written, isSchemeChar c) ∧ s = written ++ ':' :: '/' :: '/' :: rest
  · exact .inl marked
  · have apart (word : List Char) (web : word = "http".toList ∨ word = "https".toList) :
        behind? (word ++ "://".toList) s = none := by
      rw [Option.eq_none_iff_forall_ne_some]
      intro rest read
      obtain ⟨written, cased, split⟩ := behindIff.mp read
      exact marked ⟨written, rest, webChars (web.imp cased.trans cased.trans), split⟩
    refine .inr ?_
    unfold splitScheme
    rw [show "http://".toList = "http".toList ++ "://".toList from rfl,
      show "https://".toList = "https".toList ++ "://".toList from rfl, apart _ (.inl rfl), apart _ (.inr rfl)]
    dsimp only
    split
    · rename_i rest left
      exact (marked ⟨s.takeWhile isSchemeChar, rest, fun _ => List.mem_takeWhile_imp, left ▸ Text.splitRun _ s⟩).elim
    · rfl

theorem splitSchemeSpelled {s scheme rest : List Char} (split : splitScheme s = .ok (some scheme, rest)) :
    ∃ written, SpellsScheme scheme written ∧ s = written ++ ':' :: '/' :: '/' :: rest := by
  rcases splitSchemeCases s with ⟨written, behind, chars, rfl⟩ | absent
  · rw [splitSchemeWritten chars] at split
    split_ifs at split with http https narrow long <;> cases split
    · exact ⟨written, http ▸ .web (.inl http), rfl⟩
    · exact ⟨written, https ▸ .web (.inr https), rfl⟩
    · exact ⟨scheme, .other (not_or.mpr ⟨http, https⟩) chars (Nat.le_of_not_lt long), rfl⟩
  · rw [absent] at split
    cases split

theorem spelledSplitScheme {scheme written rest : List Char} (spelled : SpellsScheme scheme written)
    (wide : 3 < Text.width (written ++ ':' :: '/' :: '/' :: rest)) :
    splitScheme (written ++ ':' :: '/' :: '/' :: rest) = .ok (some scheme, rest) := by
  rw [splitSchemeWritten spelled.chars]
  cases spelled with
  | web web =>
    rcases web with same | same
    · rw [if_pos same, same]
    · rw [if_neg (by rw [same]; decide), if_pos same, same]
  | other other chars short =>
    obtain ⟨http, https⟩ := not_or.mp other
    rw [if_neg http, if_neg https, if_neg (Nat.not_le.mpr wide), if_neg (Nat.not_lt.mpr short)]

theorem splitSchemeNone {s rest : List Char} (split : splitScheme s = .ok (none, rest)) : rest = s := by
  rcases splitSchemeCases s with ⟨written, behind, chars, rfl⟩ | absent
  · rw [splitSchemeWritten chars] at split
    split_ifs at split <;> cases split
    rfl
  · rw [absent] at split
    cases split
    rfl

theorem splitSchemeAbsent {s : List Char} (slash : '/' ∉ s) : splitScheme s = .ok (none, s) := by
  rcases splitSchemeCases s with ⟨written, rest, _, rfl⟩ | absent
  · exact (slash (by simp)).elim
  · exact absent

end AccountWatch.Uri
