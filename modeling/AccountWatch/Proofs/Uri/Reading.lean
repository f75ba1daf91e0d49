import AccountWatch.Proofs.Uri.Grammar

/-! Texts of resource identifiers. They have three forms: a path alone, an authority alone, and an authority behind a
scheme and before a path. Reading takes exactly the texts of these forms, as long as they are not too long. -/
namespace AccountWatch.Uri

inductive Spells : Uri → List Char → Prop where
  | asterisk : Spells ⟨none, []⟩ ['*']
  | path {s : List Char} (slash : s.head? = some '/') (path : IsPath s) : Spells ⟨none, []⟩ s
  | authority {s : List Char} (lawful : IsAuthority s) (filled : s ≠ []) (other : s ≠ ['*']) : Spells ⟨none, s⟩ s
  | absolute {scheme written authority path : List Char} (spelled : SpellsScheme scheme written)
      (lawful : IsAuthority authority) (filled : authority ≠ []) (behind : IsPath path) :
      Spells ⟨some scheme, authority⟩ (written ++ ':' :: '/' :: '/' :: (authority ++ path))

structure DenotedBy (u : Uri) (s : List Char) : Prop where
  spelled : Spells u s
  short : Text.width s ≤ lengthLimit

theorem knownGoesOn {c : Char} (known : isAuthorityChar c) : ¬ endsAuthority c := by
  intro ends
  rcases endsMark.mp ends with (rfl | rfl) | rfl <;> cases known

theorem takeAuthority {authority rest : List Char} (lawful : IsAuthority authority) (bounded : Bounded rest) :
    (authority ++ rest).takeWhile (!endsAuthority ·) = authority ∧
      (authority ++ rest).dropWhile (!endsAuthority ·) = rest := by
  refine Text.takeRun (fun c mem => ?_) (fun c first => ?_)
  · simpa using knownGoesOn (lawful.known mem)
  · simpa using bounded c first

theorem splitAuthorityCons (c : Char) (more : List Char) : splitAuthority (c :: more) =
    match scanAuthority .start ((c :: more).takeWhile (!endsAuthority ·)) with
    | .error e => .error e
    | .ok scan =>
        if scan.accepted then
          .ok ((c :: more).takeWhile (!endsAuthority ·), (c :: more).dropWhile (!endsAuthority ·))
        else .error .badAuthority := by
  change (scanAuthority .start ((c :: more).takeWhile (!endsAuthority ·)) >>= fun scan => _) = _
  cases scanAuthority .start ((c :: more).takeWhile (!endsAuthority ·)) <;> rfl

theorem splitAuthorityTaken {s : List Char} {x : List Char × List Char} : splitAuthority s = .ok x ↔
    s ≠ [] ∧ IsAuthority (s.takeWhile (!endsAuthority ·)) ∧
      (s.takeWhile (!endsAuthority ·), s.dropWhile (!endsAuthority ·)) = x := by
  rw [← authorityIff]
  cases s with
  | nil => exact iff_of_false (fun read => nomatch read) fun given => given.1 rfl
  | cons c more =>
    rw [splitAuthorityCons, and_iff_right (List.cons_ne_nil c more)]
    cases scanAuthority .start ((c :: more).takeWhile (!endsAuthority ·)) with
    | error e => simp
    | ok scan => by_cases accepted : scan.accepted <;> simp [accepted]

theorem splitAuthorityIff {s authority rest : List Char} : splitAuthority s = .ok (authority, rest) ↔
    s ≠ [] ∧ IsAuthority authority ∧ s = authority ++ rest ∧ Bounded rest := by
  rw [splitAuthorityTaken]
  refine and_congr_right fun _ => ?_
  constructor
  · rintro ⟨lawful, same⟩
    obtain ⟨rfl, rfl⟩ := Prod.mk.inj same
    refine ⟨lawful, Text.splitRun _ s, fun c first => ?_⟩
    simpa using Text.runStops _ s c first
  · rintro ⟨lawful, rfl, bounded⟩
    obtain ⟨taken, left⟩ := takeAuthority lawful bounded
    rw [taken, left]
    exact ⟨lawful, rfl⟩

theorem wholeAuthority {s : List Char} (lawful : IsAuthority s) (filled : s ≠ []) : splitAuthority s = .ok (s, []) :=
  splitAuthorityIff.mpr ⟨filled, lawful, (List.append_nil s).symm, nofun⟩

theorem lengthWidth (s : List Char) : s.length ≤ Text.width s := by
  induction s with
  | nil => exact Nat.le_refl 0
  | cons c rest ih =>
    have octets := c.utf8Size_pos
    rw [List.length_cons, Text.width]
    omega

theorem widthSome {s : List Char} (filled : s ≠ []) : 0 < Text.width s :=
  Nat.lt_of_lt_of_le (List.length_pos_of_ne_nil filled) (lengthWidth s)

theorem widthSingle {s : List Char} (single : Text.width s = 1) : ∃ c, s = [c] := by
  have short := lengthWidth s
  rw [single] at short
  cases s with
  | nil => cases single
  | cons c rest => exact ⟨c, by simpa using short⟩

theorem pathThen {s : List Char} {u v : Uri} :
    ((checkPath s).map fun _ => u) = .ok v ↔ checkPath s = .ok () ∧ u = v := by
  cases checkPath s with
  | error e => exact iff_of_false nofun fun given => nomatch given.1
  | ok done => exact ⟨fun read => ⟨rfl, Except.ok.inj read⟩, fun given => congrArg Except.ok given.2⟩

theorem parseAlone {s rest authority behind : List Char} (split : splitScheme s = .ok (none, rest))
    (taken : splitAuthority rest = .ok (authority, behind)) :
    parseAbsolute s = if behind = [] then .ok ⟨none, authority⟩ else .error .badFormat := by
  unfold parseAbsolute
  rw [split]
  change (splitAuthority rest >>= fun parts => _) = _
  rw [taken]
  cases behind <;> rfl

theorem parseBehind {s scheme rest authority behind : List Char} (split : splitScheme s = .ok (some scheme, rest))
    (taken : splitAuthority rest = .ok (authority, behind)) :
    parseAbsolute s = if authority = [] then .error .badFormat
      else (checkPath behind).map fun _ => ⟨some scheme, authority⟩ := by
  unfold parseAbsolute
  rw [split]
  change (splitAuthority rest >>= fun parts => _) = _
  rw [taken]
  cases authority with
  | nil => rfl
  | cons c more =>
    change (checkPath behind >>= fun _ => _) = _
    cases checkPath behind <;> rfl

theorem absoluteParts {s : List Char} {u : Uri} (read : parseAbsolute s = .ok u) :
    ∃ scheme rest authority behind, splitScheme s = .ok (scheme, rest) ∧
      splitAuthority rest = .ok (authority, behind) := by
  unfold parseAbsolute at read
  cases split : splitScheme s with
  | error e =>
    rw [split] at read
    cases read
  | ok parts =>
    rw [split] at read
    cases taken : splitAuthority parts.2 with
    | error e =>
      change (splitAuthority parts.2 >>= fun parts => _) = _ at read
      rw [taken] at read
      cases read
    | ok found => exact ⟨parts.1, parts.2, found.1, found.2, rfl, taken⟩

theorem absoluteSpelled {s : List Char} {u : Uri} (read : parseAbsolute s = .ok u) (wide : Text.width s ≠ 1) :
    Spells u s := by
  obtain ⟨scheme, rest, authority, behind, split, taken⟩ := absoluteParts read
  obtain ⟨filled, lawful, cut, bounded⟩ := splitAuthorityIff.mp taken
  cases scheme with
  | none =>
    rw [parseAlone split taken] at read
    split_ifs at read with whole
    cases read
    rw [splitSchemeNone split, whole, List.append_nil] at cut
    subst cut
    exact .authority lawful (splitSchemeNone split ▸ filled) fun asterisk => wide (asterisk ▸ rfl)
  | some scheme =>
    rw [parseBehind split taken] at read
    split_ifs at read with empty
    obtain ⟨written, spelled, rfl⟩ := splitSchemeSpelled split
    obtain ⟨checked, rfl⟩ := pathThen.mp read
    rw [cut]
    exact .absolute spelled lawful empty (pathIff.mpr ⟨checked, bounded⟩)

theorem singleSpelled {c : Char} {u : Uri} (read : parseSingle [c] = .ok u) : Spells u [c] := by
  unfold parseSingle at read
  split_ifs at read with mark
  · cases read
    rcases mark with slash | asterisk
    · rw [slash]
      exact .path rfl (.slash ⟨[], [], rfl, nofun, .none .none⟩)
    · rw [asterisk]
      exact .asterisk
  · cases taken : splitAuthority [c] with
    | error e =>
      rw [taken] at read
      cases read
    | ok parts =>
      obtain ⟨authority, behind⟩ := parts
      obtain ⟨filled, lawful, cut, _⟩ := splitAuthorityIff.mp taken
      rw [taken] at read
      cases behind with
      | cons d more => cases read
      | nil =>
        cases read
        rw [cut, List.append_nil]
        rw [List.append_nil] at cut
        exact .authority lawful (cut ▸ filled) (cut ▸ fun asterisk => mark (.inr asterisk))

theorem parseSpelled {s : List Char} {u : Uri} (read : parse s = .ok u) : Spells u s := by
  unfold parse at read
  dsimp only at read
  split_ifs at read with long empty single slash
  · obtain ⟨c, rfl⟩ := widthSingle single
    exact singleSpelled read
  · obtain ⟨checked, rfl⟩ := pathThen.mp read
    refine .path slash (pathIff.mpr ⟨checked, fun c first => ?_⟩)
    rw [slash] at first
    cases first
    rfl
  · exact absoluteSpelled read single

theorem parseSome {s : List Char} (filled : s ≠ []) (short : Text.width s ≤ lengthLimit) :
    parse s = if Text.width s = 1 then parseSingle s
      else if s.head? = some '/' then (checkPath s).map fun _ => ⟨none, []⟩ else parseAbsolute s := by
  unfold parse
  dsimp only
  rw [if_neg (Nat.not_lt.mpr short), if_neg (Nat.ne_of_gt (widthSome filled))]

theorem spelledParse {s : List Char} {u : Uri} (spelled : Spells u s) (short : Text.width s ≤ lengthLimit) :
    parse s = .ok u := by
  cases spelled with
  | asterisk => decide
  | path slash path =>
    have filled : s ≠ [] := by rintro rfl; cases slash
    rw [parseSome filled short, if_pos slash]
    split_ifs with single
    · obtain ⟨c, rfl⟩ := widthSingle single
      obtain rfl : c = '/' := Option.some.inj slash
      rfl
    · exact pathThen.mpr ⟨(pathIff.mp path).1, rfl⟩
  | authority lawful filled other =>
    have slash : '/' ∉ s := fun mem => by cases lawful.known mem
    rw [parseSome filled short]
    split_ifs with single first
    · obtain ⟨c, rfl⟩ := widthSingle single
      have mark : ¬ ([c] = ['/'] ∨ [c] = ['*']) := by
        rintro (same | same)
        · exact slash (same ▸ List.mem_cons_self)
        · exact other same
      unfold parseSingle
      rw [if_neg mark, wholeAuthority lawful filled]
      rfl
    · exact (slash (List.mem_of_head? first)).elim
    · rw [parseAlone (splitSchemeAbsent slash) (wholeAuthority lawful filled), if_pos rfl]
  | @absolute scheme written authority path spelled lawful filled behind =>
    obtain ⟨checked, bounded⟩ := pathIff.mp behind
    have wide : 3 < Text.width (written ++ ':' :: '/' :: '/' :: (authority ++ path)) := by
      refine Nat.lt_of_lt_of_le ?_ (lengthWidth _)
      have one := List.length_pos_of_ne_nil filled
      simp only [List.length_append, List.length_cons]
      omega
    have split := spelledSplitScheme spelled wide
    have taken : splitAuthority (authority ++ path) = .ok (authority, path) :=
      splitAuthorityIff.mpr ⟨List.append_ne_nil_of_left_ne_nil filled _, lawful, rfl, bounded⟩
    have first : (written ++ ':' :: '/' :: '/' :: (authority ++ path)).head? ≠ some '/' := by
      cases written with
      | nil => exact nofun
      | cons c more =>
        rintro ⟨⟩
        cases spelled.chars '/' List.mem_cons_self
    rw [parseSome (by simp) short, if_neg (by omega), if_neg first, parseBehind split taken, if_neg filled]
    exact pathThen.mpr ⟨checked, rfl⟩

theorem parseShort {s : List Char} {u : Uri} (read : parse s = .ok u) : Text.width s ≤ lengthLimit := by
  unfold parse at read
  dsimp only at read
  split_ifs at read with long
  all_goals exact Nat.le_of_not_lt long

theorem parseIff {s : List Char} {u : Uri} : parse s = .ok u ↔ u.DenotedBy s :=
  ⟨fun read => ⟨parseSpelled read, parseShort read⟩, fun ⟨spelled, short⟩ => spelledParse spelled short⟩

theorem DenotedBy.unique {u v : Uri} {s : List Char} (left : u.DenotedBy s) (right : v.DenotedBy s) : u = v :=
  Except.ok.inj ((parseIff.mpr left).symm.trans (parseIff.mpr right))

end AccountWatch.Uri
