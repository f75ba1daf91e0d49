import AccountWatch.Proofs.Json.Grammar

/-! Whatever spells a document is read as the document in order, and whatever is read spells one that is in order what
was read. Nesting is bounded on both sides by the depth that the reader goes down to. -/
namespace AccountWatch.Json

theorem digitOther {c : Char} (digit : c.isDigit) :
    isSpace c = false ∧ c ≠ 'n' ∧ c ≠ 't' ∧ c ≠ 'f' ∧ c ≠ '-' ∧ c ≠ ']' := by
  have other (d : Char) (different : d.isDigit = false) : c ≠ d := by
    rintro rfl
    rw [different] at digit
    cases digit
  refine ⟨?_, other _ rfl, other _ rfl, other _ rfl, other _ rfl, other _ rfl⟩
  simp [isSpace, other ' ' rfl, other '\n' rfl, other '\t' rfl, other '\r' rfl]

theorem readValueBlank {blanks : List Char} (blank : Blank blanks) (depth : Nat) (s : List Char) :
    readValue depth (blanks ++ s) = readValue depth s := by
  rw [readValue.eq_def, readValue.eq_def depth s, skipBlank blank]

theorem readValueMinus (depth : Nat) (s : List Char) : readValue depth ('-' :: s) = readNumber true s := by
  rw [readValue.eq_def]
  rfl

theorem readValueDigit {c : Char} (digit : c.isDigit) (depth : Nat) (s : List Char) :
    readValue depth (c :: s) = readNumber false (c :: s) := by
  obtain ⟨solid, null, yes, no, minus, _⟩ := digitOther digit
  rw [readValue.eq_def]
  dsimp only
  rw [skipStands solid]
  dsimp only
  rw [if_neg null, if_neg yes, if_neg no, if_neg minus, if_pos digit]

theorem readNumberDigit {text rest : List Char} {v : Value} (read : readNumber false text = .ok (v, rest)) :
    ∃ c more, text = c :: more ∧ c.isDigit := by
  obtain ⟨⟨l, tail⟩, literal, _⟩ := bindReads read
  obtain ⟨⟨whole, behind⟩, wholeRead, _⟩ := bindReads literal
  unfold readWhole at wholeRead
  split at wholeRead
  · exact ⟨'0', _, rfl, by decide⟩
  · obtain ⟨rfl, ⟨c, more, rfl, digit⟩, _⟩ := readDigitsTakes wholeRead
    exact ⟨c, more ++ behind, rfl, digit⟩

theorem Spells.opens {v : Value} {text : List Char} (spelled : Spells v text) :
    ∃ c more, text = c :: more ∧ isSpace c = false ∧ c ≠ ']' := by
  have given (c : Char) (more : List Char) (solid : isSpace c = false) (other : c ≠ ']') :
      ∃ d rest, c :: more = d :: rest ∧ isSpace d = false ∧ d ≠ ']' := ⟨c, more, rfl, solid, other⟩
  cases spelled with
  | positive token =>
    obtain ⟨c, more, rfl, digit⟩ := readNumberDigit token
    exact given c more (digitOther digit).1 (digitOther digit).2.2.2.2.2
  | null | yes | no | negative | string | array | object => exact given _ _ (by decide) (by decide)

theorem wordReads (value : Value) (expected rest : List Char) :
    word value expected (expected ++ rest) = .ok (value, rest) := by
  induction expected with
  | nil => rfl
  | cons c expected ih => exact (if_pos rfl).trans ih

def Item.Reads (item : Item) (v : Value) : Prop :=
  ∀ before text rest, Blank before → Spells v text → Stops rest →
    item (before ++ (text ++ rest)) = .ok (v.sorted, rest)

theorem readItemsReads {item : Item} {items : List Value} {text : List Char}
    (listed : Listed Spells ']' items text) (some : items ≠ []) (reads : ∀ v ∈ items, item.Reads v) {count : Nat}
    (enough : items.length ≤ count) (rest : List Char) :
    ∃ c next, skip (text ++ rest) = c :: next ∧ c ≠ ']' ∧
      readItems item count (c :: next) = .ok (items.map Value.sorted, rest) := by
  induction listed generalizing count with
  | empty => exact (some rfl).elim
  | @last v before text after ahead spelled behind =>
    obtain ⟨count, rfl⟩ := Nat.exists_eq_succ_of_ne_zero (Nat.ne_zero_of_lt enough)
    obtain ⟨c, more, rfl, solid, opens⟩ := spelled.opens
    refine ⟨c, more ++ (after ++ ']' :: rest), ?_, opens, ?_⟩
    · simpa using skipTo ahead solid (more ++ (after ++ ']' :: rest))
    · have stops : Stops (after ++ ']' :: rest) := blankStops behind (separatorStops (by decide) rest)
      have head := reads v List.mem_cons_self [] _ _ blankNone spelled stops
      exact readItemsEnds head (skipTo behind (by decide) rest)
  | @more v w others before text after text' ahead spelled behind later ih =>
    obtain ⟨count, rfl⟩ := Nat.exists_eq_succ_of_ne_zero (Nat.ne_zero_of_lt enough)
    obtain ⟨c, more, rfl, solid, opens⟩ := spelled.opens
    obtain ⟨headReads, tailReads⟩ := List.forall_mem_cons.mp reads
    obtain ⟨d, next, skipped, other, read⟩ := ih (List.cons_ne_nil _ _) tailReads (Nat.le_of_succ_le_succ enough)
    refine ⟨c, more ++ (after ++ ',' :: (text' ++ rest)), ?_, opens, ?_⟩
    · simpa using skipTo ahead solid (more ++ (after ++ ',' :: (text' ++ rest)))
    · have stops : Stops (after ++ ',' :: (text' ++ rest)) := blankStops behind (separatorStops (by decide) _)
      have head := headReads [] _ _ blankNone spelled stops
      have comma := skipTo behind (show isSpace ',' = false by decide) (text' ++ rest)
      refine (readItemsGoesOn head comma skipped other).trans ?_
      rw [read]
      rfl

theorem readMemberReads {item : Item} {member : String × Value} {text : List Char}
    (spelled : SpellsMember member text) (reads : item.Reads member.2) {rest : List Char} (stops : Stops rest) :
    readMember item (text ++ rest) = .ok ((member.1, member.2.sorted), rest) := by
  cases spelled with
  | @colon key value name before after text token ahead behind spelled =>
    obtain ⟨used, rfl, takes⟩ := readTextTakes token
    have name := takes (before ++ ':' :: (after ++ (text ++ rest)))
    have given := reads after text rest behind spelled stops
    simpa using readMemberGives name (skipTo ahead (show isSpace ':' = false by decide) _) given

theorem readMembersReads {item : Item} {members : Members} {text : List Char}
    (listed : Listed SpellsMember '}' members text) (some : members ≠ [])
    (reads : ∀ member ∈ members, item.Reads member.2) {count : Nat} (enough : members.length ≤ count)
    (rest : List Char) :
    ∃ next, skip (text ++ rest) = '"' :: next ∧ readMembers item count ('"' :: next) =
      .ok (members.map fun member => (member.1, member.2.sorted), rest) := by
  induction listed generalizing count with
  | empty => exact (some rfl).elim
  | @last member before text after ahead spelled behind =>
    obtain ⟨count, rfl⟩ := Nat.exists_eq_succ_of_ne_zero (Nat.ne_zero_of_lt enough)
    have stops : Stops (after ++ '}' :: rest) := blankStops behind (separatorStops (by decide) rest)
    have head := readMemberReads spelled (reads member List.mem_cons_self) stops
    cases spelled with
    | @colon key value name gap space inner _ _ _ _ =>
      refine ⟨name ++ (gap ++ ':' :: (space ++ inner)) ++ (after ++ '}' :: rest), ?_, ?_⟩
      · simpa using skipTo ahead (show isSpace '"' = false by decide) _
      · exact readMembersEnds head (skipTo behind (by decide) rest)
  | @more member other others before text after text' ahead spelled behind later ih =>
    obtain ⟨count, rfl⟩ := Nat.exists_eq_succ_of_ne_zero (Nat.ne_zero_of_lt enough)
    obtain ⟨headReads, tailReads⟩ := List.forall_mem_cons.mp reads
    obtain ⟨next, skipped, read⟩ := ih (List.cons_ne_nil _ _) tailReads (Nat.le_of_succ_le_succ enough)
    have stops : Stops (after ++ ',' :: (text' ++ rest)) := blankStops behind (separatorStops (by decide) _)
    have head := readMemberReads spelled headReads stops
    cases spelled with
    | @colon key value name gap space inner _ _ _ _ =>
      refine ⟨name ++ (gap ++ ':' :: (space ++ inner)) ++ (after ++ ',' :: (text' ++ rest)), ?_, ?_⟩
      · simpa using skipTo ahead (show isSpace '"' = false by decide) _
      · have comma := skipTo behind (show isSpace ',' = false by decide) (text' ++ rest)
        refine (readMembersGoesOn head comma skipped (by decide)).trans ?_
        rw [read]
        rfl

theorem readArrayReads {item : Item} {items : List Value} {text : List Char}
    (listed : Listed Spells ']' items text) (reads : ∀ v ∈ items, item.Reads v) (rest : List Char) :
    readArray item (text ++ rest) = .ok (.array (items.map Value.sorted), rest) := by
  by_cases none : items = []
  · subst none
    cases listed with
    | empty blank =>
      have ends := skipTo blank (show isSpace ']' = false by decide) rest
      unfold readArray
      rw [List.append_assoc, List.singleton_append, ends]
      rfl
  · have enough : items.length ≤ (text ++ rest).length := by
      rw [List.length_append]
      exact Nat.le_add_right_of_le listed.length
    obtain ⟨c, next, skipped, opens, read⟩ := readItemsReads listed none reads enough rest
    rw [readArrayGoesOn skipped opens, read]
    rfl

theorem readObjectReads {item : Item} {members : Members} {text : List Char}
    (listed : Listed SpellsMember '}' members text) (reads : ∀ member ∈ members, item.Reads member.2)
    (rest : List Char) : readObject item (text ++ rest) =
      .ok (.object (Members.ofList (members.map fun member => (member.1, member.2.sorted))), rest) := by
  by_cases none : members = []
  · subst none
    cases listed with
    | empty blank =>
      have ends := skipTo blank (show isSpace '}' = false by decide) rest
      unfold readObject
      rw [List.append_assoc, List.singleton_append, ends]
      rfl
  · have enough : members.length ≤ (text ++ rest).length := by
      rw [List.length_append]
      exact Nat.le_add_right_of_le listed.length
    obtain ⟨next, skipped, read⟩ := readMembersReads listed none reads enough rest
    rw [readObjectGoesOn skipped (by decide), read]
    rfl

theorem readValueReads (v : Value) : ∀ depth, v.depth ≤ depth → Item.Reads (readValue depth) v := by
  -- every depth at once: what stands in an array or an object is read with one level less
  induction v using Value.induction with
  | null =>
    rintro depth _ before _ rest blank ⟨⟩ _
    rw [readValueBlank blank, readValue.eq_def]
    exact wordReads .null ['u', 'l', 'l'] rest
  | boolean b =>
    rintro depth _ before _ rest blank (_ | _) _
    · rw [readValueBlank blank, readValue.eq_def]
      exact wordReads (.boolean true) ['r', 'u', 'e'] rest
    · rw [readValueBlank blank, readValue.eq_def]
      exact wordReads (.boolean false) ['a', 'l', 's', 'e'] rest
  | number n =>
    intro depth _ before text rest blank spelled stops
    rw [readValueBlank blank]
    cases spelled with
    | negative token =>
      obtain ⟨used, rfl, takes⟩ := readNumberTakes token
      rw [List.append_nil, List.cons_append, readValueMinus, takes rest stops, Value.sorted]
    | positive token =>
      obtain ⟨c, more, same, digit⟩ := readNumberDigit token
      obtain ⟨used, rfl, takes⟩ := readNumberTakes token
      rw [List.append_nil] at same ⊢
      have given := takes rest stops
      rw [same, List.cons_append] at given ⊢
      rw [readValueDigit digit, given, Value.sorted]
  | string s =>
    intro depth _ before text rest blank spelled _
    cases spelled with
    | string token =>
      obtain ⟨used, rfl, takes⟩ := readTextTakes token
      rw [readValueBlank blank, List.append_nil, List.cons_append, readValueQuote, takes rest]
      rfl
  | array items ih =>
    intro depth deep before text rest blank spelled _
    obtain ⟨depth, rfl⟩ := Nat.exists_eq_succ_of_ne_zero (Nat.ne_zero_of_lt deep)
    have depths := itemsDepthLe.mp (Nat.le_of_succ_le_succ deep)
    cases spelled with
    | array listed =>
      rw [readValueBlank blank, List.cons_append, readValueBracket,
        readArrayReads listed (fun v mem => ih v mem depth (depths v mem)) rest, Value.sorted, sortedItemsMap]
  | object members ih =>
    intro depth deep before text rest blank spelled _
    obtain ⟨depth, rfl⟩ := Nat.exists_eq_succ_of_ne_zero (Nat.ne_zero_of_lt deep)
    have depths := membersDepthLe.mp (Nat.le_of_succ_le_succ deep)
    cases spelled with
    | object listed =>
      rw [readValueBlank blank, List.cons_append, readValueBrace,
        readObjectReads listed (fun member mem => ih member mem depth (depths member mem)) rest, Value.sorted,
        sortedMembersMap]

def Item.Spelled (item : Item) (depth : Nat) : Prop := ∀ s v rest, item s = .ok (v, rest) →
  ∃ raw before text, s = before ++ (text ++ rest) ∧ Blank before ∧ Spells raw text ∧ raw.depth ≤ depth ∧
    v = raw.sorted

theorem readItemsSpelled {item : Item} {depth : Nat} (spelled : item.Spelled depth) {count : Nat}
    {s rest : List Char} {items : List Value} (read : readItems item count s = .ok (items, rest)) :
    ∃ raws text, s = text ++ rest ∧ Listed Spells ']' raws text ∧ raws ≠ [] ∧ itemsDepth raws ≤ depth ∧
      items = raws.map Value.sorted := by
  induction count generalizing s items rest with
  | zero => cases read
  | succ count ih =>
    unfold readItems at read
    obtain ⟨⟨value, behind⟩, first, read⟩ := bindReads read
    obtain ⟨raw, before, text, rfl, ahead, head, shallow, rfl⟩ := spelled s value behind first
    obtain ⟨after, blank, split⟩ := skipSplit behind
    dsimp only at read
    split at read
    · cases read
    · rename_i tail closed
      cases read
      rw [closed] at split
      refine ⟨[raw], before ++ (text ++ (after ++ [']'])), by simp [split], .last ahead head blank, by simp, ?_, rfl⟩
      simpa [itemsDepth] using shallow
    · rename_i tail comma
      rw [comma] at split
      obtain ⟨more, gap, found⟩ := skipSplit tail
      split at read
      · cases read
      · cases read
      · obtain ⟨⟨later, last⟩, others, read⟩ := bindReads read
        cases read
        obtain ⟨raws, text', same, listed, some, depths, rfl⟩ := ih others
        obtain ⟨second, raws, rfl⟩ := List.exists_cons_of_ne_nil some
        rw [same] at found
        refine ⟨raw :: second :: raws, before ++ (text ++ (after ++ ',' :: (more ++ text'))), ?_,
          .more ahead head blank (listed.indent gap), List.cons_ne_nil _ _, ?_, rfl⟩
        · simp [split, found]
        · rw [itemsDepth]
          exact Nat.max_le.mpr ⟨shallow, depths⟩
    · cases read

theorem readMemberSpelled {item : Item} {depth : Nat} (spelled : item.Spelled depth) {s rest : List Char}
    {member : String × Value} (read : readMember item s = .ok (member, rest)) :
    ∃ raw text, s = text ++ rest ∧ SpellsMember (member.1, raw) text ∧ raw.depth ≤ depth ∧
      member.2 = raw.sorted := by
  unfold readMember at read
  split at read
  · obtain ⟨⟨key, behind⟩, named, read⟩ := bindReads read
    dsimp only at read
    split at read
    · cases read
    · rename_i tail colon
      obtain ⟨⟨value, last⟩, given, read⟩ := bindReads read
      cases read
      obtain ⟨name, rfl, token⟩ := textToken named
      obtain ⟨gap, ahead, split⟩ := skipSplit behind
      obtain ⟨raw, space, text, rfl, after, head, shallow, rfl⟩ := spelled tail value _ given
      rw [colon] at split
      refine ⟨raw, '"' :: (name ++ (gap ++ ':' :: (space ++ text))), by simp [split],
        .colon token ahead after head, shallow, rfl⟩
    · cases read
  · cases read

theorem readMembersSpelled {item : Item} {depth : Nat} (spelled : item.Spelled depth) {count : Nat}
    {s rest : List Char} {members : Members} (read : readMembers item count s = .ok (members, rest)) :
    ∃ raws text, s = text ++ rest ∧ Listed SpellsMember '}' raws text ∧ raws ≠ [] ∧ membersDepth raws ≤ depth ∧
      members = raws.map fun member => (member.1, member.2.sorted) := by
  induction count generalizing s members rest with
  | zero => cases read
  | succ count ih =>
    unfold readMembers at read
    obtain ⟨⟨⟨key, value⟩, behind⟩, first, read⟩ := bindReads read
    obtain ⟨raw, text, rfl, head, shallow, sorted⟩ := readMemberSpelled spelled first
    obtain rfl : value = raw.sorted := sorted
    obtain ⟨after, blank, split⟩ := skipSplit behind
    dsimp only at read
    split at read
    · cases read
    · rename_i tail closed
      cases read
      rw [closed] at split
      refine ⟨[(key, raw)], text ++ (after ++ ['}']), by simp [split], .last blankNone head blank, by simp, ?_, rfl⟩
      simpa [membersDepth] using shallow
    · rename_i tail comma
      rw [comma] at split
      obtain ⟨more, gap, found⟩ := skipSplit tail
      split at read
      · cases read
      · cases read
      · obtain ⟨⟨later, last⟩, others, read⟩ := bindReads read
        cases read
        obtain ⟨raws, text', same, listed, some, depths, rfl⟩ := ih others
        obtain ⟨second, raws, rfl⟩ := List.exists_cons_of_ne_nil some
        rw [same] at found
        refine ⟨(key, raw) :: second :: raws, text ++ (after ++ ',' :: (more ++ text')), ?_,
          .more blankNone head blank (listed.indent gap), List.cons_ne_nil _ _, ?_, rfl⟩
        · simp [split, found]
        · rw [membersDepth]
          exact Nat.max_le.mpr ⟨shallow, depths⟩
    · cases read

theorem readArraySpelled {item : Item} {depth : Nat} (spelled : item.Spelled depth) {s rest : List Char}
    {v : Value} (read : readArray item s = .ok (v, rest)) :
    ∃ raws text, s = text ++ rest ∧ Listed Spells ']' raws text ∧ itemsDepth raws ≤ depth ∧
      v = (Value.array raws).sorted := by
  obtain ⟨blanks, blank, split⟩ := skipSplit s
  unfold readArray at read
  split at read
  · cases read
  · rename_i tail closed
    cases read
    rw [closed] at split
    exact ⟨[], blanks ++ [']'], by simp [split], .empty blank, Nat.zero_le _, rfl⟩
  · obtain ⟨⟨items, last⟩, all, same⟩ := mapReads read
    cases same
    obtain ⟨raws, text, found, listed, _, depths, rfl⟩ := readItemsSpelled spelled all
    rw [found] at split
    refine ⟨raws, blanks ++ text, by simp [split], listed.indent blank, depths, ?_⟩
    rw [Value.sorted, sortedItemsMap]

theorem readObjectSpelled {item : Item} {depth : Nat} (spelled : item.Spelled depth) {s rest : List Char}
    {v : Value} (read : readObject item s = .ok (v, rest)) :
    ∃ raws text, s = text ++ rest ∧ Listed SpellsMember '}' raws text ∧ membersDepth raws ≤ depth ∧
      v = (Value.object raws).sorted := by
  obtain ⟨blanks, blank, split⟩ := skipSplit s
  unfold readObject at read
  split at read
  · cases read
  · rename_i tail closed
    cases read
    rw [closed] at split
    exact ⟨[], blanks ++ ['}'], by simp [split], .empty blank, Nat.zero_le _, rfl⟩
  · obtain ⟨⟨members, last⟩, all, same⟩ := mapReads read
    cases same
    obtain ⟨raws, text, found, listed, _, depths, rfl⟩ := readMembersSpelled spelled all
    rw [found] at split
    refine ⟨raws, blanks ++ text, by simp [split], listed.indent blank, depths, ?_⟩
    rw [Value.sorted, sortedMembersMap]

theorem readValueSpelled (depth : Nat) : Item.Spelled (readValue depth) depth := by
  induction depth using Nat.strongRecOn with
  | ind depth ih =>
    intro s v rest read
    obtain ⟨blanks, blank, split⟩ := skipSplit s
    -- each kind of value leaves its own text behind the blanks
    suffices given : ∃ raw text, skip s = text ++ rest ∧ Spells raw text ∧ raw.depth ≤ depth ∧ v = raw.sorted by
      obtain ⟨raw, text, found, spelled⟩ := given
      exact ⟨raw, blanks, text, found ▸ split, blank, spelled⟩
    rw [readValue.eq_def] at read
    dsimp only at read
    split at read
    · cases read
    · rename_i c tail found
      rw [found]
      clear found split
      split_ifs at read with null yes no minus digit quote bracket brace
      · obtain ⟨rfl, rfl⟩ := wordGives read
        exact ⟨.null, _, by rw [null]; rfl, .null, Nat.zero_le _, rfl⟩
      · obtain ⟨rfl, rfl⟩ := wordGives read
        exact ⟨.boolean true, _, by rw [yes]; rfl, .yes, Nat.zero_le _, rfl⟩
      · obtain ⟨rfl, rfl⟩ := wordGives read
        exact ⟨.boolean false, _, by rw [no]; rfl, .no, Nat.zero_le _, rfl⟩
      · obtain ⟨n, text, rfl, rfl, token⟩ := numberToken read
        exact ⟨.number n, '-' :: text, by rw [minus]; rfl, .negative token, Nat.zero_le _, rfl⟩
      · obtain ⟨n, text, rfl, same, token⟩ := numberToken read
        exact ⟨.number n, text, same, .positive token, Nat.zero_le _, rfl⟩
      · obtain ⟨⟨t, last⟩, named, same⟩ := mapReads read
        cases same
        obtain ⟨text, rfl, token⟩ := textToken named
        exact ⟨.string t, '"' :: text, by rw [quote]; rfl, .string token, Nat.zero_le _, rfl⟩
      · cases depth with
        | zero => cases read
        | succ depth =>
          obtain ⟨raws, text, rfl, listed, depths, rfl⟩ :=
            readArraySpelled (ih depth (Nat.lt_succ_self depth)) read
          exact ⟨.array raws, '[' :: text, by rw [bracket]; rfl, .array listed, Nat.succ_le_succ depths, rfl⟩
      · cases depth with
        | zero => cases read
        | succ depth =>
          obtain ⟨raws, text, rfl, listed, depths, rfl⟩ :=
            readObjectSpelled (ih depth (Nat.lt_succ_self depth)) read
          exact ⟨.object raws, '{' :: text, by rw [brace]; rfl, .object listed, Nat.succ_le_succ depths, rfl⟩

def Value.SpelledBy (v : Value) (text : String) : Prop :=
  ∃ before inner after, text.toList = before ++ (inner ++ after) ∧ Blank before ∧ Spells v inner ∧ Blank after

theorem parseSpelled {raw : Value} {text : String} (spelled : raw.SpelledBy text)
    (shallow : raw.depth ≤ depthLimit) : parse text = .ok raw.sorted := by
  obtain ⟨before, inner, after, same, ahead, spells, behind⟩ := spelled
  have stops : Stops after := by simpa using blankStops behind (show Stops [] from trivial)
  have ends : skip after = [] := by simpa [skip] using skipBlank behind []
  have read := readValueReads raw depthLimit shallow before inner after ahead spells stops
  unfold parse readDocument
  rw [same, read]
  dsimp only [bind, Except.bind]
  rw [ends]

theorem spelledParse {text : String} {v : Value} (read : parse text = .ok v) :
    ∃ raw : Value, raw.SpelledBy text ∧ raw.depth ≤ depthLimit ∧ v = raw.sorted := by
  unfold parse at read
  split at read
  · rename_i document
    cases read
    obtain ⟨⟨value, tail⟩, given, ended⟩ := bindReads document
    dsimp only at ended
    split at ended
    · rename_i blank
      cases ended
      obtain ⟨raw, before, inner, same, ahead, spells, shallow, rfl⟩ := readValueSpelled depthLimit _ _ _ given
      obtain ⟨after, behind, split⟩ := skipSplit tail
      rw [blank, List.append_nil] at split
      exact ⟨raw, ⟨before, inner, tail, same, ahead, spells, split ▸ behind⟩, shallow, rfl⟩
    · cases ended
  · cases read

theorem parseOrders {text : String} {v : Value} (read : parse text = .ok v) : v.Ordered := by
  obtain ⟨raw, _, _, rfl⟩ := spelledParse read
  exact sortedOrdered raw

end AccountWatch.Json
