import AccountWatch.Json.Reader
import AccountWatch.Proofs.Json.Order

/-! What the readers of arrays and objects do with the readings of their items, step by step and with blanks between
everything, and how a reading that was made of others comes apart. -/
namespace AccountWatch.Json

theorem readItemsGoesOn {item : Item} {count : Nat} {s rest tail next : List Char} {c : Char} {first : Value}
    (head : item s = .ok (first, rest)) (comma : skip rest = ',' :: tail) (more : skip tail = c :: next)
    (opens : c ≠ ']') : readItems item (count + 1) s =
      (readItems item count (c :: next)).map fun result => (first :: result.1, result.2) := by
  rw [readItems, head]
  simp only [bind, Except.bind]
  rw [comma]
  split
  · rename_i none
    cases none
  · rename_i closed
    simp at closed
  · rename_i same
    obtain rfl := (List.cons.inj same).2
    rw [more]
    split
    · rename_i none
      cases none
    · rename_i closed
      exact (opens (List.cons.inj closed).1).elim
    · cases readItems item count (c :: next) <;> rfl
  · rename_i other
    exact (other tail rfl).elim

theorem readMembersGoesOn {item : Item} {count : Nat} {s rest tail next : List Char} {c : Char}
    {first : String × Value} (head : readMember item s = .ok (first, rest)) (comma : skip rest = ',' :: tail)
    (more : skip tail = c :: next) (opens : c ≠ '}') : readMembers item (count + 1) s =
      (readMembers item count (c :: next)).map fun result => (first :: result.1, result.2) := by
  rw [readMembers, head]
  simp only [bind, Except.bind]
  rw [comma]
  split
  · rename_i none
    cases none
  · rename_i closed
    simp at closed
  · rename_i same
    obtain rfl := (List.cons.inj same).2
    rw [more]
    split
    · rename_i none
      cases none
    · rename_i closed
      exact (opens (List.cons.inj closed).1).elim
    · cases readMembers item count (c :: next) <;> rfl
  · rename_i other
    exact (other tail rfl).elim

theorem readItemsEnds {item : Item} {count : Nat} {s rest tail : List Char} {first : Value}
    (head : item s = .ok (first, rest)) (ends : skip rest = ']' :: tail) :
    readItems item (count + 1) s = .ok ([first], tail) := by
  rw [readItems, head]
  simp only [bind, Except.bind]
  rw [ends]
  rfl

theorem readMembersEnds {item : Item} {count : Nat} {s rest tail : List Char} {first : String × Value}
    (head : readMember item s = .ok (first, rest)) (ends : skip rest = '}' :: tail) :
    readMembers item (count + 1) s = .ok ([first], tail) := by
  rw [readMembers, head]
  simp only [bind, Except.bind]
  rw [ends]
  rfl

theorem readMemberGives {item : Item} {text s tail rest : List Char} {key : String} {value : Value}
    (name : readText text = .ok (key, s)) (colon : skip s = ':' :: tail) (given : item tail = .ok (value, rest)) :
    readMember item ('"' :: text) = .ok ((key, value), rest) := by
  unfold readMember
  split
  · rename_i same
    obtain rfl := (List.cons.inj same).2
    rw [name]
    simp only [bind, Except.bind]
    rw [colon]
    split
    · rename_i none
      cases none
    · rename_i same
      obtain rfl := (List.cons.inj same).2
      rw [given]
    · rename_i other
      exact (other tail rfl).elim
  · rename_i other
    exact (other text rfl).elim

theorem readArrayGoesOn {item : Item} {s next : List Char} {c : Char} (more : skip s = c :: next)
    (opens : c ≠ ']') : readArray item s =
      (readItems item s.length (c :: next)).map fun result => (.array result.1, result.2) := by
  unfold readArray
  rw [more]
  split
  · rename_i none
    cases none
  · rename_i closed
    exact (opens (List.cons.inj closed).1).elim
  · rfl

theorem readObjectGoesOn {item : Item} {s next : List Char} {c : Char} (more : skip s = c :: next)
    (opens : c ≠ '}') : readObject item s =
      (readMembers item s.length (c :: next)).map fun result => (.object (Members.ofList result.1), result.2) := by
  unfold readObject
  rw [more]
  split
  · rename_i none
    cases none
  · rename_i closed
    exact (opens (List.cons.inj closed).1).elim
  · rfl

theorem readValueBracket (depth : Nat) (s : List Char) :
    readValue (depth + 1) ('[' :: s) = readArray (readValue depth) s := by
  rw [readValue.eq_def]
  rfl

theorem readValueBrace (depth : Nat) (s : List Char) :
    readValue (depth + 1) ('{' :: s) = readObject (readValue depth) s := by
  rw [readValue.eq_def]
  rfl

theorem readValueQuote (depth : Nat) (s : List Char) :
    readValue depth ('"' :: s) = (readText s).map fun (s, tail) => (.string s, tail) := by
  rw [readValue.eq_def]
  rfl

theorem bindReads {α β : Type} {x : Reading α} {f : α → Reading β} {b : β} (read : (x >>= f) = .ok b) :
    ∃ a, x = .ok a ∧ f a = .ok b := by
  cases x with
  | error stop => cases read
  | ok a => exact ⟨a, rfl, read⟩

theorem mapReads {α β : Type} {x : Reading α} {f : α → β} {b : β} (read : x.map f = .ok b) :
    ∃ a, x = .ok a ∧ f a = b := by
  cases x with
  | error stop => cases read
  | ok a => exact ⟨a, rfl, Except.ok.inj read⟩

theorem wordGives {value v : Value} {expected s rest : List Char}
    (read : word value expected s = .ok (v, rest)) : v = value ∧ s = expected ++ rest := by
  induction expected generalizing s with
  | nil =>
    cases read
    exact ⟨rfl, rfl⟩
  | cons c expected ih =>
    cases s with
    | nil => cases read
    | cons d s =>
      unfold word at read
      split_ifs at read with same
      obtain ⟨rfl, rfl⟩ := ih read
      exact ⟨rfl, by rw [same, List.cons_append]⟩

end AccountWatch.Json
