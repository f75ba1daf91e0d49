import AccountWatch.Proofs.Json.Tokens

/-! Spellings of a document: its tokens one after the other, with blanks between them as one likes. A document is meant
here as it is written, with its members in any order and as often as they occur, and numbers and texts are
spelled by whatever their own readers take for them. -/
namespace AccountWatch.Json

def Blank (s : List Char) : Prop := ∀ c ∈ s, isSpace c

inductive Listed {α : Type} (spells : α → List Char → Prop) (close : Char) : List α → List Char → Prop where
  | empty {blanks : List Char} (blank : Blank blanks) : Listed spells close [] (blanks ++ [close])
  | last {a : α} {before text after : List Char} (ahead : Blank before) (spelled : spells a text)
      (behind : Blank after) : Listed spells close [a] (before ++ (text ++ (after ++ [close])))
  | more {a b : α} {others : List α} {before text after rest : List Char} (ahead : Blank before)
      (spelled : spells a text) (behind : Blank after) (later : Listed spells close (b :: others) rest) :
      Listed spells close (a :: b :: others) (before ++ (text ++ (after ++ ',' :: rest)))

mutual

inductive Spells : Value → List Char → Prop where
  | null : Spells .null ['n', 'u', 'l', 'l']
  | yes : Spells (.boolean true) ['t', 'r', 'u', 'e']
  | no : Spells (.boolean false) ['f', 'a', 'l', 's', 'e']
  | negative {n : Number} {text : List Char} (token : readNumber true text = .ok (.number n, [])) :
      Spells (.number n) ('-' :: text)
  | positive {n : Number} {text : List Char} (token : readNumber false text = .ok (.number n, [])) :
      Spells (.number n) text
  | string {s : String} {text : List Char} (token : readText text = .ok (s, [])) : Spells (.string s) ('"' :: text)
  | array {items : List Value} {text : List Char} (listed : Listed Spells ']' items text) :
      Spells (.array items) ('[' :: text)
  | object {members : Members} {text : List Char} (listed : Listed SpellsMember '}' members text) :
      Spells (.object members) ('{' :: text)

inductive SpellsMember : String × Value → List Char → Prop where
  | colon {key : String} {value : Value} {name before after text : List Char}
      (token : readText name = .ok (key, [])) (ahead : Blank before) (behind : Blank after)
      (spelled : Spells value text) :
      SpellsMember (key, value) ('"' :: (name ++ (before ++ ':' :: (after ++ text))))

end

theorem blankNone : Blank [] := nofun

theorem Blank.append {s t : List Char} (left : Blank s) (right : Blank t) : Blank (s ++ t) :=
  fun c mem => (List.mem_append.mp mem).elim (left c) (right c)

theorem skipStands {c : Char} {rest : List Char} (solid : isSpace c = false) : skip (c :: rest) = c :: rest := by
  simp [skip, solid]

theorem skipBlank {blanks : List Char} (blank : Blank blanks) (rest : List Char) :
    skip (blanks ++ rest) = skip rest := List.dropWhile_append_of_pos blank

theorem skipTo {blanks : List Char} (blank : Blank blanks) {c : Char} (solid : isSpace c = false)
    (rest : List Char) : skip (blanks ++ c :: rest) = c :: rest := by
  rw [skipBlank blank, skipStands solid]

theorem skipSplit (s : List Char) : ∃ blanks, Blank blanks ∧ s = blanks ++ skip s :=
  ⟨s.takeWhile isSpace, fun _ => List.mem_takeWhile_imp, List.takeWhile_append_dropWhile.symm⟩

theorem spaceStops {c : Char} (space : isSpace c) (rest : List Char) : Stops (c :: rest) := by
  have spaces : ((c = ' ' ∨ c = '\n') ∨ c = '\t') ∨ c = '\r' := by simpa [isSpace] using space
  obtain ((rfl | rfl) | rfl) | rfl := spaces <;> exact ⟨by decide, by decide, by decide, by decide⟩

theorem blankStops {blanks rest : List Char} (blank : Blank blanks) (stops : Stops rest) :
    Stops (blanks ++ rest) := by
  cases blanks with
  | nil => exact stops
  | cons c blanks => exact spaceStops (blank c List.mem_cons_self) _

theorem separatorStops {c : Char} (separator : c ∈ [',', ']', '}']) (rest : List Char) : Stops (c :: rest) := by
  have cases : c = ',' ∨ c = ']' ∨ c = '}' := by simpa using separator
  rcases cases with rfl | rfl | rfl <;> exact ⟨by decide, by decide, by decide, by decide⟩

theorem Listed.indent {α : Type} {spells : α → List Char → Prop} {close : Char} {as : List α} {text : List Char}
    (listed : Listed spells close as text) {blanks : List Char} (blank : Blank blanks) :
    Listed spells close as (blanks ++ text) := by
  cases listed with
  | empty own =>
    rw [← List.append_assoc]
    exact .empty (blank.append own)
  | last ahead spelled behind =>
    rw [← List.append_assoc]
    exact .last (blank.append ahead) spelled behind
  | more ahead spelled behind later =>
    rw [← List.append_assoc]
    exact .more (blank.append ahead) spelled behind later

theorem Listed.length {α : Type} {spells : α → List Char → Prop} {close : Char} {as : List α}
    {text : List Char} (listed : Listed spells close as text) : as.length ≤ text.length := by
  induction listed with
  | empty => exact Nat.zero_le _
  | last => simp; omega
  | more _ _ _ _ ih => simp at ih ⊢; omega

mutual

def Value.depth : Value → Nat
  | .null | .boolean _ | .number _ | .string _ => 0
  | .array items => itemsDepth items + 1
  | .object members => membersDepth members + 1

def itemsDepth : List Value → Nat
  | [] => 0
  | item :: rest => max item.depth (itemsDepth rest)

def membersDepth : List (String × Value) → Nat
  | [] => 0
  | (_, value) :: rest => max value.depth (membersDepth rest)

end

theorem itemsDepthLe {items : List Value} {depth : Nat} :
    itemsDepth items ≤ depth ↔ ∀ item ∈ items, item.depth ≤ depth := by
  induction items with
  | nil => simp [itemsDepth]
  | cons item rest ih => rw [itemsDepth, Nat.max_le, ih, List.forall_mem_cons]

theorem membersDepthLe {members : Members} {depth : Nat} :
    membersDepth members ≤ depth ↔ ∀ member ∈ members, member.2.depth ≤ depth := by
  induction members with
  | nil => simp [membersDepth]
  | cons member rest ih => rw [membersDepth, Nat.max_le, ih, List.forall_mem_cons]

theorem itemDepthSame {v w : Value} (same : v.depth = w.depth) (earlier later : List Value) :
    (Value.array (earlier ++ v :: later)).depth = (Value.array (earlier ++ w :: later)).depth :=
  congrArg Nat.succ <| eq_of_forall_ge_iff fun _ => by
    simp only [itemsDepthLe, List.forall_mem_append, List.forall_mem_cons, same]

theorem memberDepthSame {v w : Value} (same : v.depth = w.depth) (key : String) (ahead behind : Members) :
    (Value.object (ahead ++ (key, v) :: behind)).depth = (Value.object (ahead ++ (key, w) :: behind)).depth :=
  congrArg Nat.succ <| eq_of_forall_ge_iff fun _ => by
    simp only [membersDepthLe, List.forall_mem_append, List.forall_mem_cons, same]

end AccountWatch.Json
