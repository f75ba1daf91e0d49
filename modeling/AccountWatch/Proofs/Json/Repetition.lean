import AccountWatch.Proofs.Json.Grammar
import AccountWatch.Proofs.Json.Order
import Mathlib.Data.List.Nodup
import Mathlib.Data.List.Perm.Basic

/-! What putting members in order does not depend on. Insertions of different keys commute and of two with one key the
later stays, so members of different keys may change places, and of those with the same key all but the last may go:
the last is what is found under the key. -/
namespace AccountWatch.Json

namespace Members

def keys (members : Members) : List String := members.map Prod.fst

def lastOnly : Members → Members
  | [] => []
  | member :: rest => if member.1 ∈ keys rest then lastOnly rest else member :: lastOnly rest

theorem keysMap (f : Value → Value) (members : Members) :
    keys (members.map fun member => (member.1, f member.2)) = keys members := by
  unfold keys
  rw [List.map_map]
  rfl

theorem insertAgain (key : String) (first last : Value) (doc : Members) :
    insert key last (insert key first doc) = insert key last doc := by
  induction doc with
  | nil => simp [insert]
  | cons member rest ih =>
    rw [insert.eq_def key first]
    dsimp only
    split_ifs with before same
    · simp [insert, before]
    · simp [insert, same]
    · simp [insert, before, same, ih]

theorem insertBefore {k l : String} (less : k < l) (v w : Value) (doc : Members) :
    insert k v (insert l w doc) = insert l w (insert k v doc) := by
  have different : k ≠ l := fun same => String.lt_irrefl _ (same ▸ less)
  have behind : ¬ l < k := String.lt_asymm less
  induction doc with
  | nil => simp [insert, less, behind, different.symm]
  | cons member rest ih =>
    by_cases first : k < member.1
    · simp only [insert, if_pos first, if_neg behind, if_neg different.symm]
      split_ifs with before same
      · simp [insert, less]
      · simp [insert, less]
      · simp [insert, first]
    · have later : ¬ l < member.1 := fun before => first (String.lt_trans less before)
      have other : l ≠ member.1 := by
        rintro rfl
        exact first less
      by_cases same : k = member.1
      · simp only [insert, if_neg first, if_pos same, if_neg later, if_neg other, if_neg behind, if_neg different.symm]
      · simp [insert, first, same, later, other, ih]

theorem insertSwaps {k l : String} (different : k ≠ l) (v w : Value) (doc : Members) :
    insert k v (insert l w doc) = insert l w (insert k v doc) := by
  by_cases less : k < l
  · exact insertBefore less v w doc
  · have behind : l < k :=
      String.not_le.mp fun atMost => different (String.le_antisymm atMost (String.not_lt.mp less))
    exact (insertBefore behind w v doc).symm

theorem insertKeys (key : String) (value : Value) (doc : Members) (k : String) :
    k ∈ keys (insert key value doc) ↔ k = key ∨ k ∈ keys doc := by
  induction doc with
  | nil => simp [insert, keys]
  | cons member rest ih =>
    unfold insert
    split_ifs with before same
    · simp [keys]
    · simp [keys, same]
    · simp only [keys, List.map_cons, List.mem_cons] at ih ⊢
      rw [ih, or_left_comm]

theorem ofListKeys (members : Members) (k : String) : k ∈ keys (ofList members) ↔ k ∈ keys members := by
  have all (members : Members) : ∀ done : Members,
      k ∈ keys (members.foldl (fun doc m => insert m.1 m.2 doc) done) ↔ k ∈ keys done ∨ k ∈ keys members := by
    induction members with
    | nil => simp [keys]
    | cons member rest ih =>
      intro done
      rw [List.foldl_cons, ih, insertKeys]
      simp only [keys, List.map_cons, List.mem_cons]
      rw [or_assoc, or_left_comm]
  exact (all members []).trans (or_iff_right List.not_mem_nil)

theorem ofListPerm {members others : Members} (perm : members.Perm others) (distinct : (keys members).Nodup) :
    ofList members = ofList others := by
  refine perm.foldl_eq' (fun first mem second mem' done => ?_) []
  by_cases same : first.1 = second.1
  · rw [List.inj_on_of_nodup_map distinct mem mem' same]
  · exact insertSwaps (Ne.symm same) second.2 first.2 done

theorem insertCovered {key : String} {members : Members} (covered : key ∈ keys members) (value : Value)
    (done : Members) : members.foldl (fun doc m => insert m.1 m.2 doc) (insert key value done) =
      members.foldl (fun doc m => insert m.1 m.2 doc) done := by
  induction members generalizing done with
  | nil => cases covered
  | cons member rest ih =>
    rw [List.foldl_cons, List.foldl_cons]
    by_cases same : member.1 = key
    · rw [same, insertAgain]
    · have later : key ∈ keys rest := (List.mem_cons.mp covered).resolve_left (Ne.symm same)
      rw [insertSwaps same, ih later]

theorem ofListLast (members : Members) : ofList (lastOnly members) = ofList members := by
  have all (members : Members) : ∀ done : Members,
      (lastOnly members).foldl (fun doc m => insert m.1 m.2 doc) done =
        members.foldl (fun doc m => insert m.1 m.2 doc) done := by
    induction members with
    | nil => exact fun _ => rfl
    | cons member rest ih =>
      intro done
      unfold lastOnly
      split_ifs with covered
      · rw [List.foldl_cons, insertCovered covered, ih]
      · exact ih _
  exact all members []

theorem lastSublist (members : Members) : (lastOnly members).Sublist members := by
  induction members with
  | nil => exact .slnil
  | cons member rest ih =>
    unfold lastOnly
    split_ifs
    · exact ih.cons member
    · exact ih.cons_cons member

theorem lastMap (f : Value → Value) (members : Members) :
    lastOnly (members.map fun member => (member.1, f member.2)) =
      (lastOnly members).map fun member => (member.1, f member.2) := by
  induction members with
  | nil => rfl
  | cons member rest ih =>
    rw [List.map_cons, lastOnly, lastOnly, keysMap, ih]
    split_ifs <;> rfl

theorem lookupFirst (k name : String) (held : Value) (rest : Members) :
    ((name, held) :: rest).lookup k = if k = name then some held else rest.lookup k := by
  by_cases same : k = name
  · simp [same]
  · simp [List.lookup_cons, same, beq_false_of_ne same]

theorem lookupInsert (key : String) (value : Value) (doc : Members) (k : String) :
    (insert key value doc).lookup k = if k = key then some value else doc.lookup k := by
  induction doc with
  | nil => exact lookupFirst k key value []
  | cons member rest ih =>
    obtain ⟨name, held⟩ := member
    unfold insert
    by_cases before : key < name
    · rw [if_pos before, lookupFirst]
    · by_cases same : key = name
      · rw [if_neg before, if_pos same, lookupFirst, lookupFirst, ← same]
        split_ifs <;> rfl
      · rw [if_neg before, if_neg same, lookupFirst, lookupFirst, ih]
        by_cases first : k = name
        · rw [if_pos first, if_pos first, if_neg fun own => same (own.symm.trans first)]
        · rw [if_neg first, if_neg first]

theorem lookupAbsent {key : String} {members : Members} (absent : key ∉ keys members) (done : Members) :
    (members.foldl (fun doc m => insert m.1 m.2 doc) done).lookup key = done.lookup key := by
  induction members generalizing done with
  | nil => rfl
  | cons member rest ih =>
    obtain ⟨other, later⟩ := not_or.mp fun held => absent (List.mem_cons.mpr held)
    rw [List.foldl_cons, ih later, lookupInsert, if_neg other]

theorem lookupLast {key : String} {behind : Members} (last : key ∉ keys behind) (ahead : Members) (value : Value) :
    (ofList (ahead ++ (key, value) :: behind)).lookup key = some value := by
  unfold ofList
  rw [List.foldl_append, List.foldl_cons, lookupAbsent last, lookupInsert, if_pos rfl]

end Members

open Members

theorem objectSorted (members : Members) : (Value.object members).sorted =
    .object (ofList (members.map fun member => (member.1, member.2.sorted))) := by
  rw [Value.sorted, sortedMembersMap]

theorem objectPerm {members others : Members} (perm : members.Perm others) (distinct : (keys members).Nodup) :
    (Value.object members).sorted = (Value.object others).sorted := by
  rw [← keysMap Value.sorted] at distinct
  rw [objectSorted, objectSorted]
  exact congrArg Value.object (ofListPerm (perm.map _) distinct)

theorem objectLast (members : Members) :
    (Value.object (lastOnly members)).sorted = (Value.object members).sorted := by
  rw [objectSorted, objectSorted, ← lastMap, ofListLast]

theorem heldLast {key : String} {behind : Members} (last : key ∉ keys behind) (ahead : Members) (value : Value) :
    (ofList ((ahead ++ (key, value) :: behind).map fun member => (member.1, member.2.sorted))).lookup key =
      some value.sorted := by
  rw [List.map_append, List.map_cons]
  exact lookupLast (by rwa [keysMap]) _ _

theorem objectDepth {members others : Members} (within : members ⊆ others) :
    (Value.object members).depth ≤ (Value.object others).depth :=
  Nat.succ_le_succ (membersDepthLe.mpr fun member mem => membersDepthLe.mp (Nat.le_refl _) member (within mem))

end AccountWatch.Json
