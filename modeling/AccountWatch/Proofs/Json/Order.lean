import AccountWatch.Json.Value
import Mathlib.Tactic.SplitIfs

/-! Documents whose objects hold their members in ascending order of the keys, each key once. `sorted` puts a document
in order; of members with the same key only the last is left. -/
namespace AccountWatch.Json

@[elab_as_elim]
theorem Value.induction {P : Value → Prop} (null : P .null) (boolean : ∀ b, P (.boolean b))
    (number : ∀ n, P (.number n)) (string : ∀ s, P (.string s))
    (array : ∀ items, (∀ item ∈ items, P item) → P (.array items))
    (object : ∀ members : Members, (∀ member ∈ members, P member.2) → P (.object members)) (v : Value) : P v :=
  @Value.rec P (fun items => ∀ item ∈ items, P item) (fun members => ∀ member ∈ members, P member.2)
    (fun member => P member.2) null boolean number string array object nofun
    (fun _ _ head tail => List.forall_mem_cons.mpr ⟨head, tail⟩) nofun
    (fun _ _ head tail => List.forall_mem_cons.mpr ⟨head, tail⟩) (fun _ _ value => value) v

mutual

def Value.sorted : Value → Value
  | .null => .null
  | .boolean b => .boolean b
  | .number n => .number n
  | .string s => .string s
  | .array items => .array (sortedItems items)
  | .object members => .object (Members.ofList (sortedMembers members))

def sortedItems : List Value → List Value
  | [] => []
  | item :: rest => item.sorted :: sortedItems rest

def sortedMembers : List (String × Value) → List (String × Value)
  | [] => []
  | (key, value) :: rest => (key, value.sorted) :: sortedMembers rest

end

theorem sortedItemsMap (items : List Value) : sortedItems items = items.map Value.sorted := by
  induction items with
  | nil => rfl
  | cons item rest ih => rw [sortedItems, ih, List.map_cons]

theorem sortedMembersMap (members : Members) :
    sortedMembers members = members.map fun member => (member.1, member.2.sorted) := by
  induction members with
  | nil => rfl
  | cons member rest ih => rw [sortedMembers, ih, List.map_cons]

def Members.Ascending (doc : Members) : Prop := (doc.map Prod.fst).Pairwise (· < ·)

inductive Value.Ordered : Value → Prop where
  | null : Ordered .null
  | boolean (b : Bool) : Ordered (.boolean b)
  | number (n : Number) : Ordered (.number n)
  | string (s : String) : Ordered (.string s)
  | array {items : List Value} (each : ∀ item ∈ items, Ordered item) : Ordered (.array items)
  | object {members : Members} (ascending : members.Ascending)
      (each : ∀ member ∈ members, Ordered member.2) : Ordered (.object members)

namespace Members

theorem insertMembers {key : String} {value : Value} {doc : Members} {member : String × Value}
    (mem : member ∈ insert key value doc) : member = (key, value) ∨ member ∈ doc := by
  induction doc with
  | nil => exact .inl (List.mem_singleton.mp mem)
  | cons first rest ih =>
    unfold insert at mem
    split_ifs at mem with before same
    · exact List.mem_cons.mp mem
    · exact (List.mem_cons.mp mem).imp_right (List.mem_cons_of_mem first)
    · rcases List.mem_cons.mp mem with rfl | later
      · exact .inr List.mem_cons_self
      · exact (ih later).imp_right (List.mem_cons_of_mem first)

theorem insertAscending {doc : Members} (ascending : doc.Ascending) (key : String) (value : Value) :
    (insert key value doc).Ascending := by
  induction doc with
  | nil => exact List.pairwise_singleton _ _
  | cons first rest ih =>
    obtain ⟨first, held⟩ := first
    obtain ⟨ahead, later⟩ := List.pairwise_cons.mp ascending
    unfold insert
    split_ifs with before same
    · refine List.pairwise_cons.mpr ⟨?_, ascending⟩
      intro other mem
      rcases List.mem_cons.mp mem with rfl | mem
      · exact before
      · exact String.lt_trans before (ahead other mem)
    · subst same
      exact ascending
    · refine List.pairwise_cons.mpr ⟨?_, ih later⟩
      intro other mem
      obtain ⟨member, inside, rfl⟩ := List.mem_map.mp mem
      rcases insertMembers inside with rfl | old
      · exact String.not_le.mp fun behind => same (String.le_antisymm behind (String.not_lt.mp before))
      · exact ahead member.1 (List.mem_map_of_mem old)

theorem insertLast {doc : Members} {key : String} (value : Value) (last : ∀ member ∈ doc, member.1 < key) :
    insert key value doc = doc ++ [(key, value)] := by
  induction doc with
  | nil => rfl
  | cons first rest ih =>
    have before := last first List.mem_cons_self
    have different : key ≠ first.1 := by
      rintro rfl
      exact String.lt_irrefl _ before
    unfold insert
    rw [if_neg (String.lt_asymm before), if_neg different,
      ih fun member mem => last member (List.mem_cons_of_mem first mem), List.cons_append]

theorem ofListMembers {members : Members} {member : String × Value} (mem : member ∈ ofList members) :
    member ∈ members := by
  have all (members : Members) : ∀ done : Members, member ∈ members.foldl (fun doc m => insert m.1 m.2 doc) done →
      member ∈ done ∨ member ∈ members := by
    induction members with
    | nil => exact fun _ => .inl
    | cons first rest ih =>
      intro done mem
      rcases ih _ mem with inserted | later
      · rcases insertMembers inserted with rfl | old
        · exact .inr List.mem_cons_self
        · exact .inl old
      · exact .inr (List.mem_cons_of_mem first later)
  exact (all members [] mem).resolve_left List.not_mem_nil

theorem ofListAscending (members : Members) : (ofList members).Ascending := by
  have all (members : Members) : ∀ done : Members, done.Ascending →
      Ascending (members.foldl (fun doc m => insert m.1 m.2 doc) done) := by
    induction members with
    | nil => exact fun _ ascending => ascending
    | cons first rest ih => exact fun done ascending => ih _ (insertAscending ascending first.1 first.2)
  exact all members [] .nil

theorem Ascending.ofList {members : Members} (ascending : members.Ascending) : ofList members = members := by
  have all (members : Members) : ∀ done : Members, Ascending (done ++ members) →
      members.foldl (fun doc m => insert m.1 m.2 doc) done = done ++ members := by
    induction members with
    | nil => exact fun done _ => (List.append_nil done).symm
    | cons first rest ih =>
      intro done ascending
      have last : ∀ member ∈ done, member.1 < first.1 := by
        intro member mem
        unfold Ascending at ascending
        rw [List.map_append] at ascending
        exact (List.pairwise_append.mp ascending).2.2 _ (List.mem_map_of_mem mem) _ List.mem_cons_self
      rw [List.foldl_cons, insertLast first.2 last]
      have moved : done ++ first :: rest = done ++ [(first.1, first.2)] ++ rest := by simp
      rw [moved] at ascending ⊢
      exact ih _ ascending
  exact all members [] ascending

end Members

theorem sortedOrdered (v : Value) : v.sorted.Ordered := by
  induction v using Value.induction with
  | null => exact .null
  | boolean b => exact .boolean b
  | number n => exact .number n
  | string s => exact .string s
  | array items ih =>
    rw [Value.sorted, sortedItemsMap]
    refine .array fun v mem => ?_
    obtain ⟨item, inside, rfl⟩ := List.mem_map.mp mem
    exact ih item inside
  | object members ih =>
    rw [Value.sorted, sortedMembersMap]
    refine .object (Members.ofListAscending _) fun member mem => ?_
    obtain ⟨raw, inside, rfl⟩ := List.mem_map.mp (Members.ofListMembers mem)
    exact ih raw inside

theorem Value.Ordered.sorted {v : Value} (ordered : v.Ordered) : v.sorted = v := by
  induction ordered with
  | null | boolean | number | string => rfl
  | array each ih =>
    rw [Value.sorted, sortedItemsMap, List.map_congr_left ih, List.map_id']
  | @object members ascending each ih =>
    have same : ∀ member ∈ members, (member.1, member.2.sorted) = member :=
      fun member mem => congrArg (Prod.mk member.1) (ih member mem)
    rw [Value.sorted, sortedMembersMap, List.map_congr_left same, List.map_id', ascending.ofList]

end AccountWatch.Json
