import Mathlib.Data.List.Sort
import Enfold.Json

/-! What holds throughout a JSON value: a check on every value inside it, its depth, and the
same value with the members of every object in the order of their keys. -/
namespace Enfold.Json

/-! ## Every value inside a value -/

mutual
def every (p : Json → Bool) : Json → Bool
  | .arr items => p (.arr items) && everyItem p items
  | .obj members => p (.obj members) && everyMember p members
  | v => p v
def everyItem (p : Json → Bool) : List Json → Bool
  | [] => true
  | item :: items => item.every p && everyItem p items
def everyMember (p : Json → Bool) : JsonObject → Bool
  | [] => true
  | (_, value) :: members => value.every p && everyMember p members
end

section Every
variable {p q : Json → Bool}

theorem everyHere {v : Json} (h : v.every p = true) : p v = true := by
  cases v with
  | arr items => exact (Bool.and_eq_true_iff.mp h).1
  | obj members => exact (Bool.and_eq_true_iff.mp h).1
  | _ => exact h

theorem everyItemIff {items : List Json} :
    everyItem p items = true ↔ ∀ item ∈ items, item.every p = true := by
  induction items with
  | nil => simp [everyItem]
  | cons item items ih => simp [everyItem, ih]

theorem everyMemberIff {members : JsonObject} :
    everyMember p members = true ↔ ∀ member ∈ members, member.2.every p = true := by
  induction members with
  | nil => simp [everyMember]
  | cons member members ih =>
    obtain ⟨key, value⟩ := member
    rw [everyMember, Bool.and_eq_true_iff, ih, List.forall_mem_cons]

mutual
theorem everyBoth : (v : Json) → v.every p = true → v.every q = true →
    v.every (fun v => p v && q v) = true
  | .arr items, h, k => by
    simp only [every, Bool.and_eq_true] at h k ⊢
    exact ⟨⟨h.1, k.1⟩, everyItemBoth items h.2 k.2⟩
  | .obj members, h, k => by
    simp only [every, Bool.and_eq_true] at h k ⊢
    exact ⟨⟨h.1, k.1⟩, everyMemberBoth members h.2 k.2⟩
  | .null, h, k | .bool _, h, k | .int _, h, k | .float _, h, k | .str _, h, k =>
    Bool.and_eq_true_iff.mpr ⟨h, k⟩
theorem everyItemBoth : (items : List Json) → everyItem p items = true → everyItem q items = true →
    everyItem (fun v => p v && q v) items = true
  | [], _, _ => rfl
  | item :: items, h, k => by
    simp only [everyItem, Bool.and_eq_true] at h k ⊢
    exact ⟨everyBoth item h.1 k.1, everyItemBoth items h.2 k.2⟩
theorem everyMemberBoth : (members : JsonObject) → everyMember p members = true →
    everyMember q members = true → everyMember (fun v => p v && q v) members = true
  | [], _, _ => rfl
  | (_, value) :: members, h, k => by
    simp only [everyMember, Bool.and_eq_true] at h k ⊢
    exact ⟨everyBoth value h.1 k.1, everyMemberBoth members h.2 k.2⟩
end

end Every

/-! ## Depth -/

-- the containers around the deepest value
mutual
def height : Json → Nat
  | .arr items => heightItems items
  | .obj members => heightMembers members
  | _ => 0
def heightItems : List Json → Nat
  | [] => 0
  | item :: items => max (item.height + 1) (heightItems items)
def heightMembers : JsonObject → Nat
  | [] => 0
  | (_, value) :: members => max (value.height + 1) (heightMembers members)
end

theorem heightItemsLe {items : List Json} {n : Nat} :
    heightItems items ≤ n ↔ ∀ item ∈ items, item.height + 1 ≤ n := by
  induction items with
  | nil => simp [heightItems]
  | cons item items ih => rw [heightItems, Nat.max_le, ih, List.forall_mem_cons]

theorem heightMembersLe {members : JsonObject} {n : Nat} :
    heightMembers members ≤ n ↔ ∀ member ∈ members, member.2.height + 1 ≤ n := by
  induction members with
  | nil => simp [heightMembers]
  | cons member members ih =>
    obtain ⟨key, value⟩ := member
    rw [heightMembers, Nat.max_le, ih, List.forall_mem_cons]

/-! ## Keys in order -/

def sortMembers (members : JsonObject) : JsonObject :=
  members.insertionSort fun a b => a.1 ≤ b.1

theorem sortMembersPerm (members : JsonObject) : (sortMembers members).Perm members :=
  List.perm_insertionSort _ members

mutual
def sorted : Json → Json
  | .arr items => .arr (sortedItems items)
  | .obj members => .obj (sortMembers (sortedMembers members))
  | v => v
def sortedItems : List Json → List Json
  | [] => []
  | item :: items => item.sorted :: sortedItems items
def sortedMembers : JsonObject → JsonObject
  | [] => []
  | (key, value) :: members => (key, value.sorted) :: sortedMembers members
end

theorem sortedItemsMap (items : List Json) : sortedItems items = items.map sorted := by
  induction items with
  | nil => rfl
  | cons item items ih => rw [sortedItems, ih, List.map_cons]

theorem sortedMembersMap (members : JsonObject) :
    sortedMembers members = members.map fun member => (member.1, member.2.sorted) := by
  induction members with
  | nil => rfl
  | cons member members ih =>
    obtain ⟨key, value⟩ := member
    rw [sortedMembers, ih, List.map_cons]

theorem sortedKeys (members : JsonObject) :
    ((sortMembers (sortedMembers members)).map Prod.fst).Perm (members.map Prod.fst) := by
  have same : (sortedMembers members).map Prod.fst = members.map Prod.fst := by
    rw [sortedMembersMap, List.map_map]
    rfl
  rw [← same]
  exact (sortMembersPerm _).map _

theorem sortedMember {members : JsonObject} {member : String × Json} :
    member ∈ sortMembers (sortedMembers members) ↔ ∃ old ∈ members, (old.1, old.2.sorted) = member := by
  rw [(sortMembersPerm _).mem_iff, sortedMembersMap, List.mem_map]

mutual
theorem sortedHeight : (v : Json) → v.sorted.height = v.height
  | .arr items => by
    rw [sorted, height, height]
    exact sortedHeightItems items
  | .obj members => by
    refine Eq.trans ?_ (sortedHeightMembers members)
    refine eq_of_forall_ge_iff fun n => ?_
    simp only [sorted, height, heightMembersLe, (sortMembersPerm _).mem_iff]
  | .null | .bool _ | .int _ | .float _ | .str _ => rfl
theorem sortedHeightItems : (items : List Json) → heightItems (sortedItems items) = heightItems items
  | [] => rfl
  | item :: items => by
    rw [sortedItems, heightItems, heightItems, sortedHeight item, sortedHeightItems items]
theorem sortedHeightMembers : (members : JsonObject) →
    heightMembers (sortedMembers members) = heightMembers members
  | [] => rfl
  | (_, value) :: members => by
    rw [sortedMembers, heightMembers, heightMembers, sortedHeight value, sortedHeightMembers members]
end

section EverySorted
variable {p : Json → Bool}

-- a check that does not mind the order of the members
def Stable (p : Json → Bool) : Prop := ∀ v : Json, p v = true → p v.sorted = true

mutual
theorem everySorted (stable : Stable p) : (v : Json) → v.every p = true → v.sorted.every p = true
  | .arr items, h => by
    simp only [every, Bool.and_eq_true] at h
    rw [sorted, every, Bool.and_eq_true]
    exact ⟨stable _ h.1, everyItemSorted stable items h.2⟩
  | .obj members, h => by
    simp only [every, Bool.and_eq_true] at h
    rw [sorted, every, Bool.and_eq_true]
    refine ⟨stable _ h.1, everyMemberIff.mpr fun member inside => ?_⟩
    rw [(sortMembersPerm _).mem_iff] at inside
    exact everyMemberIff.mp (everyMemberSorted stable members h.2) member inside
  | .null, h | .bool _, h | .int _, h | .float _, h | .str _, h => h
theorem everyItemSorted (stable : Stable p) : (items : List Json) → everyItem p items = true →
    everyItem p (sortedItems items) = true
  | [], _ => rfl
  | item :: items, h => by
    simp only [everyItem, Bool.and_eq_true] at h
    simp only [sortedItems, everyItem, Bool.and_eq_true]
    exact ⟨everySorted stable item h.1, everyItemSorted stable items h.2⟩
theorem everyMemberSorted (stable : Stable p) : (members : JsonObject) → everyMember p members = true →
    everyMember p (sortedMembers members) = true
  | [], _ => rfl
  | (_, value) :: members, h => by
    simp only [everyMember, Bool.and_eq_true] at h
    simp only [sortedMembers, everyMember, Bool.and_eq_true]
    exact ⟨everySorted stable value h.1, everyMemberSorted stable members h.2⟩
end

end EverySorted

/-! ## Equality of decoded values -/

mutual
/-- Equality as the interpreter compares lists and dictionaries: the order of the members of an
object does not count. -/
inductive Equals : Json → Json → Prop
  | refl {v : Json} : Equals v v
  | arr {items others : List Json} : EqualItems items others → Equals (.arr items) (.arr others)
  | obj {members listed others : JsonObject} : EqualMembers members listed → listed.Perm others →
      Equals (.obj members) (.obj others)
inductive EqualItems : List Json → List Json → Prop
  | nil : EqualItems [] []
  | cons {item other : Json} {items others : List Json} :
    Equals item other → EqualItems items others → EqualItems (item :: items) (other :: others)
inductive EqualMembers : JsonObject → JsonObject → Prop
  | nil : EqualMembers [] []
  | cons {key : String} {value other : Json} {members others : JsonObject} : Equals value other →
    EqualMembers members others → EqualMembers ((key, value) :: members) ((key, other) :: others)
end

mutual
theorem equalsSorted : (v : Json) → Equals v v.sorted
  | .arr items => .arr (equalsSortedItems items)
  | .obj members => .obj (equalsSortedMembers members) (sortMembersPerm _).symm
  | .null | .bool _ | .int _ | .float _ | .str _ => .refl
theorem equalsSortedItems : (items : List Json) → EqualItems items (sortedItems items)
  | [] => .nil
  | item :: items => .cons (equalsSorted item) (equalsSortedItems items)
theorem equalsSortedMembers : (members : JsonObject) → EqualMembers members (sortedMembers members)
  | [] => .nil
  | (_, value) :: members => .cons (equalsSorted value) (equalsSortedMembers members)
end

/-! ## Looking a member up -/

theorem lookupMem {members : JsonObject} (distinct : (members.map Prod.fst).Nodup) {key : String}
    {value : Json} : members.lookup key = some value ↔ (key, value) ∈ members := by
  induction members with
  | nil => simp
  | cons member members ih =>
    obtain ⟨k, v⟩ := member
    rw [List.map_cons, List.nodup_cons] at distinct
    rw [List.lookup_cons, List.mem_cons, Prod.mk.injEq]
    by_cases same : key = k
    · subst same
      have absent : (key, value) ∉ members := fun inside =>
        distinct.1 (List.mem_map.mpr ⟨_, inside, rfl⟩)
      simp [absent, eq_comm]
    · have differs : (key == k) = false := beq_false_of_ne same
      simp only [differs, same, false_and, false_or]
      exact ih distinct.2

theorem lookupSorted {members : JsonObject} (distinct : (members.map Prod.fst).Nodup) (key : String) :
    (sortMembers (sortedMembers members)).lookup key = (members.lookup key).map sorted := by
  refine Option.ext fun value => ?_
  rw [lookupMem ((sortedKeys members).nodup_iff.mpr distinct), sortedMember]
  simp only [Option.map_eq_some_iff, lookupMem distinct, Prod.mk.injEq, Prod.exists]
  constructor
  · rintro ⟨k, v, inside, rfl, last⟩
    exact ⟨v, inside, last⟩
  · rintro ⟨v, inside, last⟩
    exact ⟨key, v, inside, rfl, last⟩

/-! ## Sorting again -/

section Again

abbrev keyOrder (a b : String × Json) : Prop := a.1 ≤ b.1

instance : Std.Total keyOrder := ⟨fun a b => String.le_total a.1 b.1⟩
instance : IsTrans (String × Json) keyOrder := ⟨fun _ _ _ first second => String.le_trans first second⟩

theorem sortMembersTwice (members : JsonObject) : sortMembers (sortMembers members) = sortMembers members :=
  (List.pairwise_insertionSort keyOrder members).insertionSort_eq

-- sorted values are left alone, whatever the order of their members
theorem sortedMembersKept {members : JsonObject} (kept : ∀ member ∈ members, member.2.sorted = member.2) :
    sortedMembers members = members := by
  rw [sortedMembersMap]
  refine (List.map_congr_left fun member inside => ?_).trans (List.map_id members)
  rw [kept member inside]
  rfl

mutual
theorem sortedTwice : (v : Json) → v.sorted.sorted = v.sorted
  | .arr items => by
    rw [sorted, sorted, sortedItemsTwice items]
  | .obj members => by
    have kept : ∀ member ∈ sortMembers (sortedMembers members), member.2.sorted = member.2 := by
      intro member inside
      obtain ⟨old, there, rfl⟩ := sortedMember.mp inside
      exact sortedMembersTwice members old there
    rw [sorted, sorted, sortedMembersKept kept, sortMembersTwice]
  | .null | .bool _ | .int _ | .float _ | .str _ => rfl
theorem sortedItemsTwice : (items : List Json) → sortedItems (sortedItems items) = sortedItems items
  | [] => rfl
  | item :: items => by
    rw [sortedItems, sortedItems, sortedTwice item, sortedItemsTwice items]
theorem sortedMembersTwice : (members : JsonObject) →
    ∀ member ∈ members, member.2.sorted.sorted = member.2.sorted
  | [], _, inside => absurd inside List.not_mem_nil
  | (key, value) :: members, member, inside => by
    rcases List.mem_cons.mp inside with rfl | inside
    · exact sortedTwice value
    · exact sortedMembersTwice members member inside
end

end Again

end Enfold.Json

namespace Enfold

def listed (data : JsonObject) : JsonObject := Json.sortMembers (Json.sortedMembers data)

theorem listedLookup {data : JsonObject} (distinct : (data.map Prod.fst).Nodup) (key : String) :
    (listed data).lookup key = (data.lookup key).map Json.sorted := Json.lookupSorted distinct key

theorem listedMember {data : JsonObject} (distinct : (data.map Prod.fst).Nodup) (name : String) :
    ((listed data).lookup name).getD .null = ((data.lookup name).getD .null).sorted := by
  rw [listedLookup distinct]
  cases data.lookup name with
  | none => rfl
  | some value => rfl

theorem listedKeys (data : JsonObject) : ((listed data).map Prod.fst).Perm (data.map Prod.fst) :=
  Json.sortedKeys data

end Enfold
