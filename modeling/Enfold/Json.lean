import Enfold.Foundation.Fallible

/-! Decoded JSON values, as `json.loads` hands them over and `json.dumps` takes them.
Object members keep their order; the store only ever dumps with sorted keys. -/
namespace Enfold

inductive Json where
  | null
  | bool (value : Bool)
  | int (value : Int)
  | float (value : Rat)
  | str (value : String)
  | arr (items : List Json)
  | obj (members : List (String × Json))
  deriving Repr

namespace Json

mutual
def same : Json → Json → Bool
  | .null, .null => true
  | .bool a, .bool b => a == b
  | .int a, .int b => a == b
  | .float a, .float b => a == b
  | .str a, .str b => a == b
  | .arr a, .arr b => sameItems a b
  | .obj a, .obj b => sameMembers a b
  | _, _ => false
def sameItems : List Json → List Json → Bool
  | [], [] => true
  | a :: as, b :: bs => same a b && sameItems as bs
  | _, _ => false
def sameMembers : List (String × Json) → List (String × Json) → Bool
  | [], [] => true
  | (k, a) :: as, (l, b) :: bs => k == l && same a b && sameMembers as bs
  | _, _ => false
end

mutual
theorem sameRefl : (a : Json) → same a a = true
  | .null => rfl
  | .bool a => by simp [same]
  | .int a => by simp [same]
  | .float a => by simp [same]
  | .str a => by simp [same]
  | .arr a => by simpa [same] using sameItemsRefl a
  | .obj a => by simpa [same] using sameMembersRefl a
theorem sameItemsRefl : (as : List Json) → sameItems as as = true
  | [] => rfl
  | a :: as => by simp [sameItems, sameRefl a, sameItemsRefl as]
theorem sameMembersRefl : (as : List (String × Json)) → sameMembers as as = true
  | [] => rfl
  | (k, a) :: as => by simp [sameMembers, sameRefl a, sameMembersRefl as]
end

mutual
theorem sameSound : (a b : Json) → same a b = true → a = b
  | .null, b, h => by cases b <;> simp_all [same]
  | .bool a, b, h => by cases b <;> simp_all [same]
  | .int a, b, h => by cases b <;> simp_all [same]
  | .float a, b, h => by cases b <;> simp_all [same]
  | .str a, b, h => by cases b <;> simp_all [same]
  | .arr a, b, h => by
    cases b with
    | arr b => exact congrArg Json.arr (sameItemsSound a b (by simpa [same] using h))
    | _ => simp [same] at h
  | .obj a, b, h => by
    cases b with
    | obj b => exact congrArg Json.obj (sameMembersSound a b (by simpa [same] using h))
    | _ => simp [same] at h
theorem sameItemsSound : (as bs : List Json) → sameItems as bs = true → as = bs
  | [], [], _ => rfl
  | [], _ :: _, h => by simp [sameItems] at h
  | _ :: _, [], h => by simp [sameItems] at h
  | a :: as, b :: bs, h => by
    simp only [sameItems, Bool.and_eq_true] at h
    rw [sameSound a b h.1, sameItemsSound as bs h.2]
theorem sameMembersSound : (as bs : List (String × Json)) → sameMembers as bs = true → as = bs
  | [], [], _ => rfl
  | [], _ :: _, h => by simp [sameMembers] at h
  | _ :: _, [], h => by simp [sameMembers] at h
  | (k, a) :: as, (l, b) :: bs, h => by
    simp only [sameMembers, Bool.and_eq_true, beq_iff_eq] at h
    rw [h.1.1, sameSound a b h.1.2, sameMembersSound as bs h.2]
end

instance : DecidableEq Json := fun a b =>
  decidable_of_iff (same a b = true) ⟨sameSound a b, fun h => h ▸ sameRefl a⟩

/-- `value.get(key)` on an object; `None` for every other value and for an absent key. -/
def get (key : String) : Json → Option Json
  | .obj members => members.lookup key
  | _ => none

def keys : Json → List String
  | .obj members => members.map Prod.fst
  | _ => []

end Json

/-- A decoded JSON object: the only thing the metadata and detail columns hold. -/
abbrev JsonObject := List (String × Json)

end Enfold
