import Enfold.CitationRewriting
import Enfold.MergeConservation

/-! Citations over a cluster merge. Merged tags are put together from the members' tags while a list of
ids uses the comma that separates tags; what follows a merge of lists is read off the parts. -/
namespace Enfold

open Fallible

variable {rt : Runtime}

section Parts
variable {before behind rest : List (List Char)} {first d : List Char}

end Parts

/-! ## Merged tags -/

section Merged
variable {tags : String} {rows : List Fact} {first d : List Char} {rest : List (List Char)}

end Merged

/-! ## The tags of a row -/

section Tags
variable {f g : Fact} {tags : String} {dropped kept losers : List Nat} {survivor : Nat}

theorem Carried.refl (tags : String) : Carried rt tags tags id :=
  fun _ k => ⟨fun cited => ⟨k, cited, rfl⟩, fun ⟨_, cited, same⟩ => same ▸ cited⟩

theorem Carried.trans {a b c : String} {first next : Nat → Nat} (left : Carried rt a b first)
    (right : Carried rt b c next) : Carried rt a c fun j => next (first j) := by
  intro reader k
  rw [right reader k]
  constructor
  · rintro ⟨j, cited, rfl⟩
    obtain ⟨i, before, rfl⟩ := (left reader j).mp cited
    exact ⟨i, before, rfl⟩
  · rintro ⟨i, cited, rfl⟩
    exact ⟨first i, (left reader _).mpr ⟨i, cited, rfl⟩, rfl⟩

theorem Carried.congr {a b : String} {move other : Nat → Nat} (carried : Carried rt a b move)
    (same : ∀ j, (∃ reader : CitationReader, reader.cites rt a j) → move j = other j) : Carried rt a b other := by
  intro reader k
  rw [carried reader k]
  constructor
  · rintro ⟨j, cited, rfl⟩
    exact ⟨j, cited, (same j ⟨reader, cited⟩).symm⟩
  · rintro ⟨j, cited, rfl⟩
    exact ⟨j, cited, same j ⟨reader, cited⟩⟩

end Tags

/-! ## A plan -/

def ClusterMerge.rows (s : Store) (c : ClusterMerge) : List Fact :=
  factRows s.toLedger (c.members.insertionSort (· ≤ ·))

def MergePlan.survivors (plan : MergePlan) : List Nat := plan.clusters.map ClusterMerge.survivorId

section Plan
variable {similarity : List Rat → List Rat → Rat} {s : Store} {threshold : Rat} {floodCutoff : String}
  {chosen : Option String} {plan : MergePlan} {c : ClusterMerge} {f g : Fact}

end Plan

/-! ## Citations over a merge -/

section Claim
variable {similarity : List Rat → List Rat → Rat} {s : Store} {threshold : Rat} {floodCutoff : String}
  {chosen : Option String} {plan : MergePlan}

end Claim

namespace Example

end Example

end Enfold
