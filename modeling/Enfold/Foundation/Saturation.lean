import Mathlib.Data.List.Nodup
import Mathlib.Data.List.Perm.Subperm
import Mathlib.Logic.Relation

/-! Loops that query for what belongs to a collection and add it, until a round finds nothing new. The
result is what the first collection reaches, and the rows of the table bound the rounds. -/
namespace Saturation

open Relation

variable {α κ : Type} [DecidableEq κ] (key : α → κ) (query : List α → List α)

def found (chain : List α) : List α := (query chain).filter fun x => !(chain.map key).contains (key x)

def grow : Nat → List α → Option (List α)
  | 0, _ => none
  | rounds + 1, chain =>
    if (found key query chain).isEmpty then some chain else grow rounds (chain ++ found key query chain)

structure Selects (rows : List α) (step : α → α → Prop) : Prop where
  sublist : ∀ chain, (query chain).Sublist rows
  mem : ∀ {chain x}, x ∈ query chain ↔ x ∈ rows ∧ ∃ a ∈ chain, step a x

section Loop
variable {key query} {rows chain result : List α} {step : α → α → Prop} {rounds : Nat} {x : α}

omit [DecidableEq κ] in
theorem keyMem (unique : (rows.map key).Nodup) (inside : ∀ a ∈ chain, a ∈ rows) (here : x ∈ rows) : key x ∈ chain.map key ↔ x ∈ chain := by
  constructor
  · intro listed
    obtain ⟨a, ha, same⟩ := List.mem_map.mp listed
    rwa [← List.inj_on_of_nodup_map unique (inside a ha) here same]
  · exact List.mem_map_of_mem

variable (unique : (rows.map key).Nodup) (selects : Selects query rows step)
include unique selects

theorem foundMem (inside : ∀ a ∈ chain, a ∈ rows) :
    x ∈ found key query chain ↔ (x ∈ rows ∧ ∃ a ∈ chain, step a x) ∧ x ∉ chain := by
  rw [found, List.mem_filter, selects.mem]
  refine and_congr_right fun ⟨here, _⟩ => ?_
  rw [← keyMem unique inside here, Bool.not_eq_true', List.contains_eq_mem, decide_eq_false_iff_not]

theorem foundInside (inside : ∀ a ∈ chain, a ∈ rows) : ∀ a ∈ chain ++ found key query chain, a ∈ rows := by
  intro a ha
  rcases List.mem_append.mp ha with old | new
  · exact inside a old
  · exact ((foundMem unique selects inside).mp new).1.1

theorem foundDistinct (inside : ∀ a ∈ chain, a ∈ rows) (distinct : (chain.map key).Nodup) :
    ((chain ++ found key query chain).map key).Nodup := by
  rw [List.map_append]
  refine List.nodup_append.mpr ⟨distinct, ?_, ?_⟩
  · exact ((List.filter_sublist.trans (selects.sublist chain)).map key).nodup unique
  · rintro k old l new rfl
    obtain ⟨x, hx, rfl⟩ := List.mem_map.mp new
    obtain ⟨⟨here, -⟩, fresh⟩ := (foundMem unique selects inside).mp hx
    exact fresh ((keyMem unique inside here).mp old)

/-- A finished loop holds, once each, the rows that its start reaches. -/
theorem growSource (inside : ∀ a ∈ chain, a ∈ rows) (distinct : (chain.map key).Nodup)
    (done : grow key query rounds chain = some result) :
    (result.map key).Nodup ∧ (∀ a ∈ result, a ∈ rows) ∧
      ∀ x, x ∈ result ↔ ∃ a ∈ chain, ReflTransGen (fun a b => b ∈ rows ∧ step a b) a x := by
  induction rounds generalizing chain with
  | zero => cases done
  | succ rounds ih =>
    rw [grow] at done
    split at done
    · rename_i none
      cases done
      refine ⟨distinct, inside, fun x => ⟨fun here => ⟨x, here, .refl⟩, ?_⟩⟩
      rintro ⟨a, ha, reached⟩
      induction reached with
      | refl => exact ha
      | tail _ stepped ih =>
        -- a round that finds nothing leaves no row to step to
        by_contra fresh
        have listed := (foundMem unique selects inside).mpr ⟨⟨stepped.1, _, ih, stepped.2⟩, fresh⟩
        rw [List.isEmpty_iff.mp none] at listed
        cases listed
    · obtain ⟨once, kept, reach⟩ := ih (foundInside unique selects inside)
        (foundDistinct unique selects inside distinct) done
      refine ⟨once, kept, fun x => (reach x).trans ⟨?_, ?_⟩⟩
      · rintro ⟨a, ha, reached⟩
        rcases List.mem_append.mp ha with old | new
        · exact ⟨a, old, reached⟩
        · obtain ⟨⟨here, b, hb, stepped⟩, -⟩ := (foundMem unique selects inside).mp new
          exact ⟨b, hb, .head ⟨here, stepped⟩ reached⟩
      · rintro ⟨a, ha, reached⟩
        exact ⟨a, List.mem_append_left _ ha, reached⟩

theorem growTotal (inside : ∀ a ∈ chain, a ∈ rows) (distinct : (chain.map key).Nodup)
    (enough : rows.length < rounds + chain.length) : ∃ result, grow key query rounds chain = some result := by
  have few {chain : List α} (inside : ∀ a ∈ chain, a ∈ rows) (distinct : (chain.map key).Nodup) :
      chain.length ≤ rows.length :=
    (List.subperm_of_subset (List.Nodup.of_map key distinct) inside).length_le
  induction rounds generalizing chain with
  | zero =>
    have := few inside distinct
    omega
  | succ rounds ih =>
    rw [grow]
    split
    · exact ⟨chain, rfl⟩
    · rename_i some
      refine ih (foundInside unique selects inside) (foundDistinct unique selects inside distinct) ?_
      have more : 0 < (found key query chain).length :=
        List.length_pos_of_ne_nil fun none => some (List.isEmpty_iff.mpr none)
      rw [List.length_append]
      omega

end Loop

end Saturation
