import Mathlib.Order.Lattice

/-! Half-open pieces laid end to end along a linear order: each one stops where the next one starts,
and the last one never stops. -/
namespace Tiling

variable {α τ : Type} [LinearOrder τ] (start : α → τ) (stop : α → Option τ)

def Covers (t : τ) (x : α) : Prop := start x ≤ t ∧ ∀ s, stop x = some s → t < s

inductive Tiles : List α → Prop
  | last (x : α) (endless : stop x = none) : Tiles [x]
  | next {x y : α} {rest : List α} (meets : stop x = some (start y)) (later : start x < start y)
      (tail : Tiles (y :: rest)) : Tiles (x :: y :: rest)

variable {start stop}

theorem Tiles.startLe {x : α} {rest : List α} (tiles : Tiles start stop (x :: rest)) :
    ∀ y ∈ x :: rest, start x ≤ start y := by
  intro y inside
  generalize shape : x :: rest = whole at tiles inside
  induction tiles generalizing x rest with
  | last z endless =>
    cases shape
    rw [List.mem_singleton.mp inside]
  | @next z w rest' meets later tail ih =>
    cases shape
    rcases List.mem_cons.mp inside with rfl | inside
    · exact le_refl _
    · exact later.le.trans (ih rfl inside)

/-- From the first start on, every point is covered by exactly one piece. -/
theorem Tiles.covered {x : α} {rest : List α} {t : τ} (tiles : Tiles start stop (x :: rest))
    (begun : start x ≤ t) : ∃! y, y ∈ x :: rest ∧ Covers start stop t y := by
  generalize shape : x :: rest = whole at tiles
  induction tiles generalizing x rest with
  | last z endless =>
    cases shape
    refine ⟨z, ⟨List.mem_cons_self, begun, fun s stops => ?_⟩, fun y inside => ?_⟩
    · rw [endless] at stops
      cases stops
    · exact List.mem_singleton.mp inside.1
  | @next z w rest' meets later tail ih =>
    cases shape
    by_cases reached : start w ≤ t
    · obtain ⟨y, ⟨inside, covers⟩, only⟩ := ih reached rfl
      refine ⟨y, ⟨List.mem_cons_of_mem _ inside, covers⟩, fun u found => ?_⟩
      rcases List.mem_cons.mp found.1 with rfl | deeper
      · exact absurd (found.2.2 _ meets) (not_lt.mpr reached)
      · exact only u ⟨deeper, found.2⟩
    · refine ⟨z, ⟨List.mem_cons_self, begun, fun s stops => ?_⟩, fun u found => ?_⟩
      · rw [meets] at stops
        cases stops
        exact lt_of_not_ge reached
      · rcases List.mem_cons.mp found.1 with same | deeper
        · exact same
        · exact absurd ((tail.startLe u deeper).trans found.2.1) reached

theorem Tiles.extend {before : List α} {x x' y : α} (tiles : Tiles start stop (before ++ [x]))
    (same : start x' = start x) (meets : stop x' = some (start y)) (later : start x < start y)
    (endless : stop y = none) : Tiles start stop (before ++ [x', y]) := by
  induction before with
  | nil => exact .next meets (same ▸ later) (.last y endless)
  | cons first rest ih =>
    cases rest with
    | nil =>
      cases tiles with
      | next meets' later' tail =>
        exact .next (meets'.trans (congrArg some same.symm)) (same ▸ later') (ih tail)
    | cons second rest =>
      cases tiles with
      | next meets' later' tail => exact .next meets' later' (ih tail)

theorem Tiles.endless {before : List α} {x : α} (tiles : Tiles start stop (before ++ [x])) :
    stop x = none := by
  induction before with
  | nil =>
    cases tiles
    assumption
  | cons first rest ih =>
    cases rest with
    | nil =>
      cases tiles with
      | next _ _ tail => exact ih tail
    | cons second rest =>
      cases tiles with
      | next _ _ tail => exact ih tail

end Tiling
