import Mathlib.Order.Lattice
import Mathlib.Data.List.TakeWhile
import Mathlib.Data.List.Induction

/-! Runs of operations that stamp what they change, and a reader of the final state that looks back
by stamp. The reader finds what was live after the last operation it looks at. -/
namespace Timeline

variable {σ ο τ ι : Type} [LinearOrder τ]

/-- What `seen` reads back at a time against what is `live` now: a step by an operation of kind `K`
changes nothing before its stamp, and from the last stamp on the two agree. -/
structure Reads (K : ο → Prop) (step : σ → ο → σ) (stamp : ο → τ) (live : σ → ι → Prop)
    (seen : σ → τ → ι → Prop) (Settled : σ → τ → Prop) : Prop where
  mono : ∀ {s a b}, Settled s a → a ≤ b → Settled s b
  agrees : ∀ {s b t i}, Settled s b → b ≤ t → (seen s t i ↔ live s i)
  keeps : ∀ {s o b}, K o → Settled s b → b ≤ stamp o → Settled (step s o) (stamp o)
  spares : ∀ {s o b t i}, K o → Settled s b → b ≤ stamp o → t < stamp o →
    (seen (step s o) t i ↔ seen s t i)

variable {K : ο → Prop} {step : σ → ο → σ} {stamp : ο → τ} {live : σ → ι → Prop}
  {seen : σ → τ → ι → Prop} {Settled : σ → τ → Prop}

theorem takeWhileSnoc {p : ο → Bool} {ops : List ο} {o : ο} (late : p o = false) :
    (ops ++ [o]).takeWhile p = ops.takeWhile p := by
  induction ops with
  | nil => simp [late]
  | cons first rest ih =>
    rw [List.cons_append, List.takeWhile_cons, List.takeWhile_cons, ih]

namespace Reads
variable (reads : Reads K step stamp live seen Settled)
include reads

/-- Every stamp of a run is settled from its last operation on. -/
theorem settled {s : σ} {ops : List ο} {b : τ} (kind : ∀ o ∈ ops, K o)
    (ordered : (ops.map stamp).Pairwise (· ≤ ·)) (init : ∀ a, Settled s a)
    (bound : ∀ o ∈ ops, stamp o ≤ b) : Settled (ops.foldl step s) b := by
  induction ops using List.reverseRecOn generalizing b with
  | nil => exact init b
  | append_singleton ops o ih =>
    rw [List.map_append, List.pairwise_append] at ordered
    obtain ⟨earlier, -, apart⟩ := ordered
    have before := ih (fun p inside => kind p (List.mem_append_left _ inside)) earlier
      fun p inside => apart _ (List.mem_map_of_mem inside) (stamp o) (by simp)
    rw [List.foldl_append, List.foldl_cons, List.foldl_nil]
    have mine := reads.keeps (kind o (by simp)) before (le_refl _)
    exact reads.mono mine (bound o (by simp))

/-- Reading back at a time finds what was live after the operations up to it. -/
theorem snapshot {s : σ} {ops : List ο} {t : τ} {i : ι} (kind : ∀ o ∈ ops, K o)
    (ordered : (ops.map stamp).Pairwise (· ≤ ·)) (init : ∀ a, Settled s a) :
    seen (ops.foldl step s) t i ↔ live ((ops.takeWhile fun o => stamp o ≤ t).foldl step s) i := by
  induction ops using List.reverseRecOn with
  | nil => exact reads.agrees (init t) (le_refl t)
  | append_singleton ops o ih =>
    have whole := ordered
    rw [List.map_append, List.pairwise_append] at ordered
    obtain ⟨earlier, -, apart⟩ := ordered
    have kinds : ∀ p ∈ ops, K p := fun p inside => kind p (List.mem_append_left _ inside)
    have below : ∀ p ∈ ops, stamp p ≤ stamp o := fun p inside =>
      apart _ (List.mem_map_of_mem inside) (stamp o) (by simp)
    by_cases late : t < stamp o
    · -- the last operation is stamped behind the time read
      have settled := reads.settled kinds earlier init below
      rw [takeWhileSnoc (by simpa using late), List.foldl_append, List.foldl_cons, List.foldl_nil,
        reads.spares (kind o (by simp)) settled (le_refl _) late, ih kinds earlier]
    · have all : ∀ p ∈ ops ++ [o], stamp p ≤ t := by
        intro p inside
        rcases List.mem_append.mp inside with inside | inside
        · exact (below p inside).trans (le_of_not_gt late)
        · rw [List.mem_singleton.mp inside]
          exact le_of_not_gt late
      have taken : (ops ++ [o]).takeWhile (fun o => decide (stamp o ≤ t)) = ops ++ [o] :=
        List.takeWhile_eq_self_iff.mpr fun p inside => decide_eq_true (all p inside)
      rw [taken]
      exact reads.agrees (reads.settled kind whole init all) (le_refl t)

end Reads
end Timeline
