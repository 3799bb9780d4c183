import Mathlib.Algebra.BigOperators.Group.List.Basic
import Mathlib.Algebra.GroupWithZero.Nat
import Mathlib.Data.List.Nodup
import Mathlib.Data.List.Pairwise

/-! Accounts put together: every pool has one keeper, which takes over the weight of the accounts it
absorbs. Where no account is in two pools, the total stays. -/
namespace Pooling

variable {κ π M : Type} [DecidableEq κ]

section
variable (keeper : π → κ) (absorbed : π → List κ)

def members (p : π) : List κ := keeper p :: absorbed p

def kept (pools : List π) (items : List κ) : List κ :=
  items.filter fun k => k ∉ pools.flatMap absorbed

/-- The weight of an account that is left: a keeper has the total of its pool. -/
def pooled (total : π → M) (weight : κ → M) (pools : List π) (k : κ) : M :=
  ((pools.find? fun p => keeper p = k).map total).getD (weight k)

/-- No account is in two pools, or twice in one. -/
structure Apart (pools : List π) (items : List κ) : Prop where
  distinct : ∀ p ∈ pools, (members keeper absorbed p).Nodup
  disjoint : pools.Pairwise fun p q => (members keeper absorbed p).Disjoint (members keeper absorbed q)
  inside : ∀ p ∈ pools, ∀ k ∈ members keeper absorbed p, k ∈ items

end

section Pools
variable {keeper : π → κ} {absorbed : π → List κ} {pools : List π} {items : List κ}

omit [DecidableEq κ] in
theorem Apart.same (apart : Apart keeper absorbed pools items) {p q : π} (hp : p ∈ pools) (hq : q ∈ pools) {k : κ}
    (left : k ∈ members keeper absorbed p) (right : k ∈ members keeper absorbed q) : p = q := by
  have symmetric : Std.Symm fun p q => (members keeper absorbed p).Disjoint (members keeper absorbed q) :=
    ⟨fun _ _ apart _ left right => apart right left⟩
  by_contra other
  exact apart.disjoint.forall hp hq other left right

omit [DecidableEq κ] in
theorem Apart.keeperKept (apart : Apart keeper absorbed pools items) {p q : π} (hp : p ∈ pools) (hq : q ∈ pools) :
    keeper p ∉ absorbed q := by
  intro lost
  obtain rfl := apart.same hp hq List.mem_cons_self (List.mem_cons_of_mem _ lost)
  exact (List.nodup_cons.mp (apart.distinct p hp)).1 lost

def others (keeper : π → κ) (absorbed : π → List κ) (pools : List π) (items : List κ) : List κ :=
  items.filter fun k => k ∉ pools.flatMap (members keeper absorbed)

theorem Apart.split (apart : Apart keeper absorbed pools items) (distinct : items.Nodup) :
    items.Perm (pools.flatMap (members keeper absorbed) ++ others keeper absorbed pools items) := by
  have pooled : (pools.flatMap (members keeper absorbed)).Nodup :=
    List.nodup_flatMap.mpr ⟨apart.distinct, apart.disjoint⟩
  have inside : (items.filter fun k => k ∈ pools.flatMap (members keeper absorbed)).Perm
      (pools.flatMap (members keeper absorbed)) := by
    refine (List.perm_ext_iff_of_nodup (distinct.filter _) pooled).mpr fun k => ?_
    rw [List.mem_filter, decide_eq_true_eq]
    refine and_iff_right_of_imp fun member => ?_
    obtain ⟨p, hp, hk⟩ := List.mem_flatMap.mp member
    exact apart.inside p hp k hk
  have both := List.filter_append_perm (fun k => decide (k ∈ pools.flatMap (members keeper absorbed))) items
  refine both.symm.trans (inside.append ?_)
  simp only [others, decide_not]
  exact .refl _

theorem Apart.keptSplit (apart : Apart keeper absorbed pools items) (distinct : items.Nodup) :
    (kept absorbed pools items).Perm (pools.map keeper ++ others keeper absorbed pools items) := by
  refine ((apart.split distinct).filter _).trans (.of_eq ?_)
  rw [List.filter_append, List.filter_flatMap]
  congr 1
  · -- of each pool only the keeper is left
    rw [List.map_eq_flatMap]
    refine List.flatMap_congr fun p hp => ?_
    have stays : keeper p ∉ pools.flatMap absorbed := by
      intro lost
      obtain ⟨q, hq, lost⟩ := List.mem_flatMap.mp lost
      exact apart.keeperKept hp hq lost
    have gone : (absorbed p).filter (fun k => decide (k ∉ pools.flatMap absorbed)) = [] :=
      List.filter_eq_nil_iff.mpr fun k hk => by
        rw [decide_eq_true_eq, not_not]
        exact List.mem_flatMap.mpr ⟨p, hp, hk⟩
    rw [members, List.filter_cons_of_pos (by simpa using stays), gone]
  · refine List.filter_eq_self.mpr fun k hk => ?_
    rw [others, List.mem_filter, decide_eq_true_eq] at hk
    rw [decide_eq_true_eq]
    intro lost
    obtain ⟨p, hp, lost⟩ := List.mem_flatMap.mp lost
    exact hk.2 (List.mem_flatMap.mpr ⟨p, hp, List.mem_cons_of_mem _ lost⟩)

theorem pooledKeeper (apart : Apart keeper absorbed pools items) {total : π → M} {weight : κ → M} {p : π}
    (hp : p ∈ pools) : pooled keeper total weight pools (keeper p) = total p := by
  rw [pooled]
  cases found : pools.find? fun q => keeper q = keeper p with
  | none =>
    have none' := List.find?_eq_none.mp found p hp
    simp at none'
  | some q =>
    have same : keeper q = keeper p := by simpa using List.find?_some found
    obtain rfl := apart.same (List.mem_of_find?_eq_some found) hp (k := keeper p)
      (same ▸ List.mem_cons_self) List.mem_cons_self
    rfl

theorem pooledOther {total : π → M} {weight : κ → M} {k : κ} (other : ∀ p ∈ pools, keeper p ≠ k) :
    pooled keeper total weight pools k = weight k := by
  have none' : (pools.find? fun p => keeper p = k) = none :=
    List.find?_eq_none.mpr fun p hp => by simpa using other p hp
  rw [pooled, none']
  rfl

theorem foldlPooled (total : π → M) (weight : κ → M) {k : κ}
    (agree : ∀ p ∈ pools, ∀ q ∈ pools, keeper p = k → keeper q = k → total p = total q) :
    pools.foldl (fun n p => if k = keeper p then total p else n) (weight k) =
      pooled keeper total weight pools k := by
  induction pools generalizing weight with
  | nil => rfl
  | cons p rest ih =>
    have later : ∀ p ∈ rest, ∀ q ∈ rest, keeper p = k → keeper q = k → total p = total q :=
      fun p hp q hq => agree p (List.mem_cons_of_mem _ hp) q (List.mem_cons_of_mem _ hq)
    rw [List.foldl_cons, pooled, List.find?_cons]
    by_cases own : k = keeper p
    · have found : decide (keeper p = k) = true := decide_eq_true own.symm
      rw [if_pos own, found, Option.map_some, Option.getD_some]
      refine (ih (fun _ => total p) later).trans ?_
      rw [pooled]
      cases again : rest.find? fun q => decide (keeper q = k) with
      | none => rfl
      | some q =>
        rw [Option.map_some, Option.getD_some]
        exact agree q (List.mem_cons_of_mem _ (List.mem_of_find?_eq_some again)) p List.mem_cons_self
          (by simpa using List.find?_some again) own.symm
    · have missed : decide (keeper p = k) = false := decide_eq_false fun same => own same.symm
      rw [if_neg own, missed]
      exact ih weight later

theorem keptLength (apart : Apart keeper absorbed pools items) (distinct : items.Nodup) :
    (kept absorbed pools items).length + (pools.map fun p => (absorbed p).length).sum = items.length := by
  rw [(apart.keptSplit distinct).length_eq, (apart.split distinct).length_eq]
  simp only [List.length_append, List.length_map, List.length_flatMap, members, List.length_cons]
  rw [List.sum_map_add]
  simp only [List.map_const', List.sum_replicate_nat, mul_one]
  omega

/-- The total is conserved where every keeper takes over the weights of its pool. -/
theorem pooledTotal [AddCommMonoid M] (total : π → M) (weight : κ → M)
    (apart : Apart keeper absorbed pools items) (distinct : items.Nodup)
    (fair : ∀ p ∈ pools, total p = ((members keeper absorbed p).map weight).sum) :
    ((kept absorbed pools items).map (pooled keeper total weight pools)).sum = (items.map weight).sum := by
  have keepers : (pools.map keeper).map (pooled keeper total weight pools) =
      pools.map fun p => ((members keeper absorbed p).map weight).sum := by
    rw [List.map_map]
    exact List.map_congr_left fun p hp => (pooledKeeper apart hp).trans (fair p hp)
  have rest : (others keeper absorbed pools items).map (pooled keeper total weight pools) =
      (others keeper absorbed pools items).map weight := by
    refine List.map_congr_left fun k hk => pooledOther fun p hp same => ?_
    rw [others, List.mem_filter, decide_eq_true_eq] at hk
    exact hk.2 (List.mem_flatMap.mpr ⟨p, hp, same ▸ List.mem_cons_self⟩)
  calc ((kept absorbed pools items).map (pooled keeper total weight pools)).sum
      = ((pools.map keeper ++ others keeper absorbed pools items).map
          (pooled keeper total weight pools)).sum := ((apart.keptSplit distinct).map _).sum_eq
    _ = (pools.map fun p => ((members keeper absorbed p).map weight).sum).sum +
          ((others keeper absorbed pools items).map weight).sum := by
        rw [List.map_append, List.sum_append, keepers, rest]
    _ = ((pools.flatMap (members keeper absorbed) ++ others keeper absorbed pools items).map weight).sum := by
        rw [List.map_append, List.sum_append, List.map_flatMap, List.flatMap_def, List.sum_flatten, List.map_map]
        rfl
    _ = (items.map weight).sum := ((apart.split distinct).map _).sum_eq.symm

end Pools

end Pooling
