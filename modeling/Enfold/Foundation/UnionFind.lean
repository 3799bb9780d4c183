import Mathlib.Logic.Relation
import Mathlib.Logic.Function.Iterate
import Mathlib.Data.List.Dedup

/-! Union-find over parent pointers, with path compression and without ranks, and the grouping
of a list by the roots of its members. The roots depend on the order of the unions, the groups
do not: two members share one exactly when a chain of joined pairs connects them. -/

/-- Parent pointers in which no chain is longer than `height`. -/
structure UnionFind (α : Type) where
  parent : α → α
  height : Nat
  grounded : ∀ x, parent (parent^[height] x) = parent^[height] x

namespace UnionFind

variable {α : Type}

-- every element is its own root
def singletons : UnionFind α where
  parent := id
  height := 0
  grounded _ := rfl

def find (u : UnionFind α) (x : α) : α := u.parent^[u.height] x

variable {u : UnionFind α} {x y a b : α}

theorem parentFind : u.parent (u.find x) = u.find x := u.grounded x

theorem findFind : u.find (u.find x) = u.find x := Function.iterate_fixed parentFind u.height

theorem findParent : u.find (u.parent x) = u.find x := by
  unfold find
  rw [← Function.iterate_succ_apply, Function.iterate_succ_apply']
  exact u.grounded x

theorem findIterate (n : Nat) : u.find (u.parent^[n] x) = u.find x := by
  induction n with
  | zero => rfl
  | succ n ih => rw [Function.iterate_succ_apply', findParent, ih]

variable [DecidableEq α]

/-! ## Path compression -/

theorem shortcutWalk (n : Nat) :
    (Function.update u.parent x (u.find x))^[n] y = u.parent^[n] y ∨
      (Function.update u.parent x (u.find x))^[n] y = u.find y := by
  induction n with
  | zero => exact .inl rfl
  | succ n ih =>
    rw [Function.iterate_succ_apply', Function.iterate_succ_apply']
    rcases ih with same | top
    · rw [same]
      by_cases here : u.parent^[n] y = x
      · rw [here, Function.update_self, ← here, findIterate]
        exact .inr rfl
      · rw [Function.update_of_ne here]
        exact .inl rfl
    · rw [top]
      by_cases here : u.find y = x
      · rw [here, Function.update_self, ← here, findFind]
        exact .inr rfl
      · rw [Function.update_of_ne here]
        exact .inr parentFind

theorem shortcutStop :
    (Function.update u.parent x (u.find x))^[u.height] y = u.find y :=
  (shortcutWalk u.height).elim id id

def shortcut (u : UnionFind α) (x : α) : UnionFind α where
  parent := Function.update u.parent x (u.find x)
  height := u.height
  grounded y := by
    rw [shortcutStop]
    by_cases here : u.find y = x
    · rw [here, Function.update_self, ← here, findFind]
    · rw [Function.update_of_ne here, parentFind]

theorem shortcutFind : (u.shortcut x).find y = u.find y := shortcutStop

/-- Every pointer on the way from `x` to its root is set to the root. -/
def compress (u : UnionFind α) : Nat → α → UnionFind α
  | 0, _ => u
  | steps + 1, x =>
    if u.parent x = u.find x then u else (u.shortcut x).compress steps (u.parent x)

theorem compressFind (steps : Nat) : (u.compress steps x).find y = u.find y := by
  induction steps generalizing u x with
  | zero => rfl
  | succ steps ih =>
    unfold compress
    split
    · rfl
    · rw [ih, shortcutFind]

/-! ## Union -/

/-- With the root `a` under the root `b`, a walk is where it was, or at `b` after passing `a`. -/
theorem linkWalk (left : u.parent a = a) (right : u.parent b = b) (n : Nat) :
    (Function.update u.parent a b)^[n] x = u.parent^[n] x ∨
      (Function.update u.parent a b)^[n] x = b ∧ u.find x = a := by
  induction n with
  | zero => exact .inl rfl
  | succ n ih =>
    rw [Function.iterate_succ_apply', Function.iterate_succ_apply']
    rcases ih with same | ⟨top, below⟩
    · rw [same]
      by_cases here : u.parent^[n] x = a
      · have root : u.find x = a := by
          rw [← findIterate n, here]
          exact Function.iterate_fixed left u.height
        rw [here, Function.update_self]
        exact .inr ⟨rfl, root⟩
      · rw [Function.update_of_ne here]
        exact .inl rfl
    · rw [top]
      by_cases here : b = a
      · rw [here, Function.update_self]
        exact .inr ⟨rfl, below⟩
      · rw [Function.update_of_ne here, right]
        exact .inr ⟨rfl, below⟩

theorem linkStop (left : u.parent a = a) (right : u.parent b = b) :
    (Function.update u.parent a b)^[u.height + 1] x = if u.find x = a then b else u.find x := by
  rw [Function.iterate_succ_apply']
  rcases linkWalk left right u.height with same | ⟨top, below⟩
  · have stop : u.parent^[u.height] x = u.find x := rfl
    rw [same, stop]
    by_cases here : u.find x = a
    · rw [here, Function.update_self, if_pos rfl]
    · rw [Function.update_of_ne here, if_neg here, parentFind]
  · rw [top, if_pos below]
    by_cases here : b = a
    · rw [here, Function.update_self]
    · rw [Function.update_of_ne here, right]

def link (u : UnionFind α) (a b : α) (left : u.parent a = a) (right : u.parent b = b) :
    UnionFind α where
  parent := Function.update u.parent a b
  height := u.height + 1
  grounded x := by
    rw [linkStop left right]
    split
    · by_cases here : b = a
      · rw [here, Function.update_self]
      · rw [Function.update_of_ne here, right]
    · rename_i apart
      rw [Function.update_of_ne apart, parentFind]

/-- Both searches compress their path; then the root of `a` goes under the root of `b`. -/
def union (u : UnionFind α) (a b : α) : UnionFind α :=
  let u := (u.compress u.height a).compress u.height b
  if u.find a = u.find b then u else u.link (u.find a) (u.find b) parentFind parentFind

theorem linkFind {left : u.parent a = a} {right : u.parent b = b} :
    (u.link a b left right).find x = if u.find x = a then b else u.find x := linkStop left right

theorem unionFind :
    (u.union a b).find x = if u.find x = u.find a then u.find b else u.find x := by
  have same (y : α) : ((u.compress u.height a).compress u.height b).find y = u.find y := by
    rw [compressFind, compressFind]
  unfold union
  dsimp only
  split
  · rename_i together
    rw [same, same] at together
    rw [same]
    split
    · rename_i below
      exact below.trans together
    · rfl
  · rw [linkFind, same, same, same]

/-! ## Chains of joined pairs -/

section Chains
variable {pairs : List (α × α)}

def unionAll (u : UnionFind α) (pairs : List (α × α)) : UnionFind α :=
  pairs.foldl (fun u pair => u.union pair.1 pair.2) u

theorem unionJoins : (u.union a b).find x = (u.union a b).find y ↔
    Relation.EqvGen (fun s t => u.find s = u.find t ∨ s = a ∧ t = b) x y := by
  constructor
  · intro together
    have climbs (z : α) : Relation.EqvGen (fun s t => u.find s = u.find t ∨ s = a ∧ t = b) z
        ((u.union a b).find z) := by
      rw [unionFind]
      split
      · rename_i below
        exact ((Relation.EqvGen.rel z a (.inl below)).trans _ _ _ (.rel a b (.inr ⟨rfl, rfl⟩))).trans
          _ _ _ (.rel b _ (.inl findFind.symm))
      · exact .rel z _ (.inl findFind.symm)
    exact ((climbs x).trans _ _ _ (together ▸ .refl _)).trans _ _ _ ((climbs y).symm _ _)
  · intro chain
    induction chain with
    | rel s t step =>
      rw [unionFind, unionFind]
      rcases step with same | ⟨rfl, rfl⟩
      · rw [same]
      · rw [if_pos rfl]
        split
        · rfl
        · rfl
    | refl => rfl
    | symm _ _ _ ih => exact ih.symm
    | trans _ _ _ _ _ first second => exact first.trans second

omit [DecidableEq α] in
theorem chainAbsorb {r q : α → α → Prop} :
    Relation.EqvGen (fun s t => Relation.EqvGen r s t ∨ q s t) x y ↔
      Relation.EqvGen (fun s t => r s t ∨ q s t) x y := by
  constructor
  · intro chain
    induction chain with
    | rel s t step =>
      rcases step with inner | outer
      · exact inner.mono (fun _ _ hit => .inl hit)
      · exact .rel s t (.inr outer)
    | refl => exact .refl _
    | symm _ _ _ ih => exact ih.symm
    | trans _ _ _ _ _ first second => exact first.trans _ _ _ second
  · exact fun chain => chain.mono fun s t step => step.imp_left (.rel s t)

/-- Two elements share a root exactly when a chain of joined pairs connects them. -/
theorem unionAllJoins : (u.unionAll pairs).find x = (u.unionAll pairs).find y ↔
    Relation.EqvGen (fun s t => u.find s = u.find t ∨ (s, t) ∈ pairs) x y := by
  induction pairs generalizing u with
  | nil =>
    have equal : Equivalence fun s t => u.find s = u.find t := ⟨fun _ => rfl, Eq.symm, Eq.trans⟩
    simp only [unionAll, List.foldl_nil, List.not_mem_nil, or_false]
    exact equal.eqvGen_iff.symm
  | cons pair rest ih =>
    have step := ih (u := u.union pair.1 pair.2)
    simp only [unionJoins] at step
    rw [chainAbsorb] at step
    simp only [or_assoc] at step
    simpa only [unionAll, List.foldl_cons, List.mem_cons, Prod.ext_iff] using step

theorem singletonsJoins :
    (singletons.unionAll pairs).find x = (singletons.unionAll pairs).find y ↔
      Relation.EqvGen (fun s t => (s, t) ∈ pairs) x y := by
  refine unionAllJoins.trans ⟨fun chain => ?_, fun chain => chain.mono fun _ _ hit => .inr hit⟩
  induction chain with
  | rel s t step =>
    rcases step with same | joined
    · have equal : s = t := same
      exact equal ▸ .refl s
    · exact .rel s t joined
  | refl => exact .refl _
  | symm _ _ _ ih => exact ih.symm
  | trans _ _ _ _ _ first second => exact first.trans _ _ _ second

end Chains

/-! ## Groups -/

variable {κ : Type} [DecidableEq κ] {key : α → κ} {items group : List α}

def groupsBy (key : α → κ) (items : List α) : List (List α) :=
  (items.map key).reverse.dedup.reverse.map fun k => items.filter fun item => key item = k

omit [DecidableEq α] in
theorem memGroupsBy : group ∈ groupsBy key items ↔
    ∃ item ∈ items, group = items.filter fun other => key other = key item := by
  simp only [groupsBy, List.mem_map, List.mem_reverse, List.mem_dedup, exists_exists_and_eq_and]
  exact exists_congr fun item => and_congr_right fun _ => eq_comm

omit [DecidableEq α] in
theorem groupsByDisjoint {other : List α} (left : group ∈ groupsBy key items)
    (right : other ∈ groupsBy key items) (inside : x ∈ group) (shared : x ∈ other) :
    group = other := by
  obtain ⟨a, -, rfl⟩ := memGroupsBy.mp left
  obtain ⟨b, -, rfl⟩ := memGroupsBy.mp right
  have first : key x = key a := by simpa using (List.mem_filter.mp inside).2
  have second : key x = key b := by simpa using (List.mem_filter.mp shared).2
  rw [← first, ← second]

omit [DecidableEq α] in
theorem groupsByApart : (groupsBy key items).Pairwise List.Disjoint := by
  have keys : (items.map key).reverse.dedup.reverse.Nodup := List.nodup_reverse.mpr (List.nodup_dedup _)
  refine List.pairwise_map.mpr (keys.imp fun {a b} other x left right => other ?_)
  have first : key x = a := by simpa using (List.mem_filter.mp left).2
  have second : key x = b := by simpa using (List.mem_filter.mp right).2
  exact first.symm.trans second

end UnionFind
