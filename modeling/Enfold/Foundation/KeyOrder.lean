import Mathlib.Data.List.Sort
import Mathlib.Data.List.Dedup

/-! Rows in the order of a key. Where rows with one key are one row, the sorted list depends only on
which rows there are. -/
namespace KeyOrder

variable {α β κ : Type} [LinearOrder κ] {key : α → κ} {rows rows' : List α} {x : α}

/-- `sorted(rows, key=key)`. -/
def sortedBy (key : α → κ) (rows : List α) : List α := rows.insertionSort fun a b => key a ≤ key b

/-- The rows, each where it comes first: `dict.fromkeys(rows)`. -/
def firsts [DecidableEq α] (rows : List α) : List α := rows.reverse.dedup.reverse

theorem sortedByPerm (key : α → κ) (rows : List α) : (sortedBy key rows).Perm rows :=
  List.perm_insertionSort _ rows

theorem sortedByMem : x ∈ sortedBy key rows ↔ x ∈ rows := List.mem_insertionSort _

theorem sortedByCongr (keyed : ∀ a ∈ rows, ∀ b ∈ rows, key a = key b → a = b)
    (same : rows.Perm rows') : sortedBy key rows = sortedBy key rows' := by
  have ordered (l : List α) : (sortedBy key l).Pairwise fun a b => key a ≤ key b :=
    have total : Std.Total fun a b : α => key a ≤ key b := ⟨fun a b => le_total (key a) (key b)⟩
    have trans : IsTrans α fun a b => key a ≤ key b := ⟨fun _ _ _ => le_trans⟩
    List.pairwise_insertionSort _ l
  have perm := (sortedByPerm key rows).trans (same.trans (sortedByPerm key rows').symm)
  refine perm.eq_of_pairwise (fun a b ha hb le ge => ?_) (ordered rows) (ordered rows')
  exact keyed a (sortedByMem.mp ha) b (same.mem_iff.mpr (sortedByMem.mp hb)) (le_antisymm le ge)

theorem sortedByMap {key' : β → κ} {f : α → β} (same : ∀ a ∈ rows, key' (f a) = key a) :
    (sortedBy key rows).map f = sortedBy key' (rows.map f) :=
  List.map_insertionSort _ _ f rows fun a ha b hb => by rw [same a ha, same b hb]

theorem insertedBefore {before behind : List α} (first : ∀ y ∈ behind, key x ≤ key y) :
    (before ++ behind).orderedInsert (fun a b => key a ≤ key b) x =
      before.orderedInsert (fun a b => key a ≤ key b) x ++ behind := by
  induction before with
  | nil =>
    cases behind with
    | nil => rfl
    | cons y behind =>
      rw [List.nil_append, List.orderedInsert_cons, if_pos (first y List.mem_cons_self)]
      rfl
  | cons z before ih =>
    rw [List.cons_append, List.orderedInsert_cons, List.orderedInsert_cons, ih]
    split <;> rfl

theorem insertedBehind {before behind : List α} (last : ∀ y ∈ before, key y < key x) :
    (before ++ behind).orderedInsert (fun a b => key a ≤ key b) x =
      before ++ behind.orderedInsert (fun a b => key a ≤ key b) x := by
  induction before with
  | nil => rfl
  | cons y before ih =>
    rw [List.cons_append, List.orderedInsert_cons, if_neg (not_le.mpr (last y List.mem_cons_self)),
      ih fun z inside => last z (List.mem_cons_of_mem y inside), List.cons_append]

theorem sortedBySplit {early : α → Bool}
    (apart : ∀ a ∈ rows, ∀ b ∈ rows, early a = true → early b = false → key a < key b) :
    sortedBy key rows =
      sortedBy key (rows.filter early) ++ sortedBy key (rows.filter fun row => !early row) := by
  induction rows with
  | nil => rfl
  | cons row rows ih =>
    have rest := ih fun a ha b hb => apart a (List.mem_cons_of_mem row ha) b (List.mem_cons_of_mem row hb)
    have whole (r : α) (rs : List α) : sortedBy key (r :: rs) =
        (sortedBy key rs).orderedInsert (fun a b => key a ≤ key b) r := rfl
    cases first : early row with
    | true =>
      rw [List.filter_cons_of_pos first, List.filter_cons_of_neg (by simp [first]), whole, whole, rest]
      refine insertedBefore fun y inside => ?_
      obtain ⟨listed, late⟩ := List.mem_filter.mp (sortedByMem.mp inside)
      exact (apart row List.mem_cons_self y (List.mem_cons_of_mem row listed) first (by simpa using late)).le
    | false =>
      rw [List.filter_cons_of_neg (by simp [first]), List.filter_cons_of_pos (by simp [first]), whole, whole,
        rest]
      refine insertedBehind fun y inside => ?_
      obtain ⟨listed, soon⟩ := List.mem_filter.mp (sortedByMem.mp inside)
      exact apart y (List.mem_cons_of_mem row listed) row List.mem_cons_self soon first

theorem firstsMem [DecidableEq α] : x ∈ firsts rows ↔ x ∈ rows := by simp [firsts]

theorem firstsDistinct [DecidableEq α] (rows : List α) : (firsts rows).Nodup :=
  List.nodup_reverse.mpr (List.nodup_dedup _)

end KeyOrder
