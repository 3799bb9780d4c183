import Mathlib.Data.List.Nodup

/-! Rows of one table as a list in key order, with the statements a store runs on them:
`UPDATE`, `DELETE`, a keyed `SELECT`, and the row count a cursor reports. -/
namespace Table

variable {α κ : Type}

/-- `UPDATE … SET f WHERE p`. -/
def amend (p : α → Bool) (f : α → α) (rows : List α) : List α :=
  rows.map fun row => if p row then f row else row

/-- `DELETE … WHERE p`. -/
def remove (p : α → Bool) (rows : List α) : List α := rows.filter fun row => !p row

/-- The `rowcount` of a statement with `WHERE p`. -/
def matching (p : α → Bool) (rows : List α) : Nat := rows.countP p

theorem memAmend {p : α → Bool} {f : α → α} {rows : List α} {row : α} :
    row ∈ amend p f rows ↔ ∃ old ∈ rows, row = if p old then f old else old := by
  simp only [amend, List.mem_map, eq_comm]

theorem amendAppend (p : α → Bool) (f : α → α) (xs ys : List α) :
    amend p f (xs ++ ys) = amend p f xs ++ amend p f ys := by simp [amend]

theorem amendUntouched {p : α → Bool} {f : α → α} {rows : List α}
    (none : ∀ row ∈ rows, p row = false) : amend p f rows = rows := by
  simp only [amend]
  calc rows.map (fun row => if p row then f row else row)
      = rows.map id := List.map_congr_left fun row hr => by simp [none row hr]
    _ = rows := List.map_id rows

theorem amendCongr {p q : α → Bool} {f g : α → α} {rows : List α}
    (same : ∀ row ∈ rows, (if p row then f row else row) = if q row then g row else row) :
    amend p f rows = amend q g rows := List.map_congr_left same

theorem amendAmend {p q : α → Bool} {f g : α → α} {rows : List α} :
    amend q g (amend p f rows) = rows.map fun row =>
      let once := if p row then f row else row
      if q once then g once else once := by
  simp [amend, Function.comp_def]

theorem amendSingle {p : α → Bool} {f : α → α} {row : α} :
    amend p f [row] = [if p row then f row else row] := rfl

theorem matchingAppend {p : α → Bool} {xs ys : List α} :
    matching p (xs ++ ys) = matching p xs + matching p ys := List.countP_append

theorem matchingSingle {p : α → Bool} {row : α} : matching p [row] = if p row then 1 else 0 := by
  by_cases h : p row <;> simp [matching, h]

theorem matchingNone {p : α → Bool} {rows : List α} (none : ∀ row ∈ rows, p row = false) :
    matching p rows = 0 := List.countP_eq_zero.mpr fun row hr => by simp [none row hr]

theorem matchingPos {p : α → Bool} {rows : List α} (h : matching p rows = 1) :
    ∃ row ∈ rows, p row = true := by
  have pos : 0 < rows.countP p := by simp only [matching] at h; omega
  exact List.countP_pos_iff.mp pos

-- a statement that makes no row match and keeps one from matching lowers the count
theorem matchingFewer {p : α → Bool} {f : α → α} {rows : List α} {row : α}
    (back : ∀ other ∈ rows, p (f other) = true → p other = true) (mem : row ∈ rows) (hit : p row = true)
    (spent : p (f row) = false) : matching p (rows.map f) < matching p rows := by
  obtain ⟨before, after, rfl⟩ := List.append_of_mem mem
  have left : matching p (before.map f) ≤ matching p before := by
    rw [matching, List.countP_map]
    exact List.countP_mono_left fun other hother => back other (List.mem_append_left _ hother)
  have right : matching p (after.map f) ≤ matching p after := by
    rw [matching, List.countP_map]
    exact List.countP_mono_left fun other hother =>
      back other (List.mem_append_right _ (List.mem_cons_of_mem _ hother))
  simp only [matching, List.map_append, List.map_cons, List.countP_append, List.countP_cons, hit,
    spent, if_true, Bool.false_eq_true, if_false] at left right ⊢
  omega

/-! ## Keyed tables -/

section Keyed
variable (key : α → κ)

def Unique (rows : List α) : Prop := (rows.map key).Nodup

def find [DecidableEq κ] (k : κ) (rows : List α) : Option α := rows.find? fun row => key row = k

variable {key}

theorem findMem [DecidableEq κ] {k : κ} {rows : List α} {row : α} (h : find key k rows = some row) :
    row ∈ rows ∧ key row = k :=
  ⟨List.mem_of_find?_eq_some h, by simpa using List.find?_some h⟩

theorem findNone [DecidableEq κ] {k : κ} {rows : List α} : find key k rows = none ↔ ∀ row ∈ rows, key row ≠ k := by
  simp [find]

theorem uniqueEq {rows : List α} {a b : α} (unique : Unique key rows) (ha : a ∈ rows)
    (hb : b ∈ rows) (same : key a = key b) : a = b :=
  List.inj_on_of_nodup_map unique ha hb same

theorem findOfMem [DecidableEq κ] {rows : List α} {row : α} (unique : Unique key rows) (mem : row ∈ rows) :
    find key (key row) rows = some row := by
  cases h : find key (key row) rows with
  | none => exact absurd rfl (findNone.mp h row mem)
  | some other =>
    obtain ⟨inside, same⟩ := findMem h
    rw [uniqueEq unique inside mem same]

theorem amendKeys {p : α → Bool} {f : α → α} {rows : List α}
    (kept : ∀ row, key (f row) = key row) : (amend p f rows).map key = rows.map key := by
  simp only [amend, List.map_map]
  refine List.map_congr_left fun row _ => ?_
  simp only [Function.comp_apply]
  split
  · exact kept row
  · rfl

theorem amendUnique {p : α → Bool} {f : α → α} {rows : List α}
    (kept : ∀ row, key (f row) = key row) (unique : Unique key rows) :
    Unique key (amend p f rows) := by
  unfold Unique
  rwa [amendKeys kept]

theorem uniqueAppend {rows : List α} {row : α} (unique : Unique key rows)
    (fresh : ∀ old ∈ rows, key old ≠ key row) : Unique key (rows ++ [row]) := by
  simp only [Unique, List.map_append, List.map_cons, List.map_nil]
  refine List.Nodup.append unique (List.nodup_singleton _) ?_
  intro k inside last
  obtain ⟨old, hold, rfl⟩ := List.mem_map.mp inside
  exact fresh old hold (List.mem_singleton.mp last)

theorem amendByKey [DecidableEq κ] {q : α → Bool} {f : α → α} {rows : List α} {row : α}
    (unique : Unique key rows) (mem : row ∈ rows) (hit : q row = true) :
    amend (fun r => key r = key row && q r) f rows = amend (fun r => key r = key row) f rows := by
  refine amendCongr fun r hr => ?_
  by_cases same : key r = key row
  · have equal : r = row := uniqueEq unique hr mem same
    simp [equal, hit]
  · simp [same]

theorem matchingKeyed {p : α → Bool} {k : κ} {rows : List α} {row : α} (unique : Unique key rows)
    (keyed : ∀ r, p r = true → key r = k) (mem : row ∈ rows) (hit : p row = true) :
    matching p rows = 1 := by
  have le : matching p rows ≤ 1 := by
    have sub : (rows.filter p).map key = List.replicate (rows.filter p).length k := by
      refine List.eq_replicate_iff.mpr ⟨by simp, ?_⟩
      intro x hx
      obtain ⟨r, hr, rfl⟩ := List.mem_map.mp hx
      exact keyed r (List.mem_filter.mp hr).2
    have nodup : ((rows.filter p).map key).Nodup :=
      List.Nodup.sublist (List.Sublist.map key List.filter_sublist) unique
    rw [sub, List.nodup_replicate] at nodup
    rw [matching, List.countP_eq_length_filter]
    exact nodup
  have pos : 0 < matching p rows := List.countP_pos_iff.mpr ⟨row, mem, hit⟩
  omega

/-- `INSERT … ON CONFLICT(key) DO UPDATE`. -/
def put [DecidableEq κ] (key : α → κ) (new : α) (rows : List α) : List α :=
  if rows.any fun row => key row = key new then
    amend (fun row => key row = key new) (fun _ => new) rows
  else rows ++ [new]

theorem memPut [DecidableEq κ] {new row : α} {rows : List α} :
    row ∈ put key new rows ↔ row = new ∨ row ∈ rows ∧ key row ≠ key new := by
  unfold put
  split
  · rename_i taken
    obtain ⟨old, hold, same⟩ := List.any_eq_true.mp taken
    rw [memAmend]
    constructor
    · rintro ⟨before, mem, rfl⟩
      split
      · exact .inl rfl
      · rename_i other
        exact .inr ⟨mem, by simpa using other⟩
    · rintro (rfl | ⟨mem, other⟩)
      · exact ⟨old, hold, by rw [if_pos same]⟩
      · exact ⟨row, mem, by rw [if_neg (by simpa using other)]⟩
  · rename_i free
    simp only [List.any_eq_true, not_exists, not_and, decide_eq_true_eq] at free
    rw [List.mem_append, List.mem_singleton, or_comm]
    exact or_congr_right ⟨fun mem => ⟨mem, free row mem⟩, And.left⟩

theorem removeUnique {p : α → Bool} {rows : List α} (unique : Unique key rows) :
    Unique key (remove p rows) :=
  List.Nodup.sublist (List.Sublist.map key List.filter_sublist) unique

theorem memRemove {p : α → Bool} {rows : List α} {row : α} :
    row ∈ remove p rows ↔ row ∈ rows ∧ p row = false := by
  simp [remove]

end Keyed
end Table
