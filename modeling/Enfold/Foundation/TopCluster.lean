import Mathlib.Data.List.Basic

/-! The items of the highest grade, where grade zero never counts. What is chosen from all items is
chosen from any part that holds it, and nothing else is chosen from a part that holds all of it. -/
namespace TopCluster

variable {α : Type} {grade : α → Nat} {items part first second pool : List α} {x : α}

def top (grade : α → Nat) (items : List α) : Nat := (items.map grade).foldr max 0

def cluster (grade : α → Nat) (items : List α) : List α :=
  if top grade items = 0 then [] else items.filter fun item => grade item = top grade items

theorem leTop (grade : α → Nat) (inside : x ∈ items) : grade x ≤ top grade items := by
  induction items with
  | nil => cases inside
  | cons y items ih =>
    rcases List.mem_cons.mp inside with rfl | inside
    · exact Nat.le_max_left _ _
    · exact Nat.le_trans (ih inside) (Nat.le_max_right _ _)

theorem topReached (grade : α → Nat) (items : List α) : top grade items = 0 ∨ ∃ x ∈ items, grade x = top grade items := by
  induction items with
  | nil => exact .inl rfl
  | cons y items ih =>
    show max (grade y) (top grade items) = 0 ∨ ∃ x ∈ y :: items, grade x = max (grade y) (top grade items)
    rcases Nat.le_total (top grade items) (grade y) with above | below
    · exact .inr ⟨y, List.mem_cons_self, (Nat.max_eq_left above).symm⟩
    · rw [Nat.max_eq_right below]
      exact ih.imp_right fun ⟨x, hx, same⟩ => ⟨x, List.mem_cons_of_mem _ hx, same⟩

theorem topIs {n : Nat} (bound : ∀ x ∈ items, grade x ≤ n) (reached : ∃ x ∈ items, grade x = n) :
    top grade items = n := by
  obtain ⟨x, hx, same⟩ := reached
  have below : top grade items ≤ n := by
    rcases topReached grade items with none | ⟨y, hy, tops⟩
    · omega
    · exact tops ▸ bound y hy
  exact Nat.le_antisymm below (same ▸ leTop grade hx)

theorem clusterMem : x ∈ cluster grade items ↔
    x ∈ items ∧ 0 < grade x ∧ ∀ y ∈ items, grade y ≤ grade x := by
  unfold cluster
  split
  · rename_i none
    refine ⟨fun inside => (List.not_mem_nil inside).elim, fun ⟨inside, counts, _⟩ => ?_⟩
    have below := leTop grade inside
    omega
  · rename_i some
    rw [List.mem_filter, decide_eq_true_eq]
    constructor
    · rintro ⟨inside, tops⟩
      refine ⟨inside, by omega, fun y hy => ?_⟩
      rw [tops]
      exact leTop grade hy
    · rintro ⟨inside, -, bound⟩
      exact ⟨inside, (topIs bound ⟨x, inside, rfl⟩).symm⟩

theorem clusterNone (none : cluster grade items = []) (inside : x ∈ items) : grade x = 0 := by
  rcases topReached grade items with low | ⟨y, hy, tops⟩
  · have below := leTop grade inside
    omega
  · by_contra counts
    have below := leTop grade inside
    have chosen : y ∈ cluster grade items :=
      clusterMem.mpr ⟨hy, by omega, fun z hz => tops ▸ leTop grade hz⟩
    rw [none] at chosen
    cases chosen

theorem inherited (chosen : x ∈ cluster grade items) (within : ∀ y ∈ part, y ∈ items) (inside : x ∈ part) :
    x ∈ cluster grade part := by
  obtain ⟨-, counts, bound⟩ := clusterMem.mp chosen
  exact clusterMem.mpr ⟨inside, counts, fun y hy => bound y (within y hy)⟩

theorem outcast (within : ∀ y ∈ part, y ∈ items) (whole : ∀ y ∈ cluster grade items, y ∈ part) :
    x ∈ cluster grade part ↔ x ∈ cluster grade items := by
  refine ⟨fun chosen => ?_, fun chosen => inherited chosen within (whole x chosen)⟩
  obtain ⟨inside, counts, bound⟩ := clusterMem.mp chosen
  refine clusterMem.mpr ⟨within x inside, counts, fun y hy => ?_⟩
  rcases topReached grade items with none | ⟨z, hz, tops⟩
  · have below := leTop grade hy
    omega
  · have highest : z ∈ cluster grade items := by
      refine clusterMem.mpr ⟨hz, ?_, fun w hw => tops ▸ leTop grade hw⟩
      have below := leTop grade (within x inside)
      omega
    have above := bound z (whole z highest)
    rw [tops] at above
    exact Nat.le_trans (leTop grade hy) above

theorem pooled (firsts : ∀ y ∈ first, y ∈ items) (seconds : ∀ y ∈ second, y ∈ items)
    (held : ∀ y, y ∈ pool ↔ y ∈ cluster grade first ∨ y ∈ second)
    (covered : ∀ y ∈ cluster grade items, y ∈ first ∨ y ∈ second) :
    x ∈ cluster grade pool ↔ x ∈ cluster grade items := by
  refine outcast (fun y hy => ?_) fun y hy => (held y).mpr ?_
  · rcases (held y).mp hy with chosen | inside
    · exact firsts y (clusterMem.mp chosen).1
    · exact seconds y inside
  · exact (covered y hy).imp_left (inherited hy firsts)

end TopCluster
