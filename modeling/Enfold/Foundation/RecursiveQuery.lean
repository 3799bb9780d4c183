import Mathlib.Data.List.Dedup
import Mathlib.Data.List.Perm.Subperm
import Mathlib.Logic.Relation

/-! Recursive queries with `UNION` and a limit: a row leaves the queue as a result and queues the rows
that step from it and were never queued before. With room for every row that can be reached, exactly
these are the results. -/
namespace RecursiveQuery

open Relation

variable {α : Type} [DecidableEq α] (step : α → List α)

def fresh (seen : List α) (row : α) : List α := ((step row).filter (· ∉ seen)).reverse.dedup.reverse

def rows : Nat → List α → List α → List α
  | 0, _, _ => []
  | _ + 1, _, [] => []
  | limit + 1, seen, row :: queue =>
    row :: rows limit (seen ++ fresh step seen row) (queue ++ fresh step seen row)

variable {step} {limit : Nat} {seen queue : List α} {row x y : α}

theorem freshMem : x ∈ fresh step seen row ↔ x ∈ step row ∧ x ∉ seen := by
  simp [fresh]

theorem freshDistinct (distinct : seen.Nodup) : (seen ++ fresh step seen row).Nodup := by
  refine List.nodup_append.mpr ⟨distinct, List.nodup_reverse.mpr (List.nodup_dedup _), ?_⟩
  rintro a there b here rfl
  exact (freshMem.mp here).2 there

theorem rowsSound (h : x ∈ rows step limit seen queue) :
    ∃ start ∈ queue, ReflTransGen (fun a b => b ∈ step a) start x := by
  induction limit generalizing seen queue with
  | zero => cases h
  | succ limit ih =>
    cases queue with
    | nil => cases h
    | cons row queue =>
      rcases List.mem_cons.mp h with rfl | later
      · exact ⟨x, List.mem_cons_self, .refl⟩
      · obtain ⟨start, queued, reached⟩ := ih later
        rcases List.mem_append.mp queued with queued | stepped
        · exact ⟨start, List.mem_cons_of_mem _ queued, reached⟩
        · exact ⟨row, List.mem_cons_self, .head (freshMem.mp stepped).1 reached⟩

theorem rowsDistinct {done : List α} (distinct : (done ++ queue).Nodup) :
    (done ++ rows step limit (done ++ queue) queue).Nodup := by
  induction limit generalizing done queue with
  | zero => simpa [rows] using (List.nodup_append.mp distinct).1
  | succ limit ih =>
    cases queue with
    | nil => simpa [rows] using distinct
    | cons row queue =>
      have moved : (done ++ [row]) ++ (queue ++ fresh step (done ++ row :: queue) row) =
          (done ++ row :: queue) ++ fresh step (done ++ row :: queue) row := by simp
      have distinct' : ((done ++ [row]) ++ (queue ++ fresh step (done ++ row :: queue) row)).Nodup := by
        rw [moved]
        exact freshDistinct distinct
      have later := ih distinct'
      rw [moved] at later
      simpa [rows] using later

/-- With room for all of `all`, the queue runs empty: what has left it is closed under the step. -/
theorem rowsClosed {all done : List α} (distinct : (done ++ queue).Nodup)
    (inside : ∀ a ∈ done ++ queue, a ∈ all) (stays : ∀ a ∈ all, ∀ b ∈ step a, b ∈ all)
    (closed : ∀ a ∈ done, ∀ b ∈ step a, b ∈ done ++ queue) (room : all.length ≤ limit + done.length) :
    (∀ a ∈ queue, a ∈ rows step limit (done ++ queue) queue) ∧
      ∀ a ∈ done ++ rows step limit (done ++ queue) queue, ∀ b ∈ step a,
        b ∈ done ++ rows step limit (done ++ queue) queue := by
  induction limit generalizing done queue with
  | zero =>
    have few := (List.subperm_of_subset distinct inside).length_le
    have none : queue = [] := by
      rw [List.length_append] at few
      exact List.length_eq_zero_iff.mp (by omega)
    subst none
    exact ⟨nofun, by simpa [rows] using closed⟩
  | succ limit ih =>
    cases queue with
    | nil => exact ⟨nofun, by simpa [rows] using closed⟩
    | cons row queue =>
      generalize known : done ++ row :: queue = seen at *
      have moved : (done ++ [row]) ++ (queue ++ fresh step seen row) = seen ++ fresh step seen row := by
        rw [← known]
        simp
      have row' : row ∈ seen := by
        rw [← known]
        exact List.mem_append_right _ List.mem_cons_self
      have extended : ∀ b, b ∈ step row → b ∈ seen ++ fresh step seen row := by
        intro b stepped
        by_cases old : b ∈ seen
        · exact List.mem_append_left _ old
        · exact List.mem_append_right _ (freshMem.mpr ⟨stepped, old⟩)
      have distinct' : ((done ++ [row]) ++ (queue ++ fresh step seen row)).Nodup := by
        rw [moved]
        exact freshDistinct distinct
      have later := ih distinct'
        (by
          rw [moved]
          intro a there
          rcases List.mem_append.mp there with there | stepped
          · exact inside a there
          · exact stays row (inside row row') a (freshMem.mp stepped).1)
        (by
          rw [moved]
          intro a there b stepped
          rcases List.mem_append.mp there with there | same
          · exact List.mem_append_left _ (closed a there b stepped)
          · rw [List.mem_singleton.mp same] at stepped
            exact extended b stepped)
        (by rw [List.length_append]; simp only [List.length_singleton]; omega)
      rw [moved] at later
      obtain ⟨queued, after⟩ := later
      constructor
      · intro a there
        rcases List.mem_cons.mp there with rfl | there
        · exact List.mem_cons_self
        · exact List.mem_cons_of_mem _ (queued a (List.mem_append_left _ there))
      · have same : done ++ rows step (limit + 1) seen (row :: queue) =
            (done ++ [row]) ++ rows step limit (seen ++ fresh step seen row) (queue ++ fresh step seen row) := by
          rw [rows]
          simp
        rw [same]
        exact after

/-- The results from one row are what it reaches, as long as the limit has room for all of that. -/
theorem rowsMem {start : α} {all : List α} (inside : start ∈ all) (stays : ∀ a ∈ all, ∀ b ∈ step a, b ∈ all)
    (room : all.length ≤ limit) :
    x ∈ rows step limit [start] [start] ↔ ReflTransGen (fun a b => b ∈ step a) start x := by
  constructor
  · intro result
    obtain ⟨from', same, reached⟩ := rowsSound result
    rwa [List.mem_singleton.mp same] at reached
  · intro reached
    have distinct : ([] ++ [start]).Nodup := List.nodup_singleton start
    obtain ⟨queued, closed⟩ := rowsClosed distinct (by simpa using inside) stays nofun (by simpa using room)
    induction reached with
    | refl => exact queued start List.mem_cons_self
    | tail _ stepped ih => exact closed _ ih _ stepped

end RecursiveQuery
