import Mathlib.Algebra.GroupWithZero.Nat
import Mathlib.Data.List.DropRight
import Mathlib.Data.List.Infix

/-! Items taken in order while a ration lasts: at most so many of them, and together no dearer than a budget. -/
namespace Rationed

variable {α : Type}

/-- What is taken, and whether anything is left. `separator` is what the next item costs besides its own
cost; from the second one on it is one. -/
def ration (cost : α → Nat) (budget : Nat) : (room used separator : Nat) → List α → List α × Bool
  | _, _, _, [] => ([], false)
  | 0, _, _, _ :: _ => ([], true)
  | room + 1, used, separator, item :: rest =>
    if budget < used + (cost item + separator) then ([], true)
    else
      let later := ration cost budget room (used + (cost item + separator)) 1 rest
      (item :: later.1, later.2)

variable {cost : α → Nat} {budget room used separator : Nat} {items : List α}

theorem rationPrefix (cost : α → Nat) (budget room used separator : Nat) (items : List α) :
    (ration cost budget room used separator items).1 <+: items := by
  induction items generalizing room used separator with
  | nil => cases room <;> exact List.prefix_rfl
  | cons item rest ih =>
    cases room with
    | zero => exact List.nil_prefix
    | succ room =>
      rw [ration]
      split
      · exact List.nil_prefix
      · exact List.prefix_cons_inj item |>.mpr (ih room _ 1)

theorem rationRoom (cost : α → Nat) (budget room used separator : Nat) (items : List α) :
    (ration cost budget room used separator items).1.length ≤ room := by
  induction items generalizing room used separator with
  | nil => cases room <;> exact Nat.zero_le _
  | cons item rest ih =>
    cases room with
    | zero => exact Nat.le_refl 0
    | succ room =>
      rw [ration]
      split
      · exact Nat.zero_le _
      · exact Nat.succ_le_succ (ih room _ 1)

/-- The items taken are within the budget, with what was used before and the separators. -/
theorem rationWithin (started : used ≤ budget) (one : separator ≤ 1) (items : List α) :
    used + ((ration cost budget room used separator items).1.map fun item => cost item + 1).sum ≤
      budget + (1 - separator) := by
  induction items generalizing room used separator with
  | nil => cases room <;> (rw [ration]; simpa using Nat.le_add_right_of_le started)
  | cons item rest ih =>
    cases room with
    | zero => simpa [ration] using Nat.le_add_right_of_le started
    | succ room =>
      rw [ration]
      split
      · simpa using Nat.le_add_right_of_le started
      · rename_i affordable
        have later := @ih room _ 1 (Nat.not_lt.mp affordable) (Nat.le_refl 1)
        rw [List.map_cons, List.sum_cons]
        omega

/-- The flag says exactly that something was left. -/
theorem rationFlag : (ration cost budget room used separator items).2 = false ↔
    (ration cost budget room used separator items).1 = items := by
  induction items generalizing room used separator with
  | nil => cases room <;> simp [ration]
  | cons item rest ih =>
    cases room with
    | zero => simp [ration]
    | succ room =>
      rw [ration]
      split
      · simp
      · simpa using ih

/-! ## The last items -/

variable {n : Nat}

theorem lastSuffix (n : Nat) (items : List α) : items.rtake n <:+ items := List.drop_suffix _ _

theorem lastWhole (short : (items.rtake n).length ≠ n) : items.rtake n = items := by
  rw [List.rtake, List.length_drop] at short
  have none' : items.length - n = 0 := by omega
  rw [List.rtake, none', List.drop_zero]

theorem lastAll (room : items.length ≤ n) : items.rtake n = items := by
  rw [List.rtake, Nat.sub_eq_zero_of_le room, List.drop_zero]

end Rationed
