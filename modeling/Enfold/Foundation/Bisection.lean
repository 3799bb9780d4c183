import Mathlib.Tactic.ByContra

/-! Bisection for the last index a test accepts, over tests that accept every index before an accepted
one. The bounds are integers, so that the upper one may pass below zero. -/
namespace Bisection

variable {fits : Nat → Bool} {limit : Nat}

variable (fits) in
def search : Nat → Int → Int → Option Nat → Option Nat
  | 0, _, _, best => best
  | steps + 1, low, high, best =>
    if low ≤ high then
      let midpoint := (low + high) / 2
      if fits midpoint.toNat then search steps (midpoint + 1) high (some midpoint.toNat)
      else search steps low (midpoint - 1) best
    else best

variable (fits limit) in
structure Greatest (n : Nat) : Prop where
  accepted : fits n = true
  inside : n ≤ limit
  last : ∀ m, n < m → m ≤ limit → fits m = false

variable (fits) in
/-- Where the search stands: the best index so far lies just before the lower bound. -/
inductive Below : Int → Option Nat → Prop
  | start (first : fits 0 = true) : Below 0 none
  | found {n : Nat} (accepted : fits n = true) : Below (n + 1) (some n)

theorem Below.nonneg {low : Int} {best : Option Nat} (below : Below fits low best) : 0 ≤ low := by
  cases below with
  | start => exact Int.le_refl 0
  | found => omega

theorem Below.ends {low high : Int} {best : Option Nat} (below : Below fits low best) (met : low = high + 1)
    (inside : high ≤ limit) (above : ∀ n : Nat, high < n → n ≤ limit → fits n = false) :
    ∃ n, best = some n ∧ Greatest fits limit n := by
  cases below with
  | start first =>
    have none := above 0 (by omega) (Nat.zero_le limit)
    rw [first] at none
    cases none
  | found accepted =>
    rename_i n
    exact ⟨n, rfl, accepted, by omega, fun m later within => above m (by omega) within⟩

theorem searchGreatest (down : ∀ m n, m ≤ n → fits n = true → fits m = true) {steps : Nat} {low high : Int}
    {best : Option Nat} (below : Below fits low best) (ordered : low ≤ high + 1) (room : high + 1 - low ≤ steps)
    (inside : high ≤ limit) (above : ∀ n : Nat, high < n → n ≤ limit → fits n = false) :
    ∃ n, search fits steps low high best = some n ∧ Greatest fits limit n := by
  induction steps generalizing low high best with
  | zero => exact below.ends (by omega) inside above
  | succ steps ih =>
    rw [search]
    have start := below.nonneg
    split
    · have between : low ≤ (low + high) / 2 ∧ (low + high) / 2 ≤ high := by omega
      have value : (((low + high) / 2).toNat : Int) = (low + high) / 2 := Int.toNat_of_nonneg (by omega)
      dsimp only
      generalize ((low + high) / 2).toNat = midpoint at value
      rw [← value] at between ⊢
      split
      · rename_i accepted
        exact ih (.found accepted) (by omega) (by omega) inside above
      · rename_i refused
        refine ih below (by omega) (by omega) (by omega) fun n later within => ?_
        by_contra accepted
        exact refused (down midpoint n (by omega) (Bool.not_eq_false _ ▸ accepted))
    · exact below.ends (by omega) inside above

end Bisection
