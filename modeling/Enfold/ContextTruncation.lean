import Enfold.ContextPacking
import Enfold.Foundation.Bisection

/-! The bisection of a text that is too long for its budget ends at the longest prefix that fits. Fitting
is monotone in the prefix: stripping its end keeps the lengths in order, and the estimate is one of lengths. -/
namespace Enfold

def truncated (kept : List Char) : String := String.ofList (packRstrip kept ++ ['…'])

section Prefixes
variable {text kept longer : List Char}

theorem rstripLonger (part : kept <+: longer) : (packRstrip kept).length ≤ (packRstrip longer).length := by
  obtain ⟨tail, rfl⟩ := part
  induction tail using List.reverseRecOn with
  | nil => rw [List.append_nil]
  | append_singleton tail c ih =>
    rw [← List.append_assoc, packRstrip, packRstrip, List.rdropWhile_concat]
    split
    · exact ih
    · calc (packRstrip kept).length
          ≤ kept.length := (List.rdropWhile_prefix Text.isSpace kept).length_le
        _ ≤ (kept ++ tail ++ [c]).length := by
          rw [List.append_assoc, List.length_append]
          exact Nat.le_add_right _ _

theorem truncatedLonger (part : kept <+: longer) : estimateTokens (truncated kept) ≤ estimateTokens (truncated longer) := by
  have ordered := rstripLonger part
  simp only [truncated, estimateTokens, String.length_ofList, List.length_append]
  omega

end Prefixes

section Budget
variable {budget : Int}

/-- Whether the first `n` characters fit. -/
def cutFits (text : List Char) (budget : Int) (n : Nat) : Bool := estimateTokens (truncated (text.take n)) ≤ budget

theorem cutFitsDown {text : List Char} (m n : Nat) (ordered : m ≤ n) (fits : cutFits text budget n = true) :
    cutFits text budget m = true := by
  have grows := truncatedLonger (List.take_prefix_take_left (l := text) ordered)
  simp only [cutFits, decide_eq_true_eq] at fits ⊢
  omega

theorem truncateSearched (text : List Char) (steps : Nat) (low high : Int) (best : Option Nat) :
    truncateLoop text budget steps low high ((best.map fun n => truncated (text.take n)).getD "") =
      ((Bisection.search (cutFits text budget) steps low high best).map fun n => truncated (text.take n)).getD "" := by
  induction steps generalizing low high best with
  | zero => rfl
  | succ steps ih =>
    rw [truncateLoop, Bisection.search]
    split
    · dsimp only
      by_cases within : (estimateTokens (truncated (text.take ((low + high) / 2).toNat)) : Int) ≤ budget
      · have fits : cutFits text budget ((low + high) / 2).toNat = true := decide_eq_true within
        rw [if_pos fits]
        exact (if_pos within).trans (ih _ _ (some _))
      · have refused : ¬cutFits text budget ((low + high) / 2).toNat = true := fun fits => within (of_decide_eq_true fits)
        rw [if_neg refused]
        exact (if_neg within).trans (ih _ _ best)
    · rfl

structure CutAt (text : List Char) (budget : Int) (kept : List Char) : Prop where
  part : kept <+: text
  fits : (estimateTokens (truncated kept) : Int) ≤ budget
  longest : ∀ longer, longer <+: text → kept.length < longer.length → budget < estimateTokens (truncated longer)

theorem cutGreatest {text : List Char} {n : Nat} (greatest : Bisection.Greatest (cutFits text budget) text.length n) :
    CutAt text budget (text.take n) where
  part := List.take_prefix n text
  fits := of_decide_eq_true greatest.accepted
  longest longer part later := by
    rw [List.length_take, Nat.min_eq_left greatest.inside] at later
    have refused := greatest.last longer.length later part.length_le
    rw [cutFits, ← List.prefix_iff_eq_take.mp part] at refused
    exact Int.not_le.mp (of_decide_eq_false refused)

theorem markerFits : estimateTokens (truncated []) = 1 := by decide

theorem truncateCut (text : String) (positive : 0 < budget) (long : budget < estimateTokens text) :
    ∃ kept, truncateToBudget text budget = (truncated kept, true) ∧ CutAt text.toList budget kept := by
  have marker : estimateTokens "…" = 1 := by decide
  have first : cutFits text.toList budget 0 = true := decide_eq_true (by
    rw [List.take_zero, markerFits]
    exact_mod_cast positive)
  have bisected : ∃ n, Bisection.search (cutFits text.toList budget) (text.length + 1) 0 text.length none = some n ∧
      Bisection.Greatest (cutFits text.toList budget) text.toList.length n := by
    refine Bisection.searchGreatest cutFitsDown (.start first) (by omega) (by omega) ?_ fun n later within => ?_
    · rw [String.length_toList]
    · rw [String.length_toList] at within
      omega
  obtain ⟨n, found, greatest⟩ := bisected
  refine ⟨text.toList.take n, ?_, cutGreatest greatest⟩
  have searched := @truncateSearched budget text.toList (text.length + 1) 0 text.length none
  rw [found] at searched
  rw [truncateToBudget, if_neg (not_le.mpr positive), if_neg (not_le.mpr long), if_neg (by omega)]
  exact congrArg (·, true) searched

/-- Where some truncated form fits, a text that fits stays as it is, and any other is cut to the
longest right-stripped prefix that fits behind the marker. -/
theorem truncationMaximal (text : String) (some : ∃ kept, kept <+: text.toList ∧
    (estimateTokens (truncated kept) : Int) ≤ budget) :
    ((estimateTokens text : Int) ≤ budget → truncateToBudget text budget = (text, false)) ∧
    (budget < estimateTokens text →
      ∃ kept, truncateToBudget text budget = (truncated kept, true) ∧ CutAt text.toList budget kept) := by
  obtain ⟨kept, -, fits⟩ := some
  have least := truncatedLonger kept.nil_prefix
  rw [markerFits] at least
  have positive : 0 < budget := by omega
  refine ⟨fun whole => ?_, truncateCut text positive⟩
  rw [truncateToBudget, if_neg (not_le.mpr positive), if_pos whole]

namespace Example

theorem noticeTruncated : ∃ kept, truncateToBudget "Deploys  go out on Monday" 2 = (truncated kept, true) ∧
    CutAt "Deploys  go out on Monday".toList 2 kept :=
  (@truncationMaximal 2 "Deploys  go out on Monday" ⟨[], List.nil_prefix, by decide⟩).2 (by decide)

-- a text that fits carries no marker
theorem shortTextWhole : ¬∀ (text : String) (budget : Int),
    (∃ kept, kept <+: text.toList ∧ (estimateTokens (truncated kept) : Int) ≤ budget) →
      ∃ kept, (truncateToBudget text budget).1 = truncated kept ∧ CutAt text.toList budget kept := by
  intro cuts
  obtain ⟨kept, whole, found⟩ := cuts "abc" 10 ⟨[], List.nil_prefix, by decide⟩
  have same : (truncateToBudget "abc" 10).1 = "abc" := by decide
  rw [same] at whole
  have marked : '…' ∈ "abc".toList := by
    rw [whole, truncated, String.toList_ofList]
    simp
  revert marked
  decide

end Example
end Budget
end Enfold
