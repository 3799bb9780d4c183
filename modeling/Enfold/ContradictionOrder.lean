import Enfold.Contradiction

/-! Whether two claims in prose contradict each other does not depend on which of them is read first, and
a claim never contradicts its own tokens. -/
namespace Enfold

namespace Words

theorem meetsComm (a b : List String) : meets a b = meets b a := by
  rw [Bool.eq_iff_iff]
  simp only [meets, List.any_eq_true, List.contains_iff_mem]
  exact ⟨fun ⟨t, left, right⟩ => ⟨t, right, left⟩, fun ⟨t, right, left⟩ => ⟨t, left, right⟩⟩

theorem sameSetComm (a b : List String) : sameSet a b = sameSet b a := Bool.and_comm _ _

theorem sameSetRefl (a : List String) : sameSet a a = true := by
  simp [sameSet]

theorem sameSetNil {a b : List String} (same : sameSet a b = true) : a = [] ↔ b = [] := by
  simp only [sameSet, Bool.and_eq_true, List.all_eq_true, List.contains_iff_mem] at same
  constructor
  · rintro rfl
    exact List.eq_nil_iff_forall_not_mem.mpr fun t inside => List.not_mem_nil (same.2 t inside)
  · rintro rfl
    exact List.eq_nil_iff_forall_not_mem.mpr fun t inside => List.not_mem_nil (same.1 t inside)

end Words

open Words Text

theorem commonPrefixComm (a b : List String) :
    commonPrefix b a = ((commonPrefix a b).1, (commonPrefix a b).2.2, (commonPrefix a b).2.1) := by
  induction a generalizing b with
  | nil => cases b <;> rfl
  | cons x as ih =>
    cases b with
    | nil => rfl
    | cons y bs =>
      rw [commonPrefix, commonPrefix]
      by_cases same : x = y
      · rw [if_pos same, if_pos same.symm, ih bs, same]
      · rw [if_neg same, if_neg (Ne.symm same)]

theorem commonPrefixSelf (a : List String) : commonPrefix a a = (a, [], []) := by
  induction a with
  | nil => rfl
  | cons x as ih => rw [commonPrefix, if_pos rfl, ih]

section Symmetry
variable (a b : String)

theorem overlapComm : hasSubjectishOverlap a b = hasSubjectishOverlap b a := meetsComm _ _

theorem opposingComm : hasOpposingStateWords a b = hasOpposingStateWords b a := by
  rw [hasOpposingStateWords, hasOpposingStateWords, overlapComm]
  congr 2
  funext group
  dsimp only
  rw [sameSetComm, Bool.and_comm (decide (inter (stateWords a) group ≠ []))]

theorem negationComm : hasNegationMismatch a b = hasNegationMismatch b a := by
  rw [hasNegationMismatch, hasNegationMismatch, overlapComm, bne_comm]

theorem valueUpdateComm : isValueUpdate a b = isValueUpdate b a := by
  have unmoved : (decide (valueTokens a = valueTokens b) || decide (valueTokens a = []) || decide (valueTokens b = [])) =
      (decide (valueTokens b = valueTokens a) || decide (valueTokens b = []) || decide (valueTokens a = [])) := by
    rw [decide_eq_decide.mpr (eq_comm (a := valueTokens a)), Bool.or_assoc, Bool.or_assoc,
      Bool.or_comm (decide (valueTokens a = []))]
  rw [isValueUpdate, isValueUpdate]
  simp only [unmoved, opposingComm a b, negationComm a b, sameSetComm]

theorem suffixSubstitutionComm : isSuffixValueSubstitution a b = isSuffixValueSubstitution b a := by
  rw [isSuffixValueSubstitution, isSuffixValueSubstitution, commonPrefixComm (normTokenSequence a) (normTokenSequence b)]
  generalize commonPrefix (normTokenSequence a) (normTokenSequence b) = parts
  obtain ⟨shared, left, right⟩ := parts
  dsimp only
  rw [overlapComm a b, meetsComm left right, Bool.and_comm (left.all hasDigit)]
  ac_rfl

theorem residueComm (x y : List String) : (decide (x ≠ []) && sameSet x y) = (decide (y ≠ []) && sameSet y x) := by
  rw [sameSetComm y x]
  cases same : sameSet x y with
  | false => rw [Bool.and_false, Bool.and_false]
  | true => simp [sameSetNil same]

theorem contradictComm : untypedContentsContradict a b = untypedContentsContradict b a := by
  rw [untypedContentsContradict, untypedContentsContradict]
  dsimp only
  rw [opposingComm a b, negationComm a b, residueComm, valueUpdateComm a b, suffixSubstitutionComm a b,
    Bool.and_comm (hasStateFrame a)]

end Symmetry

/-! ## Restatements -/

section Restated
variable {a b : String} (same : normTokenSequence a = normTokenSequence b)
include same

theorem statesSame : stateWords a = stateWords b := by
  rw [stateWords, stateWords, contentTokens, contentTokens, same]

theorem opposingNever : hasOpposingStateWords a b = false := by
  rw [hasOpposingStateWords, statesSame same]
  simp [sameSetRefl]

theorem negationNever : hasNegationMismatch a b = false := by
  rw [hasNegationMismatch, negations, negations, same, bne_self_eq_false, Bool.and_false]

theorem valueUpdateNever : isValueUpdate a b = false := by
  have values : valueTokens a = valueTokens b := by rw [valueTokens, valueTokens, same]
  rw [isValueUpdate]
  simp [values, opposingNever same, negationNever same]

-- nothing is left behind the common prefix
theorem suffixSubstitutionNever : isSuffixValueSubstitution a b = false := by
  rw [isSuffixValueSubstitution, same, commonPrefixSelf]
  simp

theorem contradictNever : untypedContentsContradict a b = false := by
  rw [untypedContentsContradict]
  simp [opposingNever same, negationNever same, valueUpdateNever same, suffixSubstitutionNever same]

end Restated

/-- The verdict on two claims is the same both ways round, and there is none on one token sequence. -/
theorem untypedOrderFree (a b : String) : untypedContentsContradict a b = untypedContentsContradict b a ∧
    (normTokenSequence a = normTokenSequence b → untypedContentsContradict a b = false) :=
  ⟨contradictComm a b, contradictNever⟩

end Enfold
