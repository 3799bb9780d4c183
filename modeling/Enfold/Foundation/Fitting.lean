import Mathlib.Data.List.TakeDrop
import Mathlib.Data.List.Infix

/-! A list cut from its end until what is left fits, or nothing is left. -/
namespace Fitting

variable {α : Type}

-- the items behind the end first
def fitReversed (fits : List α → Bool) : List α → List α
  | [] => []
  | last :: rest => if fits (last :: rest).reverse then last :: rest else fitReversed fits rest

def fitItems (fits : List α → Bool) (items : List α) : List α := (fitReversed fits items.reverse).reverse

def fitFlagged (fits : Bool → List α → Bool) : Bool → List α → List α × Bool
  | flag, [] => ([], flag)
  | flag, last :: rest =>
    if fits flag (last :: rest).reverse then ((last :: rest).reverse, flag) else fitFlagged fits true rest

section Fit
variable (fits : List α → Bool) (items : List α)

theorem fitReversedSuffix : fitReversed fits items <:+ items := by
  induction items with
  | nil => exact List.suffix_rfl
  | cons last rest ih =>
    rw [fitReversed]
    split
    · exact List.suffix_rfl
    · exact ih.trans (List.suffix_cons last rest)

theorem fitPrefix : fitItems fits items <+: items := by
  have reversed := List.reverse_prefix.mpr (fitReversedSuffix fits items.reverse)
  rwa [List.reverse_reverse] at reversed

theorem fitReversedFits : fitReversed fits items = [] ∨ fits (fitReversed fits items).reverse = true := by
  induction items with
  | nil => exact .inl rfl
  | cons last rest ih =>
    rw [fitReversed]
    split
    · rename_i fitting
      exact .inr fitting
    · exact ih

theorem fitFits : fitItems fits items = [] ∨ fits (fitItems fits items) = true :=
  (fitReversedFits fits items.reverse).imp_left fun none => by rw [fitItems, none, List.reverse_nil]

variable {items}

theorem fitReversedLongest {kept : List α} (suffix : kept <:+ items) (some' : kept ≠ [])
    (fitting : fits kept.reverse = true) : kept <:+ fitReversed fits items := by
  induction items with
  | nil => exact absurd (List.suffix_nil.mp suffix) some'
  | cons last rest ih =>
    rw [fitReversed]
    rcases List.suffix_cons_iff.mp suffix with rfl | shorter
    · rw [if_pos fitting]
    · split
      · exact suffix
      · exact ih shorter

theorem fitLongest {kept : List α} (inside : kept <+: items) (some' : kept ≠ []) (fitting : fits kept = true) :
    kept <+: fitItems fits items := by
  have reversed := fitReversedLongest fits (List.reverse_suffix.mpr inside) (by simpa using some')
    (by rwa [List.reverse_reverse])
  have back := List.reverse_prefix.mpr reversed
  rwa [List.reverse_reverse] at back

theorem fitKept {kept : List α} (inside : kept <+: items) (fitting : kept = [] ∨ fits kept = true) :
    kept <+: fitItems fits items := by
  by_cases none : kept = []
  · rw [none]
    exact List.nil_prefix
  · exact fitLongest fits inside none (fitting.resolve_left none)

theorem fitTwice {strict : List α → Bool} (looser : ∀ kept, strict kept = true → fits kept = true) :
    fitItems strict (fitItems fits items) = fitItems strict items := by
  have inside := (fitPrefix strict (fitItems fits items)).trans (fitPrefix fits items)
  have forth := fitKept strict inside (fitFits strict _)
  have through := fitKept fits (fitPrefix strict items) ((fitFits strict items).imp_right (looser _))
  have back := fitKept strict through (fitFits strict items)
  exact forth.eq_of_length_le back.length_le

theorem fitEmpty {first : α} (shorter : ∀ rest : List α, fits (first :: rest) = true → fits [first] = true) :
    fitItems fits (first :: items) = [] ↔ fits [first] = false := by
  constructor
  · intro none
    by_contra fitting
    have kept := fitLongest fits ⟨items, rfl⟩ (List.cons_ne_nil _ _) (by simpa using fitting)
    rw [List.singleton_append, none] at kept
    exact List.cons_ne_nil _ _ (List.prefix_nil.mp kept)
  · intro alone
    rcases fitFits fits (first :: items) with none | fitting
    · exact none
    · cases left : fitItems fits (first :: items) with
      | nil => rfl
      | cons head rest =>
        have same : head = first := by
          have inside := fitPrefix fits (first :: items)
          rw [left] at inside
          exact (List.cons_prefix_cons.mp inside).1
        rw [left, same] at fitting
        rw [shorter rest fitting] at alone
        cases alone

end Fit

/-! ## With a flag -/

theorem fitFlaggedSource (fits : Bool → List α → Bool) (flag : Bool) (reversed : List α) :
    (fitFlagged fits flag reversed).1 <+: reversed.reverse ∧
      (fitFlagged fits flag reversed = (reversed.reverse, flag) ∨ (fitFlagged fits flag reversed).2 = true) ∧
      ((fitFlagged fits flag reversed).1 = [] ∨
        fits (fitFlagged fits flag reversed).2 (fitFlagged fits flag reversed).1 = true) := by
  induction reversed generalizing flag with
  | nil => exact ⟨List.prefix_rfl, .inl rfl, .inl rfl⟩
  | cons last rest ih =>
    rw [fitFlagged]
    split
    · rename_i fitting
      exact ⟨List.prefix_rfl, .inl rfl, .inr fitting⟩
    · obtain ⟨inside, flagged, fitted⟩ := ih true
      have shorter : rest.reverse <+: (last :: rest).reverse := by
        rw [List.reverse_cons]
        exact List.prefix_append _ _
      refine ⟨inside.trans shorter, .inr ?_, fitted⟩
      rcases flagged with whole | raised
      · rw [whole]
      · exact raised

theorem fitFlaggedWhole {fits : Bool → List α → Bool} {flag : Bool} {items : List α}
    (fitting : fits flag items = true) : fitFlagged fits flag items.reverse = (items, flag) := by
  cases reversed : items.reverse with
  | nil => rw [fitFlagged, List.reverse_eq_nil_iff.mp reversed]
  | cons last rest =>
    have back : (last :: rest).reverse = items := by rw [← reversed, List.reverse_reverse]
    rw [fitFlagged, back, if_pos fitting]

end Fitting
