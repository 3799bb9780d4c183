import Enfold.Text
import Mathlib.Algebra.GroupWithZero.Nat
import Mathlib.Data.List.Dedup
import Mathlib.Data.List.Infix

/-! Separated and marked texts: the parts of a text between separators, the text behind the first
occurrence of a mark, and lists in which each item is kept at its first place. -/
namespace Enfold.Text

variable {separator : Char} {mark text rest xs ys : List Char}

/-! ## Parts -/

theorem splitOnList (separator : Char) (text : List Char) : splitOn separator text = text.splitOn separator := by
  induction text with
  | nil => rfl
  | cons c cs ih =>
    rw [splitOn, List.splitOn_cons_eq_if_modifyHead, ih]
    cases split : cs.splitOn separator with
    | nil => exact absurd split (List.splitOn_ne_nil _ _)
    | cons head tail => simp only [beq_iff_eq, List.modifyHead_cons]

theorem splitOnAppend (separator : Char) (xs ys : List Char) :
    splitOn separator (xs ++ separator :: ys) = splitOn separator xs ++ splitOn separator ys := by
  simp only [splitOnList, List.splitOn_append_cons_self]

theorem splitOnJoined {parts : List (List Char)} (whole : ∀ part ∈ parts, separator ∉ part) (some : parts ≠ []) :
    splitOn separator ([separator].intercalate parts) = parts := by
  rw [splitOnList, List.splitOn_intercalate separator whole some]

theorem splitWhole (whole : separator ∉ text) : splitOn separator text = [text] := by
  rw [splitOnList, List.splitOn_eq_singleton whole]

theorem splitParts : ∀ part ∈ splitOn separator text, separator ∉ part := by
  induction text with
  | nil =>
    intro part listed
    rw [List.mem_singleton.mp listed]
    exact List.not_mem_nil
  | cons c cs ih =>
    intro part listed
    unfold splitOn at listed
    split at listed
    · rename_i head tail split
      rw [split] at ih
      split at listed
      · rcases List.mem_cons.mp listed with rfl | listed
        · exact List.not_mem_nil
        · exact ih part listed
      · rename_i other
        rcases List.mem_cons.mp listed with rfl | listed
        · rw [List.mem_cons, not_or]
          exact ⟨fun same => other same.symm, ih head List.mem_cons_self⟩
        · exact ih part (List.mem_cons_of_mem _ listed)
    · rw [List.mem_singleton.mp listed, List.mem_singleton]
      rename_i empty
      rw [splitOnList] at empty
      exact absurd empty (List.splitOn_ne_nil _ _)

theorem joinedLength (separator : Char) {parts : List (List Char)} :
    ([separator].intercalate parts).length = parts.length - 1 + (parts.map List.length).sum := by
  induction parts with
  | nil => rfl
  | cons part rest ih =>
    cases rest with
    | nil => simp
    | cons next rest =>
      rw [List.intercalate_cons_of_ne_nil (by simp), List.length_append, List.length_append, ih]
      simp only [List.length_cons, List.map_cons, List.sum_cons, List.length_nil]
      omega

theorem joinedChars {parts : List (List Char)} {c : Char} (h : c ∈ [separator].intercalate parts) :
    c = separator ∨ ∃ part ∈ parts, c ∈ part := by
  induction parts with
  | nil => cases h
  | cons part rest ih =>
    cases rest with
    | nil =>
      rw [List.intercalate_singleton] at h
      exact .inr ⟨part, List.mem_cons_self, h⟩
    | cons next rest =>
      rw [List.intercalate_cons_of_ne_nil (by simp)] at h
      rcases List.mem_append.mp h with h | h
      · rcases List.mem_append.mp h with h | h
        · exact .inr ⟨part, List.mem_cons_self, h⟩
        · exact .inl (List.mem_singleton.mp h)
      · exact (ih h).imp_right fun ⟨p, hp, inside⟩ => ⟨p, List.mem_cons_of_mem _ hp, inside⟩

theorem afterMark (mark rest : List Char) : after mark (mark ++ rest) = some rest := by
  induction mark with
  | nil => rfl
  | cons p ps ih =>
    rw [List.cons_append, after, if_pos rfl, ih]

section FirstPlaces
variable {α : Type} [DecidableEq α] {items others : List α}

def firstPlaces (items : List α) : List α := items.reverse.dedup.reverse

theorem firstPlacesMem {a : α} : a ∈ firstPlaces items ↔ a ∈ items := by simp [firstPlaces]

end FirstPlaces

end Enfold.Text
