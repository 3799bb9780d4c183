import Mathlib.Data.List.Basic

/-! The first piece of a list before a delimiter, and what it becomes when the list grows. -/
namespace Delimited

variable {α : Type} [DecidableEq α] {d : α}

/-- The elements before the first `d`, and those behind it. -/
def cut (d : α) : List α → Option (List α × List α)
  | [] => none
  | x :: xs => if x = d then some ([], xs) else (cut d xs).map fun (piece, rest) => (x :: piece, rest)

theorem cutNone {xs : List α} : cut d xs = none ↔ d ∉ xs := by
  induction xs with
  | nil => simp [cut]
  | cons x xs ih =>
    by_cases here : x = d
    · simp [cut, here]
    · simp [cut, here, ih, Ne.symm here]

theorem cutSource {xs piece rest : List α} (h : cut d xs = some (piece, rest)) :
    xs = piece ++ d :: rest ∧ d ∉ piece := by
  induction xs generalizing piece with
  | nil => cases h
  | cons x xs ih =>
    rw [cut] at h
    split at h
    · rename_i here
      cases h
      exact ⟨by rw [here, List.nil_append], List.not_mem_nil⟩
    · rename_i other
      obtain ⟨⟨piece', rest'⟩, found, last⟩ := Option.map_eq_some_iff.mp h
      cases last
      obtain ⟨rfl, free⟩ := ih found
      exact ⟨rfl, by simp [free, Ne.symm other]⟩

theorem cutShorter {xs piece rest : List α} (h : cut d xs = some (piece, rest)) :
    rest.length < xs.length := by
  obtain ⟨rfl, -⟩ := cutSource h
  simp only [List.length_append, List.length_cons]
  omega

theorem cutAppend {xs piece rest : List α} (h : cut d xs = some (piece, rest)) (more : List α) :
    cut d (xs ++ more) = some (piece, rest ++ more) := by
  induction xs generalizing piece with
  | nil => cases h
  | cons x xs ih =>
    rw [cut] at h
    rw [List.cons_append, cut]
    split at h
    · rename_i here
      cases h
      rw [if_pos here]
    · rename_i other
      obtain ⟨⟨piece', rest'⟩, found, last⟩ := Option.map_eq_some_iff.mp h
      cases last
      rw [if_neg other, ih found]
      rfl

theorem cutLater {xs : List α} (h : cut d xs = none) (more : List α) :
    cut d (xs ++ more) = (cut d more).map fun (piece, rest) => (xs ++ piece, rest) := by
  induction xs with
  | nil => simp
  | cons x xs ih =>
    rw [cutNone, List.mem_cons, not_or] at h
    rw [List.cons_append, cut, if_neg (Ne.symm h.1), ih (cutNone.mpr h.2), Option.map_map]
    rfl

theorem cutAt {piece : List α} (free : d ∉ piece) (rest : List α) :
    cut d (piece ++ d :: rest) = some (piece, rest) := by
  rw [cutLater (cutNone.mpr free), cut, if_pos rfl, Option.map_some]
  exact congrArg (fun first => some (first, rest)) (List.append_nil piece)

omit [DecidableEq α] in
theorem prefixCut {piece rest part : List α} (free : d ∉ piece) (h : part <+: piece ++ d :: rest) :
    d ∉ part ∨ ∃ behind, part = piece ++ d :: behind ∧ behind <+: rest := by
  rcases List.prefix_or_prefix_of_prefix h (List.prefix_append piece (d :: rest)) with short | ⟨tail, rfl⟩
  · exact .inl fun inside => free (short.subset inside)
  · have further := (List.prefix_append_right_inj piece).mp h
    cases tail with
    | nil => exact .inl (by rwa [List.append_nil])
    | cons x tail =>
      obtain ⟨rfl, more⟩ := List.cons_prefix_cons.mp further
      exact .inr ⟨tail, rfl, more⟩

theorem prefixFirst {piece other rest rest' : List α} (free : d ∉ piece) (free' : d ∉ other)
    (h : piece ++ d :: rest <+: other ++ d :: rest') : piece = other ∧ rest <+: rest' := by
  rcases prefixCut free' h with none' | ⟨behind, same, further⟩
  · exact absurd (List.mem_append_right piece List.mem_cons_self) none'
  · have first := congrArg (cut d) same
    rw [cutAt free, cutAt free'] at first
    cases first
    exact ⟨rfl, further⟩

theorem groupFirst {groups : List (List α)} {piece rest : List α} (free : d ∉ piece)
    (whole : ∀ group ∈ groups, group = [] ∨ ∃ other, group = other ++ [d] ∧ d ∉ other)
    (h : piece ++ d :: rest <+: groups.flatten) :
    ∃ pre post, groups = pre ++ (piece ++ [d]) :: post ∧ (∀ group ∈ pre, group = []) ∧ rest <+: post.flatten := by
  induction groups with
  | nil => exact absurd (List.prefix_nil.mp h) (by simp)
  | cons group groups ih =>
    rcases whole group List.mem_cons_self with rfl | ⟨other, rfl, free'⟩
    · obtain ⟨pre, post, rfl, nothing, further⟩ :=
        ih (fun other inside => whole other (List.mem_cons_of_mem _ inside)) h
      exact ⟨[] :: pre, post, rfl, List.forall_mem_cons.mpr ⟨rfl, nothing⟩, further⟩
    · rw [List.flatten_cons, List.append_assoc] at h
      obtain ⟨rfl, further⟩ := prefixFirst free free' h
      exact ⟨[], groups, rfl, fun _ none' => absurd none' List.not_mem_nil, further⟩

theorem groupSecond {groups : List (List α)} {piece piece' rest : List α} (free : d ∉ piece) (free' : d ∉ piece')
    (whole : ∀ group ∈ groups, group = [] ∨ ∃ other, group = other ++ [d] ∧ d ∉ other)
    (h : piece ++ d :: (piece' ++ d :: rest) <+: groups.flatten) : piece' ++ [d] ∈ groups.tail := by
  obtain ⟨pre, post, rfl, -, further⟩ := groupFirst free whole h
  obtain ⟨pre', post', rfl, -, -⟩ := groupFirst free' (fun group inside =>
    whole group (List.mem_append_right _ (List.mem_cons_of_mem _ inside))) further
  cases pre with
  | nil => simp
  | cons group pre => simp

end Delimited
