import Mathlib.Data.List.Basic

/-! The end of a bracketed block in a text with quoted parts. One kind of bracket is counted; a quoted part
hides what is in it, and an escape hides the next character of a quoted part. -/
namespace BracketScan

variable {α : Type} [DecidableEq α]

structure Marks (α : Type) where
  opening : α
  closing : α
  quote : α
  escape : α
  apart : opening ≠ closing
  unquoted : opening ≠ quote ∧ closing ≠ quote
  unescaped : quote ≠ escape

/-- Where a scan is: outside the quoted parts, inside one, or behind an escape. -/
inductive Place where
  | outside | quoted | escaped
  deriving DecidableEq, Repr

def scan (m : Marks α) : Nat → Place → List α → Option (List α)
  | _, _, [] => none
  | depth, .escaped, c :: rest => (scan m depth .quoted rest).map (c :: ·)
  | depth, .quoted, c :: rest =>
    let next := if c = m.escape then Place.escaped else if c = m.quote then .outside else .quoted
    (scan m depth next rest).map (c :: ·)
  | depth, .outside, c :: rest =>
    if c = m.quote then (scan m depth .quoted rest).map (c :: ·)
    else if c = m.opening then (scan m (depth + 1) .outside rest).map (c :: ·)
    else if c = m.closing then
      if depth = 1 then some [c] else (scan m (depth - 1) .outside rest).map (c :: ·)
    else (scan m depth .outside rest).map (c :: ·)

def block (m : Marks α) (text : List α) : Option (List α) := scan m 0 .outside (text.dropWhile (· ≠ m.opening))

def Inside (m : Marks α) (text : List α) : Prop := ∀ depth rest,
  scan m depth .quoted (text ++ rest) = (scan m depth .quoted rest).map (text ++ ·)

/-- A text that leaves the scan where it was: its brackets match, and its quotes. -/
def Balanced (m : Marks α) (text : List α) : Prop := ∀ depth rest,
  scan m (depth + 1) .outside (text ++ rest) = (scan m (depth + 1) .outside rest).map (text ++ ·)

variable {m : Marks α} {xs ys : List α} {c : α}

omit [DecidableEq α] in
theorem mapAppend (found : Option (List α)) (xs ys : List α) :
    (found.map (ys ++ ·)).map (xs ++ ·) = found.map (xs ++ ys ++ ·) := by
  rw [Option.map_map]
  exact congrArg (Option.map · found) (funext fun text => (List.append_assoc xs ys text).symm)

theorem insideNil : Inside m [] := fun _ _ => Option.map_id'.symm

theorem Inside.append (first : Inside m xs) (second : Inside m ys) : Inside m (xs ++ ys) := by
  intro depth rest
  rw [List.append_assoc, first, second, mapAppend]

theorem insidePlain (quote : c ≠ m.quote) (escape : c ≠ m.escape) : Inside m [c] := by
  intro depth rest
  rw [List.singleton_append, scan, if_neg escape, if_neg quote]
  rfl

theorem insideEscaped : Inside m [m.escape, c] := by
  intro depth rest
  rw [List.cons_append, scan, if_pos rfl, List.singleton_append, scan, Option.map_map]
  rfl

theorem balancedNil : Balanced m [] := fun _ _ => Option.map_id'.symm

theorem Balanced.append (first : Balanced m xs) (second : Balanced m ys) : Balanced m (xs ++ ys) := by
  intro depth rest
  rw [List.append_assoc, first, second, mapAppend]

structure Plain (m : Marks α) (c : α) : Prop where
  quote : c ≠ m.quote
  opening : c ≠ m.opening
  closing : c ≠ m.closing

theorem balancedPlain (plain : Plain m c) : Balanced m [c] := by
  intro depth rest
  rw [List.singleton_append, scan, if_neg plain.quote, if_neg plain.opening, if_neg plain.closing]
  rfl

theorem balancedAll (plain : ∀ c ∈ xs, Plain m c) : Balanced m xs := by
  induction xs with
  | nil => exact balancedNil
  | cons x xs ih =>
    exact (balancedPlain (plain x List.mem_cons_self)).append
      (ih fun c inside => plain c (List.mem_cons_of_mem _ inside))

theorem balancedQuoted (inside : Inside m xs) : Balanced m (m.quote :: (xs ++ [m.quote])) := by
  intro depth rest
  rw [List.cons_append, scan, if_pos rfl, List.append_assoc, inside, List.singleton_append, scan,
    if_neg m.unescaped, if_pos rfl]
  simp only [Option.map_map]
  exact congrArg (Option.map · _) (funext fun text => by simp)

theorem balancedBlock (inner : Balanced m xs) : Balanced m (m.opening :: (xs ++ [m.closing])) := by
  intro depth rest
  rw [List.cons_append, scan, if_neg m.unquoted.1, if_pos rfl, List.append_assoc, inner, List.singleton_append,
    scan, if_neg m.unquoted.2, if_neg m.apart.symm, if_pos rfl, if_neg (by omega), Nat.add_sub_cancel]
  simp only [Option.map_map]
  exact congrArg (Option.map · _) (funext fun text => by simp)

theorem blockFound {before behind : List α} (none : m.opening ∉ before) (inner : Balanced m xs) :
    block m (before ++ (m.opening :: (xs ++ [m.closing]) ++ behind)) = some (m.opening :: (xs ++ [m.closing])) := by
  have skipped : ∀ c ∈ before, decide (c ≠ m.opening) = true := fun c inside =>
    decide_eq_true fun same => none (same ▸ inside)
  rw [block, List.dropWhile_append_of_pos skipped, List.cons_append, List.dropWhile_cons_of_neg (by simp), scan,
    if_neg m.unquoted.1, if_pos rfl, List.append_assoc, inner 0, List.singleton_append, scan,
    if_neg m.unquoted.2, if_neg m.apart.symm, if_pos rfl, if_pos rfl]
  simp

end BracketScan
