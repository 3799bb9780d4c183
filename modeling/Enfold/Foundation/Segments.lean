import Mathlib.Order.Lattice

/-! Pieces along a linear order, one behind the other, with nothing but blanks between them. -/
namespace Segments

variable {α τ : Type} [LinearOrder τ] (start stop : α → τ) (blank : τ → Prop)

def Gap (low high : τ) : Prop := ∀ t, low ≤ t → t < high → blank t

inductive Pieces : τ → List α → τ → Prop
  | none {low high : τ} (order : low ≤ high) (gap : Gap blank low high) : Pieces low [] high
  | next {low high : τ} {p : α} {rest : List α} (order : low ≤ start p) (gap : Gap blank low (start p))
      (proper : start p < stop p) (tail : Pieces (stop p) rest high) : Pieces low (p :: rest) high

variable {start stop blank} {low mid high : τ} {ps qs : List α}

theorem Gap.self : Gap blank low low := fun _ begun ended => absurd ended (not_lt.mpr begun)

theorem Gap.join (first : Gap blank low mid) (second : Gap blank mid high) : Gap blank low high := by
  intro t begun ended
  rcases lt_or_ge t mid with early | late
  · exact first t begun early
  · exact second t late ended

theorem Pieces.order (pieces : Pieces start stop blank low ps high) : low ≤ high := by
  induction pieces with
  | none order gap => exact order
  | next order gap proper tail ih => exact order.trans (proper.le.trans ih)

theorem Pieces.behind (order : low ≤ mid) (gap : Gap blank low mid) (pieces : Pieces start stop blank mid ps high) :
    Pieces start stop blank low ps high := by
  cases pieces with
  | none order' gap' => exact .none (order.trans order') (gap.join gap')
  | next order' gap' proper tail => exact .next (order.trans order') (gap.join gap') proper tail

theorem Pieces.append (first : Pieces start stop blank low ps mid) (second : Pieces start stop blank mid qs high) :
    Pieces start stop blank low (ps ++ qs) high := by
  induction first with
  | none order gap => exact second.behind order gap
  | next order gap proper tail ih => exact .next order gap proper (ih second)

theorem Pieces.inside (pieces : Pieces start stop blank low ps high) :
    ∀ p ∈ ps, low ≤ start p ∧ start p < stop p ∧ stop p ≤ high := by
  induction pieces with
  | none order gap => exact fun _ h => absurd h List.not_mem_nil
  | next order gap proper tail ih =>
    intro q hq
    rcases List.mem_cons.mp hq with rfl | later
    · exact ⟨order, proper, tail.order⟩
    · obtain ⟨begun, kept, ended⟩ := ih q later
      exact ⟨order.trans (proper.le.trans begun), kept, ended⟩

theorem Pieces.ordered (pieces : Pieces start stop blank low ps high) :
    ps.Pairwise fun p q => stop p ≤ start q := by
  induction pieces with
  | none order gap => exact .nil
  | next order gap proper tail ih => exact .cons (fun q hq => (tail.inside q hq).1) ih

/-- A point of the range that is not blank lies in one piece and in no other. -/
theorem Pieces.exactlyOne {t : τ} (pieces : Pieces start stop blank low ps high) (begun : low ≤ t) (ended : t < high)
    (solid : ¬ blank t) : ∃! p, p ∈ ps ∧ start p ≤ t ∧ t < stop p := by
  induction pieces with
  | none order gap => exact absurd (gap t begun ended) solid
  | @next low high p rest order gap proper tail ih =>
    have reached : start p ≤ t := not_lt.mp fun early => solid (gap t begun early)
    rcases lt_or_ge t (stop p) with here | past
    · refine ⟨p, ⟨List.mem_cons_self, reached, here⟩, fun q found => ?_⟩
      rcases List.mem_cons.mp found.1 with same | later
      · exact same
      · exact absurd ((tail.inside q later).1.trans found.2.1) (not_le.mpr here)
    · obtain ⟨q, ⟨inside, covers⟩, only⟩ := ih past ended
      refine ⟨q, ⟨List.mem_cons_of_mem _ inside, covers⟩, fun r found => ?_⟩
      rcases List.mem_cons.mp found.1 with rfl | later
      · exact absurd found.2.2 (not_lt.mpr past)
      · exact only r ⟨later, found.2⟩

end Segments
