import Enfold.Foundation.Fallible

/-! An ordered list of steps over one state, performed one after another or as a batch that
stops at the first refused answer and keeps nothing of it. -/
namespace Batch

variable {σ α ω ε : Type} (step : σ → α → Except ε (σ × ω)) (refused : ω → Bool)

def each : σ → List α → Except ε (σ × List ω)
  | s, [] => .ok (s, [])
  | s, a :: rest => do
    let (s, answer) ← step s a
    let (s, answers) ← each s rest
    .ok (s, answer :: answers)

/-- The steps as a batch: a refused answer ends it, and `none` is its rollback. -/
def run : σ → List α → Except ε (Option σ × List ω)
  | s, [] => .ok (some s, [])
  | s, a :: rest => do
    let (s, answer) ← step s a
    if refused answer then .ok (none, [answer])
    else
      let (s, answers) ← run s rest
      .ok (s, answer :: answers)

variable {step refused}

theorem eachCons {s t : σ} {a : α} {rest : List α} {answers : List ω} :
    each step s (a :: rest) = .ok (t, answers) ↔
      ∃ middle answer tail, step s a = .ok (middle, answer) ∧
        each step middle rest = .ok (t, tail) ∧ answers = answer :: tail := by
  simp only [each, Fallible.bindOk, Prod.exists, Except.ok.injEq, Prod.mk.injEq]
  constructor
  · rintro ⟨middle, answer, first, t', tail, later, rfl, rfl⟩
    exact ⟨middle, answer, tail, first, later, rfl⟩
  · rintro ⟨middle, answer, tail, first, later, rfl⟩
    exact ⟨middle, answer, first, t, tail, later, rfl, rfl⟩

theorem eachAppend {s t : σ} {pre post : List α} {answers : List ω} :
    each step s (pre ++ post) = .ok (t, answers) ↔
      ∃ middle first later, each step s pre = .ok (middle, first) ∧
        each step middle post = .ok (t, later) ∧ answers = first ++ later := by
  induction pre generalizing s answers with
  | nil =>
    simp only [List.nil_append, each, Except.ok.injEq, Prod.mk.injEq]
    constructor
    · intro h
      exact ⟨s, [], answers, ⟨rfl, rfl⟩, h, rfl⟩
    · rintro ⟨middle, first, later, ⟨rfl, rfl⟩, h, rfl⟩
      exact h
  | cons a pre ih =>
    simp only [List.cons_append, eachCons, ih]
    constructor
    · rintro ⟨next, answer, tail, here, ⟨middle, first, later, head, rest, rfl⟩, rfl⟩
      exact ⟨middle, answer :: first, later, ⟨next, answer, first, here, head, rfl⟩, rest, rfl⟩
    · rintro ⟨middle, first, later, ⟨next, answer, tail, here, head, rfl⟩, rest, rfl⟩
      exact ⟨next, answer, tail ++ later, here, ⟨middle, tail, later, head, rest, rfl⟩, rfl⟩

theorem eachLength {s t : σ} {xs : List α} {answers : List ω}
    (h : each step s xs = .ok (t, answers)) : answers.length = xs.length := by
  induction xs generalizing s answers with
  | nil => cases h; rfl
  | cons a rest ih =>
    obtain ⟨middle, answer, tail, -, later, rfl⟩ := eachCons.mp h
    simp [ih later]

/-- A batch commits exactly what the steps do one after another, none of them refused. -/
theorem runCommitted {s t : σ} {xs : List α} {answers : List ω} :
    run step refused s xs = .ok (some t, answers) ↔
      each step s xs = .ok (t, answers) ∧ ∀ answer ∈ answers, refused answer = false := by
  induction xs generalizing s answers with
  | nil => simp only [run, each, Except.ok.injEq, Prod.mk.injEq, Option.some.injEq]; aesop
  | cons a rest ih =>
    rw [eachCons]
    simp only [run, Fallible.bindOk, Prod.exists]
    constructor
    · rintro ⟨middle, answer, first, last⟩
      split at last
      · simp at last
      · rename_i accepted
        simp only [Fallible.bindOk, Prod.exists, Except.ok.injEq, Prod.mk.injEq] at last
        obtain ⟨done, tail, later, rfl, rfl⟩ := last
        obtain ⟨steps, fine⟩ := ih.mp later
        refine ⟨⟨middle, answer, tail, first, steps, rfl⟩, ?_⟩
        rintro b hb
        rcases List.mem_cons.mp hb with rfl | hb
        · simpa using accepted
        · exact fine b hb
    · rintro ⟨⟨middle, answer, tail, first, steps, rfl⟩, fine⟩
      refine ⟨middle, answer, first, ?_⟩
      have accepted := fine answer List.mem_cons_self
      have later := ih.mpr ⟨steps, fun b hb => fine b (List.mem_cons_of_mem _ hb)⟩
      simp [accepted, later, Fallible.okBind]

/-- A batch rolls back at its first refused step; nothing behind it was performed. -/
theorem runRefused {s : σ} {xs : List α} {answers : List ω} :
    run step refused s xs = .ok (none, answers) ↔
      ∃ pre a post t first u answer, xs = pre ++ a :: post ∧ each step s pre = .ok (t, first) ∧
        (∀ b ∈ first, refused b = false) ∧ step t a = .ok (u, answer) ∧ refused answer = true ∧
        answers = first ++ [answer] := by
  induction xs generalizing s answers with
  | nil => simp [run]
  | cons a rest ih =>
    simp only [run, Fallible.bindOk, Prod.exists]
    constructor
    · rintro ⟨middle, answer, here, last⟩
      split at last
      · rename_i turned
        simp only [Except.ok.injEq, Prod.mk.injEq, true_and] at last
        exact ⟨[], a, rest, s, [], middle, answer, rfl, rfl, by simp, here, turned, last.symm⟩
      · rename_i accepted
        simp only [Fallible.bindOk, Prod.exists, Except.ok.injEq, Prod.mk.injEq] at last
        obtain ⟨done, tail, later, rfl, rfl⟩ := last
        obtain ⟨pre, b, post, t, first, u, turn, rfl, steps, fine, there, turned, rfl⟩ := ih.mp later
        refine ⟨a :: pre, b, post, t, answer :: first, u, turn, rfl, ?_, ?_, there, turned, rfl⟩
        · exact eachCons.mpr ⟨middle, answer, first, here, steps, rfl⟩
        · rintro c hc
          rcases List.mem_cons.mp hc with rfl | hc
          · simpa using accepted
          · exact fine c hc
    · rintro ⟨pre, b, post, t, first, u, turn, same, steps, fine, there, turned, rfl⟩
      cases pre with
      | nil =>
        obtain ⟨rfl, rfl⟩ : a = b ∧ rest = post := by simpa using same
        cases steps
        exact ⟨u, turn, there, by simp [turned]⟩
      | cons c pre =>
        obtain ⟨rfl, rfl⟩ : a = c ∧ rest = pre ++ b :: post := by simpa using same
        obtain ⟨middle, answer, tail, here, later, rfl⟩ := eachCons.mp steps
        have accepted := fine answer List.mem_cons_self
        have again := ih.mpr ⟨pre, b, post, t, tail, u, turn, rfl, later,
          fun d hd => fine d (List.mem_cons_of_mem _ hd), there, turned, rfl⟩
        exact ⟨middle, answer, here, by simp [accepted, again, Fallible.okBind]⟩

end Batch
