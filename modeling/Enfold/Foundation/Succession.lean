import Mathlib.Logic.Function.Iterate

/-! Chains of successors: a partial map that names for each item the one that took its place. Items
without a successor are the ends of the chains. -/
namespace Succession

variable {α : Type} {next next' : α → Option α} {a b : α}

/-- Following `next` from here comes to an end. -/
inductive Ends (next : α → Option α) : α → Prop
  | last {a : α} (done : next a = none) : Ends next a
  | step {a b : α} (onward : next a = some b) (ends : Ends next b) : Ends next a

theorem Ends.apart (ends : Ends next a) : next a ≠ some a := by
  induction ends with
  | last done =>
    rw [done]
    exact nofun
  | step onward ends ih =>
    intro loops
    obtain rfl := Option.some.inj (onward.symm.trans loops)
    exact ih loops

theorem Ends.redirect (moves : ∀ a b, next' a = some b → next a = some b ∨ next' b = none)
    (ends : Ends next a) : Ends next' a := by
  induction ends with
  | @last a done =>
    cases onward : next' a with
    | none => exact .last onward
    | some b =>
      rcases moves a b onward with before | last
      · rw [done] at before
        cases before
      · exact .step onward (.last last)
  | @step a b before ends ih =>
    cases onward : next' a with
    | none => exact .last onward
    | some c =>
      rcases moves a c onward with same | last
      · obtain rfl := Option.some.inj (before.symm.trans same)
        exact .step onward ih
      · exact .step onward (.last last)

theorem Ends.steps (ends : Ends next a) : ∃ n, (fun o : Option α => o.bind next)^[n] (some a) = none := by
  induction ends with
  | last done => exact ⟨1, done⟩
  | step onward ends ih =>
    obtain ⟨n, out⟩ := ih
    refine ⟨n + 1, ?_⟩
    rw [Function.iterate_succ_apply, Option.bind_some, onward]
    exact out

end Succession
