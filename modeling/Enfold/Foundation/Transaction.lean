import Enfold.Foundation.Batch

/-! One database connection: a durable state, and behind an open transaction the state being
written. A step that raises has already written something; only the rollback undoes it. -/
namespace Transaction

variable {σ α ω ε : Type}

structure Connection (σ : Type) where
  durable : σ
  pending : Option σ

/-- What a reader on the connection sees. -/
def Connection.view (c : Connection σ) : σ := c.pending.getD c.durable

def idle (s : σ) : Connection σ := ⟨s, none⟩

def Connection.begin (c : Connection σ) : Connection σ := { c with pending := some c.durable }
def Connection.rollback (c : Connection σ) : Connection σ := { c with pending := none }
def Connection.commit (c : Connection σ) : Connection σ := ⟨c.view, none⟩

/-- One step on an open transaction; `torn` is what it leaves behind when it raises. -/
def perform (step : σ → Except ε (σ × ω)) (torn : σ → σ) (c : Connection σ) :
    Connection σ × Except ε ω :=
  match step c.view with
  | .ok (t, answer) => ({ c with pending := some t }, .ok answer)
  | .error raised => ({ c with pending := some (torn c.view) }, .error raised)

section Items
variable (step : σ → α → Except ε (σ × ω)) (torn : α → σ → σ) (refused : ω → Bool)

def items : Connection σ → List α → Connection σ × Except ε (Bool × List ω)
  | c, [] => (c, .ok (true, []))
  | c, a :: rest =>
    match perform (step · a) (torn a) c with
    | (c, .error raised) => (c, .error raised)
    | (c, .ok answer) =>
      if refused answer then (c.rollback, .ok (false, [answer]))
      else match items c rest with
        | (c, .error raised) => (c, .error raised)
        | (c, .ok (kept, answers)) => (c, .ok (kept, answer :: answers))

variable (hook : σ → Except ε σ) (tornHook : σ → σ)

/-- The batch as one owned transaction: whatever raises is followed by a rollback. -/
def batch (c : Connection σ) (xs : List α) : Connection σ × Except ε (Bool × List ω) :=
  match items step torn refused c.begin xs with
  | (c, .error raised) => (c.rollback, .error raised)
  | (c, .ok (false, answers)) => (c, .ok (false, answers))
  | (c, .ok (true, answers)) =>
    match perform (fun s => (hook s).map (·, ())) tornHook c with
    | (c, .error raised) => (c.rollback, .error raised)
    | (c, .ok ()) => (c.commit, .ok (true, answers))

/-- On an open transaction the items do what `Batch.run` says, and the durable state waits. -/
theorem itemsRun (s u : σ) (xs : List α) :
    match Batch.run step refused u xs with
    | .error raised => ∃ left, items step torn refused ⟨s, some u⟩ xs = (⟨s, some left⟩, .error raised)
    | .ok (none, answers) => items step torn refused ⟨s, some u⟩ xs = (⟨s, none⟩, .ok (false, answers))
    | .ok (some t, answers) =>
      items step torn refused ⟨s, some u⟩ xs = (⟨s, some t⟩, .ok (true, answers)) := by
  induction xs generalizing u with
  | nil => rfl
  | cons a rest ih =>
    simp only [Batch.run, items, perform, Connection.view, Option.getD_some]
    cases step u a with
    | error raised => exact ⟨_, rfl⟩
    | ok done =>
      obtain ⟨v, answer⟩ := done
      simp only [Fallible.okBind]
      cases refused answer with
      | true => rfl
      | false =>
        have later := ih v
        simp only [Bool.false_eq_true, if_false]
        cases ran : Batch.run step refused v rest with
        | error raised =>
          rw [ran] at later
          obtain ⟨left, later⟩ := later
          exact ⟨left, by rw [later]⟩
        | ok done =>
          obtain ⟨kept, answers⟩ := done
          rw [ran] at later
          cases kept with
          | none => simp only [Fallible.okBind, later]
          | some t => simp only [Fallible.okBind, later]

variable {step torn refused hook tornHook}

/-- A batch leaves no transaction open and, unless it commits, the durable state as it was. -/
theorem batchRun {s : σ} {xs : List α} :
    batch step torn refused hook tornHook (idle s) xs =
      match Batch.run step refused s xs with
      | .error raised => (idle s, .error raised)
      | .ok (none, answers) => (idle s, .ok (false, answers))
      | .ok (some t, answers) => match hook t with
        | .error raised => (idle s, .error raised)
        | .ok u => (idle u, .ok (true, answers)) := by
  have body := itemsRun step torn refused s s xs
  simp only [batch, Connection.begin, idle]
  cases ran : Batch.run step refused s xs with
  | error raised =>
    rw [ran] at body
    obtain ⟨left, body⟩ := body
    rw [body]
    rfl
  | ok done =>
    obtain ⟨kept, answers⟩ := done
    rw [ran] at body
    cases kept with
    | none => rw [body]
    | some t =>
      simp only [body, perform, Connection.view, Option.getD_some]
      cases hook t with
      | error raised => rfl
      | ok u => rfl

end Items
end Transaction
