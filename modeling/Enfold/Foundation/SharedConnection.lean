import Enfold.Foundation.Transaction

/-! Programs over one connection to a database that other connections write too. A statement that
changes rows opens a transaction by itself; an exception leaves the connection as it stood. -/
namespace SharedConnection

open Transaction

variable {σ ε α β : Type}

structure Shared (σ : Type) where
  connection : Connection σ
  moment : Nat

def Shared.Idle (c : Shared σ) : Prop := c.connection.pending = none

def Program (σ ε α : Type) : Type := Shared σ → Shared σ × Except ε α

instance : Monad (Program σ ε) where
  pure a := fun c => (c, .ok a)
  bind x f := fun c => match x c with
    | (c, .ok a) => f a c
    | (c, .error e) => (c, .error e)

def raise (e : ε) : Program σ ε α := fun c => (c, .error e)

def lift (x : Except ε α) : Program σ ε α := fun c => (c, x)

def moment : Program σ ε Nat := fun c => (c, .ok c.moment)

/-- `try: x except Exception: handler`. -/
def attempt (x : Program σ ε α) (handler : ε → Program σ ε α) : Program σ ε α := fun c =>
  match x c with
  | (c, .ok a) => (c, .ok a)
  | (c, .error e) => handler e c

section Statements
variable (others : Nat → σ → σ)

/-- What the other connections have committed by now; behind an open transaction they wait. -/
def arrive (c : Shared σ) : Shared σ :=
  if c.connection.pending.isSome then c
  else ⟨⟨others c.moment c.connection.durable, none⟩, c.moment + 1⟩

def select (read : σ → Except ε α) : Program σ ε α := fun c =>
  let c := arrive others c
  (c, read c.connection.view)

/-- A statement that changes rows, in a transaction of its own making if none is open. -/
def modify (change : σ → σ × α) : Program σ ε α := fun c =>
  let c := arrive others c
  let (t, a) := change c.connection.view
  (⟨{ c.connection with pending := some t }, c.moment⟩, .ok a)

/-- Several statements of one transaction; `torn` is what they leave when one of them raises. -/
def change (torn : σ → σ) (step : σ → Except ε (σ × α)) : Program σ ε α := fun c =>
  let c := arrive others c
  let (connection, answer) := perform step torn c.connection
  (⟨connection, c.moment⟩, answer)

def exclusive (act : Connection σ → Connection σ × Except ε α) : Program σ ε α := fun c =>
  let c := arrive others c
  let (connection, answer) := act c.connection
  (⟨connection, c.moment⟩, answer)

/-- `BEGIN IMMEDIATE`, which an open transaction refuses. -/
def begin (refusal : ε) : Program σ ε Unit := fun c =>
  if c.connection.pending.isSome then (c, .error refusal)
  else
    let c := arrive others c
    (⟨c.connection.begin, c.moment⟩, .ok ())

/-- `if conn.in_transaction: raise`. -/
def requireIdle (refusal : ε) : Program σ ε Unit := fun c =>
  if c.connection.pending.isSome then (c, .error refusal) else (c, .ok ())

def commit : Program σ ε Unit := fun c => (⟨c.connection.commit, c.moment⟩, .ok ())

/-- `except BaseException: if conn.in_transaction: conn.rollback(); raise`. -/
def owning (x : Program σ ε α) : Program σ ε α := fun c =>
  match x c with
  | (c, .ok a) => (c, .ok a)
  | (c, .error e) => (⟨c.connection.rollback, c.moment⟩, .error e)

end Statements

/-! ## Programs that leave an idle connection idle -/

def Quiet (x : Program σ ε α) : Prop := ∀ c, c.Idle → (x c).1.Idle

section Rules
variable {others : Nat → σ → σ} {x : Program σ ε α} {f : α → Program σ ε β}

theorem bindRun {c : Shared σ} : (x >>= f) c = match x c with
    | (c, .ok a) => f a c
    | (c, .error e) => (c, .error e) := rfl

theorem bindPassed {c d : Shared σ} {a : α} (passed : x c = (d, .ok a)) : (x >>= f) c = f a d := by
  rw [bindRun, passed]

theorem bindFailed {c d : Shared σ} {e : ε} (failed : x c = (d, .error e)) :
    (x >>= f) c = (d, .error e) := by
  rw [bindRun, failed]

theorem quietPure (a : α) : Quiet (pure a : Program σ ε α) := fun _ idle => idle

theorem quietRaise (e : ε) : Quiet (raise e : Program σ ε α) := fun _ idle => idle

theorem quietLift (y : Except ε α) : Quiet (lift y : Program σ ε α) := fun _ idle => idle

theorem quietMoment : Quiet (moment : Program σ ε Nat) := fun _ idle => idle

theorem quietBind (first : Quiet x) (later : ∀ a, Quiet (f a)) : Quiet (x >>= f) := by
  intro c idle
  have middle := first c idle
  rw [bindRun]
  generalize x c = found at middle
  obtain ⟨d, answer⟩ := found
  cases answer with
  | ok a => exact later a d middle
  | error e => exact middle

theorem arriveIdle {c : Shared σ} (idle : c.Idle) : (arrive others c).Idle := by
  have closed : c.connection.pending.isSome = false := by rw [show c.connection.pending = none from idle]; rfl
  rw [arrive, closed]
  rfl

theorem quietSelect (read : σ → Except ε α) : Quiet (select others read) := fun _ idle => arriveIdle idle

theorem quietCommitted (step : σ → σ × α) (later : ∀ a, Quiet (f a)) :
    Quiet (modify others step >>= fun a => commit >>= fun _ => f a) :=
  fun _ _ => later _ _ rfl

theorem quietRequire (refusal : ε) : Quiet (requireIdle refusal : Program σ ε Unit) := by
  intro c idle
  unfold requireIdle
  split
  · exact idle
  · exact idle

theorem quietExclusive {act : Connection σ → Connection σ × Except ε α}
    (kept : ∀ s, (act (idle s)).1.pending = none) : Quiet (exclusive others act) := by
  intro c closed
  have alone : (arrive others c).connection = idle (arrive others c).connection.durable :=
    congrArg (Connection.mk _) (arriveIdle closed)
  show (act (arrive others c).connection).1.pending = none
  rw [alone]
  exact kept _

def Closes (x : Program σ ε α) : Prop := ∀ c a d, x c = (d, .ok a) → d.Idle

theorem closesBind (later : ∀ a, Closes (f a)) : Closes (x >>= f) := by
  intro c b d ran
  rw [bindRun] at ran
  generalize x c = found at ran
  obtain ⟨middle, answer⟩ := found
  cases answer with
  | ok a => exact later a middle b d ran
  | error e => cases ran

theorem closesCommitted {g : α} : Closes (commit >>= fun _ => (pure g : Program σ ε α)) := by
  intro c a d ran
  cases ran
  rfl

theorem closesCommit : Closes (commit : Program σ ε Unit) := by
  intro c a d ran
  cases ran
  rfl

theorem owningIdle (closes : Closes x) (c : Shared σ) : (owning x c).1.Idle := by
  unfold owning
  cases ran : x c with
  | mk d answer =>
    cases answer with
    | ok a => exact closes c a d ran
    | error e => rfl

theorem quietOwning (closes : Closes x) : Quiet (owning x) := fun c _ => owningIdle closes c

end Rules
end SharedConnection
