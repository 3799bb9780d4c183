import Mathlib.Data.List.Basic

/-! Computations that may raise. A raised error carries no state, so whatever it
interrupts is discarded whole, as a rolled-back transaction is. -/
namespace Fallible

variable {ε α β γ : Type}

/-- `if not condition: raise error`. -/
def ensure (condition : Bool) (error : ε) : Except ε Unit :=
  if condition then .ok () else .error error

@[simp] theorem ensureOk {condition : Bool} {error : ε} {u : Unit} :
    ensure condition error = .ok u ↔ condition = true := by
  cases condition <;> simp [ensure]

theorem ensureError {condition : Bool} {error raised : ε}
    (h : ensure condition error = .error raised) : raised = error := by
  cases condition with
  | true => cases h
  | false =>
    cases h
    rfl

theorem bindOk {x : Except ε α} {f : α → Except ε β} {b : β} :
    (x >>= f) = .ok b ↔ ∃ a, x = .ok a ∧ f a = .ok b := by
  cases x with
  | error e => simp [bind, Except.bind]
  | ok a => simp [bind, Except.bind]

theorem bindError {x : Except ε α} {f : α → Except ε β} {e : ε} :
    (x >>= f) = .error e ↔ x = .error e ∨ ∃ a, x = .ok a ∧ f a = .error e := by
  cases x with
  | error e => simp [bind, Except.bind]
  | ok a => simp [bind, Except.bind]

theorem branchOk {condition : Bool} {x y : Except ε α} {a : α}
    (h : (if condition then x else y) = .ok a) :
    (condition = true ∧ x = .ok a) ∨ (condition = false ∧ y = .ok a) := by
  cases condition with
  | true => exact .inl ⟨rfl, h⟩
  | false => exact .inr ⟨rfl, h⟩

theorem okOfOption {x : Except ε α} {a : α} (h : x.toOption = some a) : x = .ok a := by
  cases x with
  | error e => cases h
  | ok b => exact congrArg Except.ok (Option.some.inj h)

def failure : Except ε α → Option ε
  | .error e => some e
  | .ok _ => none

theorem errorOfFailure {x : Except ε α} {e : ε} (h : failure x = some e) : x = .error e := by
  cases x with
  | error e' => exact congrArg Except.error (Option.some.inj h)
  | ok a => cases h

theorem errorBind {e : ε} {f : α → Except ε β} :
    ((Except.error e : Except ε α) >>= f) = .error e := rfl

theorem okBind {a : α} {f : α → Except ε β} : ((Except.ok a : Except ε α) >>= f) = f a := rfl

def keep (p : α → Except ε Bool) : List α → Except ε (List α)
  | [] => .ok []
  | a :: rest => do
    let wanted ← p a
    let tail ← keep p rest
    .ok (if wanted then a :: tail else tail)

def accepts (p : α → Except ε Bool) (a : α) : Bool :=
  match p a with
  | .ok wanted => wanted
  | .error _ => false

theorem keepSource {p : α → Except ε Bool} {rows kept : List α} (h : keep p rows = .ok kept) :
    kept = rows.filter (accepts p) ∧ ∀ a ∈ rows, ∃ wanted, p a = .ok wanted := by
  induction rows generalizing kept with
  | nil => cases h; simp
  | cons a rest ih =>
    simp only [keep, bindOk] at h
    obtain ⟨wanted, hw, tail, ht, last⟩ := h
    cases last
    obtain ⟨rfl, total⟩ := ih ht
    refine ⟨?_, ?_⟩
    · cases wanted <;> simp [accepts, hw]
    · intro b hb
      rcases List.mem_cons.mp hb with rfl | hb
      · exact ⟨wanted, hw⟩
      · exact total b hb

theorem keepTotal {p : α → Except ε Bool} {rows : List α}
    (total : ∀ a ∈ rows, ∃ wanted, p a = .ok wanted) :
    keep p rows = .ok (rows.filter (accepts p)) := by
  induction rows with
  | nil => rfl
  | cons a rest ih =>
    obtain ⟨wanted, hw⟩ := total a List.mem_cons_self
    have tail := ih fun b hb => total b (List.mem_cons_of_mem _ hb)
    cases wanted <;> simp [keep, hw, tail, okBind, accepts]

theorem mapMCons {f : α → Except ε β} {a : α} {rest : List α} {built : List β} :
    (a :: rest).mapM f = .ok built ↔ ∃ b tail, f a = .ok b ∧ rest.mapM f = .ok tail ∧ built = b :: tail := by
  simp only [List.mapM_cons, bindOk]
  constructor
  · rintro ⟨b, here, tail, later, last⟩
    cases last
    exact ⟨b, tail, here, later, rfl⟩
  · rintro ⟨b, tail, here, later, rfl⟩
    exact ⟨b, here, tail, later, rfl⟩

theorem mapMAppend {f : α → Except ε β} {pre post : List α} {built : List β} :
    (pre ++ post).mapM f = .ok built ↔
      ∃ first later, pre.mapM f = .ok first ∧ post.mapM f = .ok later ∧ built = first ++ later := by
  induction pre generalizing built with
  | nil =>
    constructor
    · intro h
      exact ⟨[], built, rfl, h, rfl⟩
    · rintro ⟨first, later, head, h, rfl⟩
      cases head
      exact h
  | cons a pre ih =>
    simp only [List.cons_append, mapMCons, ih]
    constructor
    · rintro ⟨b, tail, here, ⟨first, later, head, rest, rfl⟩, rfl⟩
      exact ⟨b :: first, later, ⟨b, first, here, head, rfl⟩, rest, rfl⟩
    · rintro ⟨first, later, ⟨b, tail, here, head, rfl⟩, rest, rfl⟩
      exact ⟨b, tail ++ later, here, ⟨tail, later, head, rest, rfl⟩, rfl⟩

theorem mapMLength {f : α → Except ε β} {rows : List α} {built : List β}
    (h : rows.mapM f = .ok built) : built.length = rows.length := by
  induction rows generalizing built with
  | nil => cases h; rfl
  | cons a rest ih =>
    obtain ⟨b, tail, -, later, rfl⟩ := mapMCons.mp h
    simp [ih later]

theorem mapMSource {f : α → Except ε β} {rows : List α} {built : List β}
    (h : rows.mapM f = .ok built) : ∀ b ∈ built, ∃ a ∈ rows, f a = .ok b := by
  induction rows generalizing built with
  | nil =>
    cases h
    exact fun b inside => absurd inside List.not_mem_nil
  | cons a rest ih =>
    obtain ⟨first, tail, here, later, rfl⟩ := mapMCons.mp h
    intro b inside
    rcases List.mem_cons.mp inside with rfl | inside
    · exact ⟨a, List.mem_cons_self, here⟩
    · obtain ⟨c, there, found⟩ := ih later b inside
      exact ⟨c, List.mem_cons_of_mem _ there, found⟩

theorem mapMEach {f : α → Except ε β} {rows : List α} {built : List β}
    (h : rows.mapM f = .ok built) : ∀ a ∈ rows, ∃ b ∈ built, f a = .ok b := by
  induction rows generalizing built with
  | nil => exact fun a inside => absurd inside List.not_mem_nil
  | cons a rest ih =>
    obtain ⟨first, tail, here, later, rfl⟩ := mapMCons.mp h
    intro c inside
    rcases List.mem_cons.mp inside with rfl | inside
    · exact ⟨first, List.mem_cons_self, here⟩
    · obtain ⟨b, there, found⟩ := ih later c inside
      exact ⟨b, List.mem_cons_of_mem _ there, found⟩

theorem mapMOk {f : α → Except ε β} {rows : List α} :
    (∃ results, rows.mapM f = .ok results) ↔ ∀ a ∈ rows, ∃ b, f a = .ok b := by
  induction rows with
  | nil => exact iff_of_true ⟨[], rfl⟩ nofun
  | cons a rest ih =>
    rw [List.forall_mem_cons, ← ih]
    constructor
    · rintro ⟨results, mapped⟩
      obtain ⟨b, tail, here, later, -⟩ := mapMCons.mp mapped
      exact ⟨⟨b, here⟩, tail, later⟩
    · rintro ⟨⟨b, here⟩, tail, later⟩
      exact ⟨b :: tail, mapMCons.mpr ⟨b, tail, here, later, rfl⟩⟩

theorem mapMPairwise {f : α → Except ε β} {r : α → α → Prop} {q : β → β → Prop} {rows : List α} {built : List β}
    (each : ∀ a b x y, f a = .ok x → f b = .ok y → r a b → q x y) (done : rows.mapM f = .ok built)
    (apart : rows.Pairwise r) : built.Pairwise q := by
  induction rows generalizing built with
  | nil =>
    cases done
    exact .nil
  | cons a rest ih =>
    obtain ⟨first, tail, here, later, rfl⟩ := mapMCons.mp done
    obtain ⟨head, apart⟩ := List.pairwise_cons.mp apart
    refine List.pairwise_cons.mpr ⟨fun y hy => ?_, ih later apart⟩
    obtain ⟨b, there, found⟩ := mapMSource later y hy
    exact each a b first y here found (head b there)

theorem mapMTotal {f : α → Except ε β} {g : α → β} {rows : List α} (each : ∀ a ∈ rows, f a = .ok (g a)) :
    rows.mapM f = .ok (rows.map g) := by
  induction rows with
  | nil => rfl
  | cons a rest ih =>
    have tail := ih fun b inside => each b (List.mem_cons_of_mem _ inside)
    exact mapMCons.mpr ⟨g a, rest.map g, each a List.mem_cons_self, tail, rfl⟩

theorem mapMView {γ : Type} {f : α → Except ε β} {g : β → γ} {h : α → γ} {rows : List α} {built : List β}
    (each : ∀ a b, f a = .ok b → g b = h a) (done : rows.mapM f = .ok built) : built.map g = rows.map h := by
  induction rows generalizing built with
  | nil =>
    cases done
    rfl
  | cons a rest ih =>
    obtain ⟨b, tail, here, later, rfl⟩ := mapMCons.mp done
    rw [List.map_cons, List.map_cons, each a b here, ih later]

theorem mapMError {f : α → Except ε β} {rows : List α} {e : ε} (h : rows.mapM f = .error e) :
    ∃ a ∈ rows, f a = .error e := by
  induction rows with
  | nil => cases h
  | cons a rest ih =>
    rw [List.mapM_cons, bindError] at h
    rcases h with here | ⟨b, -, h⟩
    · exact ⟨a, List.mem_cons_self, here⟩
    · rcases bindError.mp h with later | ⟨tail, -, last⟩
      · obtain ⟨c, there, raised⟩ := ih later
        exact ⟨c, List.mem_cons_of_mem _ there, raised⟩
      · cases last

theorem mapMGuarded {f : α → Except ε β} {g : α → β} {e : ε} {good : α → Prop} [DecidablePred good]
    {rows : List α} (each : ∀ a ∈ rows, f a = if good a then .ok (g a) else .error e) :
    rows.mapM f = if ∀ a ∈ rows, good a then .ok (rows.map g) else .error e := by
  induction rows with
  | nil => simp [pure, Except.pure]
  | cons a rest ih =>
    rw [List.mapM_cons, each a List.mem_cons_self, ih fun b inside => each b (List.mem_cons_of_mem _ inside)]
    by_cases here : good a
    · by_cases later : ∀ b ∈ rest, good b
      · rw [if_pos here, if_pos later, if_pos (List.forall_mem_cons.mpr ⟨here, later⟩)]
        rfl
      · rw [if_pos here, if_neg later, if_neg fun all => later (List.forall_mem_cons.mp all).2]
        rfl
    · rw [if_neg here, if_neg fun all => here (List.forall_mem_cons.mp all).1]
      rfl

theorem mapErrorOk {x : Except ε α} {f : ε → δ} {a : α} : x.mapError f = .ok a ↔ x = .ok a := by
  cases x with
  | error e => exact ⟨nofun, nofun⟩
  | ok b => exact ⟨fun h => by cases h; rfl, fun h => by cases h; rfl⟩

/-! ## The errors of a computation -/

def Raises (P : ε → Prop) (x : Except ε α) : Prop := ∀ e, x = .error e → P e

section Errors
variable {P : ε → Prop}

theorem raisesOk (a : α) : Raises P (.ok a : Except ε α) := nofun

theorem raisesError {e : ε} (h : P e) : Raises P (.error e : Except ε α) := by
  intro raised same
  cases same
  exact h

theorem raisesBind {x : Except ε α} {f : α → Except ε β} (first : Raises P x)
    (later : ∀ a, x = .ok a → Raises P (f a)) : Raises P (x >>= f) := by
  intro e failed
  rcases bindError.mp failed with here | ⟨a, passed, there⟩
  · exact first e here
  · exact later a passed e there

theorem raisesEnsure {condition : Bool} {error : ε} (h : P error) : Raises P (ensure condition error) :=
  fun _ failed => ensureError failed ▸ h

theorem raisesMapM {f : α → Except ε β} {items : List α} (each : ∀ a ∈ items, Raises P (f a)) :
    Raises P (items.mapM f) := by
  induction items with
  | nil => exact raisesOk _
  | cons a items ih =>
    rw [List.mapM_cons]
    refine raisesBind (each a List.mem_cons_self) fun b _ => raisesBind ?_ fun bs _ => raisesOk _
    exact ih fun c hc => each c (List.mem_cons_of_mem a hc)

end Errors

end Fallible
