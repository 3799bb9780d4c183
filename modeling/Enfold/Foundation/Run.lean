import Enfold.Foundation.Batch

/-! Whole runs of operations that may raise. A raised operation leaves the state as it was, so
an invariant of every successful operation holds in every state a run reaches. -/
namespace Run

variable {σ ο ε : Type} (perform : σ → ο → Except ε σ)

/-- One operation: its new state, or the old one when it raises. -/
def attempt (s : σ) (o : ο) : σ :=
  match perform s o with
  | .ok t => t
  | .error _ => s

def run (s : σ) (ops : List ο) : σ := ops.foldl (attempt perform) s

/-- Every operation of the run meets `C` in the state it starts from. -/
def Meets (C : σ → ο → Prop) : σ → List ο → Prop
  | _, [] => True
  | s, o :: rest => C s o ∧ Meets C (attempt perform s o) rest

variable {perform}

theorem runAppend {s : σ} {pre post : List ο} :
    run perform s (pre ++ post) = run perform (run perform s pre) post := List.foldl_append

theorem attemptInvariant {P : σ → Prop} {s : σ} {o : ο}
    (kept : ∀ t, perform s o = .ok t → P t) (init : P s) : P (attempt perform s o) := by
  unfold attempt
  split
  · rename_i t done
    exact kept t done
  · exact init

/-- The invariant rule under a condition on each operation's own starting state. -/
theorem invariantWhen {P : σ → Prop} {C : σ → ο → Prop}
    (kept : ∀ s o t, C s o → perform s o = .ok t → P s → P t) {s : σ} {ops : List ο}
    (meets : Meets perform C s ops) (init : P s) : P (run perform s ops) := by
  induction ops generalizing s with
  | nil => exact init
  | cons o rest ih =>
    obtain ⟨here, later⟩ := meets
    exact ih later (attemptInvariant (fun t done => kept s o t here done init) init)

theorem meetsAppend {s : σ} {pre post : List ο} {C : σ → ο → Prop}
    (meets : Meets perform C s (pre ++ post)) : Meets perform C s pre := by
  induction pre generalizing s with
  | nil => trivial
  | cons o rest ih => exact ⟨meets.1, ih meets.2⟩

theorem meetsTrivial {s : σ} {ops : List ο} {C : σ → ο → Prop} (all : ∀ s, ∀ o ∈ ops, C s o) :
    Meets perform C s ops := by
  induction ops generalizing s with
  | nil => trivial
  | cons o rest ih =>
    exact ⟨all s o List.mem_cons_self, ih fun s p hp => all s p (List.mem_cons_of_mem _ hp)⟩

theorem meetsKind {s : σ} {ops : List ο} {C : σ → ο → Prop} {K : ο → Prop} (kind : ∀ o ∈ ops, K o)
    (meets : Meets perform C s ops) : Meets perform (fun s o => K o ∧ C s o) s ops := by
  induction ops generalizing s with
  | nil => trivial
  | cons o rest ih =>
    exact ⟨⟨kind o List.mem_cons_self, meets.1⟩,
      ih (fun p hp => kind p (List.mem_cons_of_mem _ hp)) meets.2⟩

/-- The invariant rule. -/
theorem invariant {P : σ → Prop} (kept : ∀ s o t, perform s o = .ok t → P s → P t) {s : σ}
    {ops : List ο} (init : P s) : P (run perform s ops) :=
  invariantWhen (C := fun _ _ => True) (fun s o t _ => kept s o t)
    (meetsTrivial fun _ _ _ => trivial) init

/-- The invariant rule for runs of operations of one kind. -/
theorem invariantOf {P : σ → Prop} {K : ο → Prop}
    (kept : ∀ s o t, K o → perform s o = .ok t → P s → P t) {s : σ} {ops : List ο}
    (kind : ∀ o ∈ ops, K o) (init : P s) : P (run perform s ops) :=
  invariantWhen (C := fun _ o => K o) kept (meetsTrivial fun _ o ho => kind o ho) init

/-- Where a step that misses the condition breaks the invariant at once, the invariant holds
throughout a run just when every step meets the condition. -/
theorem throughout {P : σ → Prop} {C : σ → ο → Prop}
    (kept : ∀ s o t, C s o → perform s o = .ok t → P s → P t)
    (breaks : ∀ s o, P s → ¬C s o → ¬P (attempt perform s o)) {s : σ} {ops : List ο} (init : P s) :
    (∀ done, done <+: ops → P (run perform s done)) ↔ Meets perform C s ops := by
  constructor
  · intro always
    induction ops generalizing s with
    | nil => trivial
    | cons o rest ih =>
      have next : P (attempt perform s o) := always [o] (List.prefix_append [o] rest)
      refine ⟨?_, ih next fun done part => ?_⟩
      · by_contra missed
        exact breaks s o init missed next
      · exact always (o :: done) (List.prefix_cons_inj o |>.mpr part)
  · rintro meets done ⟨rest, rfl⟩
    exact invariantWhen kept (meetsAppend meets) init

/-! ## Two runs -/

variable (perform) in
/-- Every operation of the run meets `C` in the states two runs start it from, the second of which
skips the operations `p` refuses. -/
def MeetsBeside (p : ο → Bool) (C : σ → σ → ο → Prop) : σ → σ → List ο → Prop
  | _, _, [] => True
  | s, s', o :: rest => C s s' o ∧
      MeetsBeside p C (attempt perform s o) (if p o then attempt perform s' o else s') rest

/-- The rule for a relation between a run and the one without some of its operations; the relation
may speak of the operations still to come. -/
theorem besideWhen {p : ο → Bool} {C : σ → σ → ο → Prop} {R : List ο → σ → σ → Prop}
    (both : ∀ o rest s s', p o = true → C s s' o → R (o :: rest) s s' →
      R rest (attempt perform s o) (attempt perform s' o))
    (one : ∀ o rest s s', p o = false → C s s' o → R (o :: rest) s s' → R rest (attempt perform s o) s')
    {s s' : σ} {ops : List ο} (meets : MeetsBeside perform p C s s' ops) (init : R ops s s') :
    R [] (run perform s ops) (run perform s' (ops.filter p)) := by
  induction ops generalizing s s' with
  | nil => exact init
  | cons o rest ih =>
    obtain ⟨here, later⟩ := meets
    cases kept : p o with
    | true =>
      rw [kept, if_pos rfl] at later
      rw [List.filter_cons_of_pos kept]
      exact ih later (both o rest s s' kept here init)
    | false =>
      rw [kept, if_neg Bool.noConfusion] at later
      rw [List.filter_cons_of_neg (by simp [kept])]
      exact ih later (one o rest s s' kept here init)

/-- What a fold has gathered has a property just when each step adds only what has it. -/
theorem foldlGathered {α : Type} {step : σ → ο → σ} (seen : σ → List α) {adds : σ → ο → List α} {P : α → Prop}
    (grows : ∀ s o, seen (step s o) = seen s ++ adds s o) {s : σ} {ops : List ο} :
    (∀ a ∈ seen (ops.foldl step s), P a) ↔ (∀ a ∈ seen s, P a) ∧
      ∀ done o rest, ops = done ++ o :: rest → ∀ a ∈ adds (done.foldl step s) o, P a := by
  induction ops generalizing s with
  | nil => exact ⟨fun all => ⟨all, fun done _ _ shape => absurd shape.symm (by simp)⟩, fun all => all.1⟩
  | cons o rest ih =>
    rw [List.foldl_cons, ih, grows]
    constructor
    · rintro ⟨first, later⟩
      refine ⟨fun a ha => first a (List.mem_append_left _ ha), fun done o' rest' shape a ha => ?_⟩
      cases done with
      | nil =>
        cases shape
        exact first a (List.mem_append_right _ ha)
      | cons o'' done =>
        cases shape
        exact later done o' rest' rfl a ha
    · rintro ⟨before, steps⟩
      refine ⟨fun a ha => ?_, fun done o' rest' shape => steps (o :: done) o' rest' (congrArg (o :: ·) shape)⟩
      exact (List.mem_append.mp ha).elim (before a) (steps [] o rest rfl a)

end Run
