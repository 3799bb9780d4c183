import Mathlib.Data.List.Nodup
import Mathlib.Logic.Relation

/-! Requests that take one lane in turn, while the callers wait for them only so long. Whatever the interleaving,
the requests have run one after another, and the order of the runs is one that every caller can have seen. -/
namespace ExclusiveLane

variable {σ ρ ω : Type}

inductive Phase (ρ ω : Type) where
  | absent
  | waiting (request : ρ)
  | running (request : ρ)
  | ran (request : ρ) (answer : ω)

inductive Reply (ω : Type) where
  | pending
  | late
  | answered (answer : ω)

inductive Event (ρ ω : Type) where
  | submitted (job : Nat) (request : ρ)
  | ran (job : Nat) (request : ρ) (answer : ω)
  | late (job : Nat)
  | answered (job : Nat) (answer : ω)

/-- The store behind the lane, who is in it, the jobs, and what happened so far. -/
structure Lane (σ ρ ω : Type) where
  store : σ
  holder : Option Nat
  phase : Nat → Phase ρ ω
  reply : Nat → Reply ω
  history : List (Event ρ ω)

namespace Lane

def idle (start : σ) : Lane σ ρ ω := ⟨start, none, fun _ => .absent, fun _ => .pending, []⟩

def setPhase (s : Lane σ ρ ω) (k : Nat) (phase : Phase ρ ω) : Lane σ ρ ω :=
  { s with phase := fun j => if j = k then phase else s.phase j }

def setReply (s : Lane σ ρ ω) (k : Nat) (reply : Reply ω) : Lane σ ρ ω :=
  { s with reply := fun j => if j = k then reply else s.reply j }

def record (s : Lane σ ρ ω) (event : Event ρ ω) : Lane σ ρ ω := { s with history := s.history ++ [event] }

end Lane

abbrev Perform (σ ρ ω : Type) := ρ → σ → σ × ω

variable (perform : Perform σ ρ ω)

inductive Step : Lane σ ρ ω → Lane σ ρ ω → Prop
  | submits {s} (k : Nat) (r : ρ) (new : s.phase k = .absent) :
      Step s ((s.setPhase k (.waiting r)).record (.submitted k r))
  | begins {s k r} (here : s.phase k = .waiting r) (free : s.holder = none) :
      Step s ({ s with holder := some k }.setPhase k (.running r))
  | ends {s k r} (here : s.phase k = .running r) :
      Step s (({ s with holder := none, store := (perform r s.store).1 }.setPhase k
        (.ran r (perform r s.store).2)).record (.ran k r (perform r s.store).2))
  | expires {s k r} (here : s.phase k = .waiting r ∨ s.phase k = .running r) (silent : s.reply k = .pending) :
      Step s ((s.setReply k .late).record (.late k))
  | answers {s k r a} (here : s.phase k = .ran r a) (silent : s.reply k = .pending) :
      Step s ((s.setReply k (.answered a)).record (.answered k a))

def serial : σ → List ρ → σ × List ω
  | s, [] => (s, [])
  | s, r :: rest =>
    let (t, a) := perform r s
    let (u, answers) := serial t rest
    (u, a :: answers)

theorem serialSplit (s : σ) (pre post : List ρ) :
    serial perform s (pre ++ post) = ((serial perform (serial perform s pre).1 post).1,
      (serial perform s pre).2 ++ (serial perform (serial perform s pre).1 post).2) := by
  induction pre generalizing s with
  | nil => rfl
  | cons first rest ih => simp only [List.cons_append, serial, ih]

theorem serialLength (s : σ) (requests : List ρ) : (serial perform s requests).2.length = requests.length := by
  induction requests generalizing s with
  | nil => rfl
  | cons first rest ih => simp only [serial, List.length_cons, ih]

def runs (history : List (Event ρ ω)) : List (Nat × ρ × ω) :=
  history.filterMap fun event => match event with
    | .ran k r a => some (k, r, a)
    | _ => none

theorem runsAppend (history : List (Event ρ ω)) (event : Event ρ ω) :
    runs (history ++ [event]) = runs history ++ runs [event] := List.filterMap_append

theorem runsMem {history : List (Event ρ ω)} {k : Nat} {r : ρ} {a : ω} :
    (k, r, a) ∈ runs history ↔ Event.ran k r a ∈ history := by
  rw [runs, List.mem_filterMap]
  constructor
  · rintro ⟨event, inside, same⟩
    cases event with
    | ran k' r' a' =>
      cases same
      exact inside
    | submitted => cases same
    | late => cases same
    | answered => cases same
  · exact fun inside => ⟨_, inside, rfl⟩

def Before (history : List (Event ρ ω)) (first later : Event ρ ω) : Prop :=
  ∃ pre mid post, history = pre ++ first :: (mid ++ later :: post)

variable {perform}

section Order
variable {history : List (Event ρ ω)} {first later event : Event ρ ω}

theorem beforeMore (h : Before history first later) (event : Event ρ ω) :
    Before (history ++ [event]) first later := by
  obtain ⟨pre, mid, post, rfl⟩ := h
  exact ⟨pre, mid, post ++ [event], by simp⟩

theorem beforeLast (inside : first ∈ history) : Before (history ++ [event]) first event := by
  obtain ⟨pre, post, rfl⟩ := List.append_of_mem inside
  exact ⟨pre, post, [], by simp⟩

theorem beforeMem (h : Before history first later) : first ∈ history ∧ later ∈ history := by
  obtain ⟨pre, mid, post, rfl⟩ := h
  simp

theorem splitUnique {event : Event ρ ω} {a b c d : List (Event ρ ω)} (distinct : (a ++ event :: b).Nodup)
    (same : a ++ event :: b = c ++ event :: d) : a = c ∧ b = d := by
  rcases List.append_eq_append_iff.mp same with ⟨m, rfl, cut⟩ | ⟨m, rfl, cut⟩
  · cases m with
    | nil => simpa using cut
    | cons x m =>
      obtain ⟨rfl, rfl⟩ := List.cons.inj cut
      exact absurd distinct (by simp [List.nodup_append, List.nodup_cons])
  · cases m with
    | nil => simpa [eq_comm] using cut
    | cons x m =>
      obtain ⟨rfl, rfl⟩ := List.cons.inj cut
      exact absurd distinct (by simp [List.nodup_append, List.nodup_cons])

theorem beforeTrans (distinct : history.Nodup) {middle : Event ρ ω} (left : Before history first middle)
    (right : Before history middle later) : Before history first later := by
  obtain ⟨pre, mid, post, rfl⟩ := left
  obtain ⟨pre', mid', post', same⟩ := right
  have regroup : (pre ++ first :: mid) ++ middle :: post = pre' ++ middle :: (mid' ++ later :: post') := by
    simpa using same
  obtain ⟨rfl, rfl⟩ := splitUnique (by simpa using distinct) regroup
  exact ⟨pre, mid ++ middle :: mid', post', by simp⟩

end Order

/-- The jobs ran one after another, each once and while its caller could wait for it. -/
structure Linear (perform : Perform σ ρ ω) (start : σ) (s : Lane σ ρ ω) : Prop where
  distinct : s.history.Nodup
  replayed : serial perform start ((runs s.history).map fun run => run.2.1) =
    (s.store, (runs s.history).map fun run => run.2.2)
  once : ((runs s.history).map Prod.fst).Nodup
  single : ∀ k r q, Event.submitted k r ∈ s.history → Event.submitted k q ∈ s.history → r = q
  asked : ∀ k r a, Event.ran k r a ∈ s.history → Before s.history (.submitted k r) (.ran k r a)
  told : ∀ k a, Event.answered k a ∈ s.history → ∃ r, Before s.history (.ran k r a) (.answered k a)

section Linear
variable {start : σ} {s t : Lane σ ρ ω}

/-- The order of the runs is the one the callers have seen: who has his answer before another asks ran first. -/
theorem Linear.inTime (linear : Linear perform start s) {j k : Nat} {r : ρ} {a b : ω}
    (seen : Before s.history (.answered j a) (.submitted k r)) (ran : Event.ran k r b ∈ s.history) :
    ∃ q, Before s.history (.ran j q a) (.ran k r b) := by
  obtain ⟨q, first⟩ := linear.told j a (beforeMem seen).1
  have later := beforeTrans linear.distinct seen (linear.asked k r b ran)
  exact ⟨q, beforeTrans linear.distinct first later⟩

theorem Linear.more (linear : Linear perform start s) (same : t.store = s.store) {event : Event ρ ω}
    (longer : t.history = s.history ++ [event]) (fresh : event ∉ s.history) (quiet : runs [event] = [])
    (new : ∀ k r, event = .submitted k r → ∀ q, Event.submitted k q ∉ s.history)
    (told : ∀ k a, event = .answered k a → ∃ r, Event.ran k r a ∈ s.history) : Linear perform start t := by
  have runsSame : runs t.history = runs s.history := by
    rw [longer, runsAppend, quiet, List.append_nil]
  refine ⟨?_, ?_, ?_, ?_, ?_, ?_⟩
  · rw [longer]
    exact List.nodup_append.mpr ⟨linear.distinct, List.nodup_singleton _, fun x inside y last => by
      rw [List.mem_singleton.mp last]
      exact fun equal => fresh (equal ▸ inside)⟩
  · rw [runsSame, same]
    exact linear.replayed
  · rw [runsSame]
    exact linear.once
  · intro k r q asks asksToo
    rw [longer] at asks asksToo
    rcases List.mem_append.mp asks with old | last
    · rcases List.mem_append.mp asksToo with older | last
      · exact linear.single k r q old older
      · exact absurd old (new k q (List.mem_singleton.mp last).symm r)
    · rcases List.mem_append.mp asksToo with older | also
      · exact absurd older (new k r (List.mem_singleton.mp last).symm q)
      · have both := (List.mem_singleton.mp last).trans (List.mem_singleton.mp also).symm
        cases both
        rfl
  · intro k r a ran
    have older : (k, r, a) ∈ runs s.history := runsSame ▸ runsMem.mpr ran
    rw [longer]
    exact beforeMore (linear.asked k r a (runsMem.mp older)) event
  · intro k a answered
    rw [longer] at answered ⊢
    rcases List.mem_append.mp answered with old | new
    · obtain ⟨r, before⟩ := linear.told k a old
      exact ⟨r, beforeMore before event⟩
    · obtain rfl := List.mem_singleton.mp new
      obtain ⟨r, ran⟩ := told k a rfl
      exact ⟨r, beforeLast ran⟩

theorem Linear.ran (linear : Linear perform start s) {k : Nat} {r : ρ}
    (stored : t.store = (perform r s.store).1)
    (longer : t.history = s.history ++ [.ran k r (perform r s.store).2])
    (fresh : ∀ q a, Event.ran k q a ∉ s.history) (asked : Event.submitted k r ∈ s.history) :
    Linear perform start t := by
  have runsMore : runs t.history = runs s.history ++ [(k, r, (perform r s.store).2)] := by
    rw [longer, runsAppend]
    rfl
  refine ⟨?_, ?_, ?_, ?_, ?_, ?_⟩
  · rw [longer]
    exact List.nodup_append.mpr ⟨linear.distinct, List.nodup_singleton _, fun x inside y last => by
      rw [List.mem_singleton.mp last]
      exact fun equal => fresh _ _ (equal ▸ inside)⟩
  · rw [runsMore, List.map_append, List.map_append, List.map_singleton, List.map_singleton, serialSplit,
      linear.replayed, stored]
    rfl
  · rw [runsMore, List.map_append, List.map_singleton]
    refine List.nodup_append.mpr ⟨linear.once, List.nodup_singleton _, ?_⟩
    intro j inside j' last
    obtain ⟨run, mem, rfl⟩ := List.mem_map.mp inside
    rw [List.mem_singleton.mp last]
    intro equal
    obtain ⟨j, q, a⟩ := run
    cases equal
    exact fresh q a (runsMem.mp mem)
  · intro j q q' asks asksToo
    have older {request : ρ} (asks : Event.submitted j request ∈ t.history) : Event.submitted j request ∈ s.history := by
      rw [longer] at asks
      simpa using asks
    exact linear.single j q q' (older asks) (older asksToo)
  · intro j q a inside
    rw [longer] at inside ⊢
    rcases List.mem_append.mp inside with old | new
    · exact beforeMore (linear.asked j q a old) _
    · cases List.mem_singleton.mp new
      exact beforeLast asked
  · intro j a inside
    rw [longer] at inside ⊢
    rcases List.mem_append.mp inside with old | new
    · obtain ⟨q, before⟩ := linear.told j a old
      exact ⟨q, beforeMore before _⟩
    · cases List.mem_singleton.mp new

end Linear

/-! ## The books -/

def Told (history : List (Event ρ ω)) (k : Nat) : Phase ρ ω → Prop
  | .absent => (∀ r, Event.submitted k r ∉ history) ∧ ∀ r a, Event.ran k r a ∉ history
  | .waiting r => Event.submitted k r ∈ history ∧ ∀ r a, Event.ran k r a ∉ history
  | .running r => Event.submitted k r ∈ history ∧ ∀ r a, Event.ran k r a ∉ history
  | .ran r a => Event.submitted k r ∈ history ∧ Event.ran k r a ∈ history

/-- The history tells of every job what its phase and its reply say, and who runs has the lane. -/
structure Booked (s : Lane σ ρ ω) : Prop where
  phase : ∀ k, Told s.history k (s.phase k)
  silent : ∀ k, s.reply k = .pending → Event.late k ∉ s.history ∧ ∀ a, Event.answered k a ∉ s.history
  alone : ∀ k r, s.phase k = .running r → s.holder = some k

structure Sound (perform : Perform σ ρ ω) (start : σ) (s : Lane σ ρ ω) : Prop where
  linear : Linear perform start s
  booked : Booked s

section Sound
variable {start : σ} {s t : Lane σ ρ ω} {k : Nat}

theorem toldMore {history : List (Event ρ ω)} {phase : Phase ρ ω} {event : Event ρ ω}
    (told : Told history k phase) (asks : ∀ r, event ≠ .submitted k r) (runs : ∀ r a, event ≠ .ran k r a) :
    Told (history ++ [event]) k phase := by
  have asksNot {r : ρ} (none : Event.submitted k r ∉ history) : Event.submitted k r ∉ history ++ [event] := by
    simpa [none] using fun equal : Event.submitted k r = event => asks r equal.symm
  have runsNot {r : ρ} {a : ω} (none : Event.ran k r a ∉ history) : Event.ran k r a ∉ history ++ [event] := by
    simpa [none] using fun equal : Event.ran k r a = event => runs r a equal.symm
  cases phase with
  | absent => exact ⟨fun r => asksNot (told.1 r), fun r a => runsNot (told.2 r a)⟩
  | waiting r => exact ⟨List.mem_append_left _ told.1, fun r a => runsNot (told.2 r a)⟩
  | running r => exact ⟨List.mem_append_left _ told.1, fun r a => runsNot (told.2 r a)⟩
  | ran r a => exact ⟨List.mem_append_left _ told.1, List.mem_append_left _ told.2⟩

theorem Booked.moves (booked : Booked s) {phase : Phase ρ ω} {event : Event ρ ω}
    (phases : t.phase = fun j => if j = k then phase else s.phase j) (replies : t.reply = s.reply)
    (longer : t.history = s.history ++ [event]) (told : Told (s.history ++ [event]) k phase)
    (own : ∀ j, j ≠ k → (∀ r, event ≠ .submitted j r) ∧ ∀ r a, event ≠ .ran j r a)
    (quiet : ∀ j, event ≠ .late j ∧ ∀ a, event ≠ .answered j a)
    (alone : ∀ j r, t.phase j = .running r → t.holder = some j) : Booked t := by
  refine ⟨?_, ?_, alone⟩
  · intro j
    rw [longer, phases]
    dsimp only
    split
    · rename_i here
      exact here ▸ told
    · rename_i here
      exact toldMore (booked.phase j) (own j here).1 (own j here).2
  · intro j pending
    rw [replies] at pending
    rw [longer]
    obtain ⟨lateNot, answeredNot⟩ := booked.silent j pending
    refine ⟨?_, fun a => ?_⟩
    · simpa [lateNot] using fun equal : Event.late j = event => (quiet j).1 equal.symm
    · simpa [answeredNot a] using fun equal : Event.answered j a = event => (quiet j).2 a equal.symm

theorem Booked.hears (booked : Booked s) {reply : Reply ω} {event : Event ρ ω} (heard : reply ≠ .pending)
    (own : event = .late k ∨ ∃ a, event = .answered k a) :
    Booked ((s.setReply k reply).record event) := by
  have asks (j : Nat) (r : ρ) : event ≠ .submitted j r := by
    rcases own with rfl | ⟨a, rfl⟩ <;> simp
  have runsNot (j : Nat) (r : ρ) (a : ω) : event ≠ .ran j r a := by
    rcases own with rfl | ⟨a, rfl⟩ <;> simp
  refine ⟨fun j => toldMore (booked.phase j) (asks j) (runsNot j), ?_, booked.alone⟩
  intro j pending
  by_cases here : j = k
  · simp only [Lane.setReply, Lane.record, here, if_true] at pending
    exact absurd pending heard
  · simp only [Lane.setReply, Lane.record, here, if_false] at pending ⊢
    obtain ⟨lateNot, answeredNot⟩ := booked.silent j pending
    rcases own with rfl | ⟨b, rfl⟩
    · exact ⟨by simp [lateNot, here], fun a => by simp [answeredNot a]⟩
    · exact ⟨by simp [lateNot], fun a => by simp [answeredNot a, here]⟩

theorem Sound.step (sound : Sound perform start s) (h : Step perform s t) : Sound perform start t := by
  obtain ⟨linear, booked⟩ := sound
  cases h with
  | submits k r new =>
    have told := booked.phase k
    rw [new] at told
    refine ⟨linear.more rfl rfl (told.1 r) rfl (fun _ _ equal => by cases equal; exact told.1)
      fun _ _ equal => (by cases equal), booked.moves (k := k) rfl rfl rfl ?_ ?_ ?_ ?_⟩
    · refine ⟨List.mem_append_right _ List.mem_cons_self, fun q a => ?_⟩
      simpa using told.2 q a
    · intro j other
      refine ⟨fun q equal => ?_, fun q a equal => by cases equal⟩
      cases equal
      exact other rfl
    · exact fun j => ⟨fun equal => (by cases equal), fun a equal => by cases equal⟩
    · intro j q running
      by_cases here : j = k
      · simp [Lane.setPhase, Lane.record, here] at running
      · simp only [Lane.setPhase, Lane.record, here, if_false] at running
        exact booked.alone j q running
  | @begins k r here free =>
    refine ⟨⟨linear.distinct, linear.replayed, linear.once, linear.single, linear.asked, linear.told⟩, ?_, booked.silent, ?_⟩
    · intro j
      have told := booked.phase j
      by_cases same : j = k
      · subst same
        rw [here] at told
        simpa [Lane.setPhase, Told] using told
      · simpa [Lane.setPhase, same] using told
    · intro j q running
      by_cases same : j = k
      · rw [same]
        rfl
      · simp only [Lane.setPhase, same, if_false] at running
        have holds := booked.alone j q running
        rw [free] at holds
        cases holds
  | @ends k r here =>
    have told := booked.phase k
    rw [here] at told
    refine ⟨linear.ran rfl rfl told.2 told.1, booked.moves (k := k) rfl rfl rfl ?_ ?_ ?_ ?_⟩
    · exact ⟨List.mem_append_left _ told.1, List.mem_append_right _ List.mem_cons_self⟩
    · intro j other
      refine ⟨fun q equal => (by cases equal), fun q a equal => ?_⟩
      cases equal
      exact other rfl
    · exact fun j => ⟨fun equal => (by cases equal), fun a equal => by cases equal⟩
    · intro j q running
      by_cases same : j = k
      · simp [Lane.setPhase, Lane.record, same] at running
      · simp only [Lane.setPhase, Lane.record, same, if_false] at running
        have holds := booked.alone j q running
        rw [booked.alone k r here] at holds
        exact absurd (Option.some.inj holds).symm same
  | @expires k r here silent =>
    exact ⟨linear.more rfl rfl (booked.silent k silent).1 rfl (fun _ _ equal => by cases equal)
      fun _ _ equal => (by cases equal), booked.hears (fun equal => by cases equal) (.inl rfl)⟩
  | @answers k r a here silent =>
    have told := booked.phase k
    rw [here] at told
    refine ⟨linear.more rfl rfl ((booked.silent k silent).2 a) rfl (fun _ _ equal => by cases equal)
      fun j b equal => ?_, booked.hears (fun equal => by cases equal) (.inr ⟨a, rfl⟩)⟩
    cases equal
    exact ⟨r, told.2⟩

theorem idleSoundLane (start : σ) : Sound perform start (.idle start) where
  linear := ⟨List.nodup_nil, rfl, List.nodup_nil, fun _ _ _ none => absurd none List.not_mem_nil,
    fun _ _ _ none => absurd none List.not_mem_nil, fun _ _ none => absurd none List.not_mem_nil⟩
  booked := ⟨fun _ => ⟨fun _ => List.not_mem_nil, fun _ _ => List.not_mem_nil⟩,
    fun _ _ => ⟨List.not_mem_nil, fun _ => List.not_mem_nil⟩, fun _ _ running => by cases running⟩

/-- Every interleaving is linear. -/
theorem reachableLinear (h : Relation.ReflTransGen (Step perform) (.idle start) s) :
    Linear perform start s := by
  have sound : Sound perform start s := by
    induction h with
    | refl => exact idleSoundLane start
    | tail _ step sound => exact sound.step step
  exact sound.linear

/-- Every run has met the store that the runs before it leave. -/
theorem Linear.meets (linear : Linear perform start s) {r : ρ} {a : ω} {pre post : List (Nat × ρ × ω)}
    (shape : runs s.history = pre ++ (k, r, a) :: post) :
    (perform r (serial perform start (pre.map fun run => run.2.1)).1).2 = a := by
  have answers : (serial perform start ((runs s.history).map fun run => run.2.1)).2 =
      (runs s.history).map fun run => run.2.2 := by
    rw [linear.replayed]
  rw [shape, List.map_append, List.map_append, serialSplit, List.map_cons, List.map_cons] at answers
  have length : (serial perform start (pre.map fun run => run.2.1)).2.length =
      (pre.map fun run => run.2.2).length := by
    rw [serialLength, List.length_map, List.length_map]
  exact (List.cons.inj (List.append_inj_right answers length)).1

end Sound

end ExclusiveLane
