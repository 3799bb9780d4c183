import Enfold.Foundation.FileLock
import Mathlib.Logic.Relation

/-! The sidecar locks of a database. Legacy writers share one lock a process, and the threads of a process wait for
each other; the server of a database and its maintenance take theirs without waiting in the kernel. -/
namespace Enfold

open FileLock

/-- `.enfold.lock` and `.mcp-write.lock`. -/
inductive Sidecar where
  | server
  | writer
  deriving DecidableEq, Repr

/-- An entry of `_held_by_path`. -/
structure HeldEntry where
  count : Nat
  handle : Handle
  owner : Nat
  deriving DecidableEq, Repr

/-- What the loop of `cross_process_write_lock` finds. -/
inductive Entering where
  | first (entry : HeldEntry)
  | nested (entry : HeldEntry)
  | waits
  deriving DecidableEq, Repr

/-- One round of the loop; `opened` is the file it would open. -/
def enterLock (entry : Option HeldEntry) (owner : Nat) (opened : Handle) : Entering :=
  match entry with
  | none => .first ⟨1, opened, owner⟩
  | some entry => if entry.owner = owner then .nested { entry with count := entry.count + 1 } else .waits

/-- The entry behind one `finally`; none is left at the last one. -/
def leaveLock (entry : HeldEntry) : Option HeldEntry :=
  if entry.count - 1 = 0 then none else some { entry with count := entry.count - 1 }

/-- Where a thread is in `cross_process_write_lock`. -/
inductive WriterPhase where
  | outside
  /-- In `_held_condition.wait()`. -/
  | asleep
  /-- In `flock(LOCK_EX)`. -/
  | locking (handle : Handle)
  /-- `flock` raised and the file is closed. -/
  | failed (handle : Handle)
  | inside (handle : Handle) (depth : Nat)
  /-- The entry is gone, the lock is not. -/
  | unlocking (handle : Handle)
  /-- Before `notify_all`. -/
  | notifying
  deriving DecidableEq, Repr

/-- Where a server is with `DatabaseOwnership`. -/
inductive ServerPhase where
  | idle
  | opened (handle : Handle)
  | owning (handle : Handle)
  deriving DecidableEq, Repr

/-- Where an operation is in `maintenance_database_lock`. -/
inductive MaintenancePhase where
  | idle
  | opened (server : Handle)
  | first (server : Handle)
  | second (server writer : Handle)
  | both (server writer : Handle)
  | leaving (server : Handle)
  deriving DecidableEq, Repr

def WriterPhase.claims : WriterPhase → List (Claim Sidecar)
  | locking h => [⟨h, none⟩]
  | inside h _ => [⟨h, some .writer⟩]
  | unlocking h => [⟨h, some .writer⟩]
  | _ => []

def ServerPhase.claims : ServerPhase → List (Claim Sidecar)
  | idle => []
  | opened h => [⟨h, none⟩]
  | owning h => [⟨h, some .server⟩]

def MaintenancePhase.claims : MaintenancePhase → List (Claim Sidecar)
  | idle => []
  | opened h => [⟨h, none⟩]
  | first h => [⟨h, some .server⟩]
  | second h g => [⟨g, none⟩, ⟨h, some .server⟩]
  | both h g => [⟨g, some .writer⟩, ⟨h, some .server⟩]
  | leaving h => [⟨h, some .server⟩]

def WriterPhase.registered : WriterPhase → Option (Nat × Handle)
  | locking h => some (1, h)
  | failed h => some (1, h)
  | inside h n => some (n, h)
  | _ => none

/-- The phases behind which a `notify_all` is still to come. -/
def WriterPhase.active : WriterPhase → Bool
  | outside => false
  | asleep => false
  | _ => true

def WriterPhase.woken : WriterPhase → WriterPhase
  | asleep => outside
  | phase => phase

inductive Agent where
  | writer (p : Process) (thread : Nat)
  | server (p : Process) (index : Nat)
  | maintenance (p : Process) (index : Nat)
  deriving DecidableEq, Repr

def Agent.process : Agent → Process
  | writer p _ => p
  | server p _ => p
  | maintenance p _ => p

/-- The kernel, the tables of the processes, and where every agent is. -/
structure Locks where
  kernel : Kernel Sidecar
  tables : Process → Option HeldEntry
  writers : Process → Nat → WriterPhase
  servers : Process → Nat → ServerPhase
  maintenance : Process → Nat → MaintenancePhase

namespace Locks

def idle : Locks := ⟨.idle, fun _ => none, fun _ _ => .outside, fun _ _ => .idle, fun _ _ => .idle⟩

def claims (s : Locks) : Agent → List (Claim Sidecar)
  | .writer p t => (s.writers p t).claims
  | .server p i => (s.servers p i).claims
  | .maintenance p i => (s.maintenance p i).claims

def setTable (s : Locks) (p : Process) (entry : Option HeldEntry) : Locks :=
  { s with tables := fun q => if q = p then entry else s.tables q }

def setWriter (s : Locks) (p : Process) (t : Nat) (phase : WriterPhase) : Locks :=
  { s with writers := fun q u => if q = p ∧ u = t then phase else s.writers q u }

def setServer (s : Locks) (p : Process) (i : Nat) (phase : ServerPhase) : Locks :=
  { s with servers := fun q j => if q = p ∧ j = i then phase else s.servers q j }

def setMaintenance (s : Locks) (p : Process) (i : Nat) (phase : MaintenancePhase) : Locks :=
  { s with maintenance := fun q j => if q = p ∧ j = i then phase else s.maintenance q j }

/-- `notify_all` on the condition of the process. -/
def notify (s : Locks) (p : Process) : Locks :=
  { s with writers := fun q u => if q = p then (s.writers q u).woken else s.writers q u }

def exit (s : Locks) (p : Process) : Locks where
  kernel := s.kernel.exited p
  tables := fun q => if q = p then none else s.tables q
  writers := fun q u => if q = p then .outside else s.writers q u
  servers := fun q i => if q = p then .idle else s.servers q i
  maintenance := fun q i => if q = p then .idle else s.maintenance q i

/-- The child has closed the file its parent's table names. -/
def keptHandle (s : Locks) (p : Process) (h : Handle) : Bool :=
  (s.tables p).all fun entry => decide (entry.handle ≠ h)

/-- One step of one agent, or the end or the fork of a process. A forked child is in no body of its parent: it
executes another program, say. -/
inductive Step : Locks → Locks → Prop
  | enters {s p t entry} (out : s.writers p t = .outside)
      (found : enterLock (s.tables p) t s.kernel.next = .first entry) :
      Step s ({ s with kernel := s.kernel.opened p }.setTable p (some entry)
        |>.setWriter p t (.locking entry.handle))
  | nests {s p t h n entry} (here : s.writers p t = .inside h n)
      (found : enterLock (s.tables p) t s.kernel.next = .nested entry) :
      Step s (s.setTable p (some entry) |>.setWriter p t (.inside h (n + 1)))
  | sleeps {s p t} (out : s.writers p t = .outside) (found : enterLock (s.tables p) t s.kernel.next = .waits) :
      Step s (s.setWriter p t .asleep)
  | locks {s p t h} (here : s.writers p t = .locking h) (free : s.kernel.holder .writer = none) :
      Step s ({ s with kernel := s.kernel.locked .writer h }.setWriter p t (.inside h 1))
  | fails {s p t h} (here : s.writers p t = .locking h) :
      Step s ({ s with kernel := s.kernel.closed p h }.setWriter p t (.failed h))
  | raises {s p t h} (here : s.writers p t = .failed h) :
      Step s ((s.setTable p none |>.setWriter p t .outside).notify p)
  | leaves {s p t h n entry rest} (here : s.writers p t = .inside h n) (found : s.tables p = some entry)
      (left : leaveLock entry = some rest) :
      Step s (s.setTable p (some rest) |>.setWriter p t (.inside h (n - 1)))
  | pops {s p t h n entry} (here : s.writers p t = .inside h n) (found : s.tables p = some entry)
      (left : leaveLock entry = none) :
      Step s (s.setTable p none |>.setWriter p t (.unlocking h))
  | unlocks {s p t h} (here : s.writers p t = .unlocking h) :
      Step s ({ s with kernel := s.kernel.released p h }.setWriter p t .notifying)
  | notifies {s p t} (here : s.writers p t = .notifying) : Step s ((s.setWriter p t .outside).notify p)
  | serverOpens {s p i} (here : s.servers p i = .idle) :
      Step s ({ s with kernel := s.kernel.opened p }.setServer p i (.opened s.kernel.next))
  | serverOwns {s p i h} (here : s.servers p i = .opened h) (free : s.kernel.holder .server = none) :
      Step s ({ s with kernel := s.kernel.locked .server h }.setServer p i (.owning h))
  | serverRefused {s p i h} (here : s.servers p i = .opened h) :
      Step s ({ s with kernel := s.kernel.closed p h }.setServer p i .idle)
  | serverReleases {s p i h} (here : s.servers p i = .owning h) :
      Step s ({ s with kernel := s.kernel.released p h }.setServer p i .idle)
  | maintenanceOpens {s p i} (here : s.maintenance p i = .idle) :
      Step s ({ s with kernel := s.kernel.opened p }.setMaintenance p i (.opened s.kernel.next))
  | maintenanceLocks {s p i h} (here : s.maintenance p i = .opened h) (free : s.kernel.holder .server = none) :
      Step s ({ s with kernel := s.kernel.locked .server h }.setMaintenance p i (.first h))
  | maintenanceRefused {s p i h} (here : s.maintenance p i = .opened h) :
      Step s ({ s with kernel := s.kernel.closed p h }.setMaintenance p i .idle)
  | writerOpens {s p i h} (here : s.maintenance p i = .first h) :
      Step s ({ s with kernel := s.kernel.opened p }.setMaintenance p i (.second h s.kernel.next))
  | writerLocks {s p i h g} (here : s.maintenance p i = .second h g) (free : s.kernel.holder .writer = none) :
      Step s ({ s with kernel := s.kernel.locked .writer g }.setMaintenance p i (.both h g))
  | writerRefused {s p i h g} (here : s.maintenance p i = .second h g) :
      Step s ({ s with kernel := s.kernel.closed p g }.setMaintenance p i (.leaving h))
  | writerReleases {s p i h g} (here : s.maintenance p i = .both h g) :
      Step s ({ s with kernel := s.kernel.released p g }.setMaintenance p i (.leaving h))
  | maintenanceReleases {s p i h} (here : s.maintenance p i = .leaving h) :
      Step s ({ s with kernel := s.kernel.released p h }.setMaintenance p i .idle)
  | forks {s} (p q : Process) : Step s { s with kernel := s.kernel.forked p q (s.keptHandle p) }
  | exits {s} (p : Process) : Step s (s.exit p)

/-- What the child of a fork goes on with: servers and maintenance of its parent, which look for no process id
when they let go. -/
def resumed (s : Locks) (p q : Process) (servers maintenance : Nat → Bool) : Locks :=
  { s with
    kernel := s.kernel.forked p q (s.keptHandle p)
    servers := fun r i => if r = q ∧ servers i then s.servers p i else s.servers r i
    maintenance := fun r i => if r = q ∧ maintenance i then s.maintenance p i else s.maintenance r i }

/-- A step, or a fork whose child goes on where its parent is. -/
inductive ForkingStep : Locks → Locks → Prop
  | step {s t} (h : Step s t) : ForkingStep s t
  | resumes {s} (p q : Process) (servers maintenance : Nat → Bool) :
      ForkingStep s (s.resumed p q servers maintenance)

def Reachable : Locks → Prop := Relation.ReflTransGen Step idle

def ForkReachable : Locks → Prop := Relation.ReflTransGen ForkingStep idle

theorem Reachable.forking {s : Locks} (h : s.Reachable) : s.ForkReachable :=
  Relation.ReflTransGen.mono (fun _ _ step => ForkingStep.step step) idle s h

/-! ## The kernel's side -/

section Office
variable {s t : Locks} {p : Process} {i : Nat}

@[simp] theorem claimsSetTable (entry : Option HeldEntry) : (s.setTable p entry).claims = s.claims := by
  funext a
  cases a <;> rfl

section Bookings
variable {r : Locks} {a : Agent} {new rest : List (Claim Sidecar)} {h : Handle} {f : Sidecar}

end Bookings

end Office

/-! ## The tables -/

/-- The table of a process says of its threads what their phases say. -/
structure Tabled (s : Locks) : Prop where
  entry : ∀ p t, ∀ mark ∈ (s.writers p t).registered, s.tables p = some ⟨mark.1, mark.2, t⟩
  phase : ∀ p, ∀ entry ∈ s.tables p, (s.writers p entry.owner).registered = some (entry.count, entry.handle)
  deep : ∀ p t h n, s.writers p t = .inside h n → 0 < n

/-- Somebody will wake who sleeps. -/
def Attended (s : Locks) : Prop := ∀ p t, s.writers p t = .asleep → ∃ u, (s.writers p u).active = true

section Tables
variable {s t : Locks} {p : Process} {i : Nat}

theorem registeredActive {phase : WriterPhase} (h : phase.registered.isSome = true) : phase.active = true := by
  cases phase <;> simp_all [WriterPhase.registered, WriterPhase.active]

theorem wokenRegistered (phase : WriterPhase) : phase.woken.registered = phase.registered := by
  cases phase <;> rfl

theorem wokenInside {phase : WriterPhase} {h : Handle} {n : Nat} (inside : phase.woken = .inside h n) :
    phase = .inside h n := by
  cases phase <;> simp_all [WriterPhase.woken]

theorem Tabled.writes (inv : s.Tabled) {k : Kernel Sidecar} {w : WriterPhase} {entry : Option HeldEntry}
    (mine : ∀ old ∈ s.tables p, old.owner = i)
    (agrees : entry = w.registered.map fun mark => ⟨mark.1, mark.2, i⟩)
    (deep : ∀ h n, w = .inside h n → 0 < n) :
    (({ s with kernel := k }.setTable p entry).setWriter p i w).Tabled := by
  refine ⟨?_, ?_, ?_⟩
  · intro q u mark marked
    by_cases here : q = p
    · subst here
      by_cases same : u = i
      · subst same
        simp only [setTable, setWriter, and_self, if_true] at marked ⊢
        rw [agrees, Option.mem_def.mp marked]
        rfl
      · simp only [setTable, setWriter, same, and_false, if_false] at marked
        exact absurd (mine _ (inv.entry q u mark marked)) same
    · simp only [setTable, setWriter, here, false_and, if_false] at marked ⊢
      exact inv.entry q u mark marked
  · intro q old found
    by_cases here : q = p
    · subst here
      simp only [setTable, setWriter, if_true] at found ⊢
      rw [agrees] at found
      obtain ⟨mark, marked, rfl⟩ := Option.map_eq_some_iff.mp found
      simp [marked]
    · simp only [setTable, setWriter, here, false_and, if_false] at found ⊢
      exact inv.phase q old found
  · intro q u h n inside
    by_cases same : q = p ∧ u = i
    · simp only [setTable, setWriter, same, and_self, if_true] at inside
      exact deep h n inside
    · simp only [setTable, setWriter, same, if_false] at inside
      exact inv.deep q u h n inside

theorem Tabled.moves (inv : s.Tabled) {k : Kernel Sidecar} {w : WriterPhase}
    (same : w.registered = (s.writers p i).registered) (deep : ∀ h n, w = .inside h n → 0 < n) :
    ({ s with kernel := k }.setWriter p i w).Tabled := by
  have registered (q : Process) (u : Nat) :
      (({ s with kernel := k }.setWriter p i w).writers q u).registered = (s.writers q u).registered := by
    simp only [setWriter]
    split
    · rename_i here
      rw [same, here.1, here.2]
    · rfl
  refine ⟨?_, ?_, ?_⟩
  · intro q u mark marked
    rw [registered] at marked
    exact inv.entry q u mark marked
  · intro q old found
    rw [registered]
    exact inv.phase q old found
  · intro q u h n inside
    by_cases here : q = p ∧ u = i
    · simp only [setWriter, here, and_self, if_true] at inside
      exact deep h n inside
    · simp only [setWriter, here, if_false] at inside
      exact inv.deep q u h n inside

theorem Tabled.notified (inv : s.Tabled) (p : Process) : (s.notify p).Tabled := by
  have registered (q : Process) (u : Nat) :
      ((s.notify p).writers q u).registered = (s.writers q u).registered := by
    simp only [notify]
    split
    · exact wokenRegistered _
    · rfl
  refine ⟨?_, ?_, ?_⟩
  · intro q u mark marked
    rw [registered] at marked
    exact inv.entry q u mark marked
  · intro q old found
    rw [registered]
    exact inv.phase q old found
  · intro q u h n inside
    by_cases here : q = p
    · simp only [notify, here, if_true] at inside
      exact inv.deep p u h n (wokenInside inside)
    · simp only [notify, here, if_false] at inside
      exact inv.deep q u h n inside

theorem Tabled.insideEntry (inv : s.Tabled) {h : Handle} {n : Nat} (here : s.writers p i = .inside h n) :
    s.tables p = some ⟨n, h, i⟩ := by
  refine inv.entry p i (n, h) ?_
  rw [here]
  rfl

theorem Tabled.step (inv : s.Tabled) (h : Step s t) : t.Tabled := by
  cases h with
  | @enters p i entry out found =>
    cases table : s.tables p with
    | none =>
      rw [table] at found
      cases found
      exact inv.writes (fun old inside => by simp [table] at inside) rfl fun _ _ equal => by cases equal
    | some old =>
      rw [table] at found
      simp only [enterLock] at found
      split at found <;> cases found
  | @nests p i h n entry here found =>
    rw [inv.insideEntry here, enterLock, if_pos rfl] at found
    cases found
    refine inv.writes (k := s.kernel) ?_ rfl fun _ _ equal => ?_
    · intro old inside
      rw [inv.insideEntry here] at inside
      cases inside
      rfl
    · cases equal
      exact Nat.succ_pos n
  | @sleeps p i out found =>
    refine inv.moves (k := s.kernel) ?_ fun _ _ equal => by cases equal
    rw [out]
    rfl
  | @locks p i h here free =>
    refine inv.moves ?_ fun _ _ equal => ?_
    · rw [here]
      rfl
    · cases equal
      exact Nat.one_pos
  | @fails p i h here =>
    refine inv.moves ?_ fun _ _ equal => by cases equal
    rw [here]
    rfl
  | @raises p i h here =>
    refine Tabled.notified (inv.writes (k := s.kernel) (w := .outside) ?_ rfl fun _ _ equal => by cases equal) p
    intro old inside
    rw [inv.entry p i (1, h) (by rw [here]; rfl)] at inside
    cases inside
    rfl
  | @leaves p i h n entry rest here found left =>
    rw [inv.insideEntry here] at found
    cases found
    simp only [leaveLock] at left
    split at left
    · cases left
    · rename_i some
      cases left
      refine inv.writes (k := s.kernel) ?_ rfl fun _ _ equal => ?_
      · intro old inside
        rw [inv.insideEntry here] at inside
        cases inside
        rfl
      · cases equal
        exact Nat.pos_of_ne_zero some
  | @pops p i h n entry here found left =>
    refine inv.writes (k := s.kernel) ?_ rfl fun _ _ equal => by cases equal
    intro old inside
    rw [inv.insideEntry here] at inside
    cases inside
    rfl
  | @unlocks p i h here =>
    refine inv.moves ?_ fun _ _ equal => by cases equal
    rw [here]
    rfl
  | @notifies p i here =>
    refine Tabled.notified (inv.moves (k := s.kernel) (w := .outside) ?_ fun _ _ equal => by cases equal) p
    rw [here]
    rfl
  | exits p =>
    refine ⟨?_, ?_, ?_⟩
    · intro q u mark marked
      by_cases here : q = p
      · simp [exit, here, WriterPhase.registered] at marked
      · simp only [exit, here, if_false] at marked ⊢
        exact inv.entry q u mark marked
    · intro q old found
      by_cases here : q = p
      · simp [exit, here] at found
      · simp only [exit, here, if_false] at found ⊢
        exact inv.phase q old found
    · intro q u h n inside
      by_cases here : q = p
      · simp [exit, here] at inside
      · simp only [exit, here, if_false] at inside
        exact inv.deep q u h n inside
  | serverOpens | serverOwns | serverRefused | serverReleases | maintenanceOpens | maintenanceLocks
  | maintenanceRefused | writerOpens | writerLocks | writerRefused | writerReleases | maintenanceReleases
  | forks =>
    exact ⟨inv.entry, inv.phase, inv.deep⟩

theorem Attended.busy (inv : s.Attended) {r : Locks} {phase : WriterPhase} (busy : phase.active = true)
    (set : r.writers = (s.setWriter p i phase).writers) : r.Attended := by
  intro q u sleeping
  by_cases here : q = p
  · refine ⟨i, ?_⟩
    rw [set]
    simpa [setWriter, here] using busy
  · rw [set] at sleeping ⊢
    simp only [setWriter, here, false_and, if_false] at sleeping ⊢
    exact inv q u sleeping

/-- Behind `notify_all` nobody of the process sleeps. -/
theorem Attended.notified (inv : s.Attended) {r : Locks} (set : ∀ q u, q ≠ p → r.writers q u = s.writers q u) :
    (r.notify p).Attended := by
  intro q u sleeping
  by_cases here : q = p
  · simp only [notify, here, if_true] at sleeping
    cases phase : r.writers p u <;> simp [phase, WriterPhase.woken] at sleeping
  · simp only [notify, here, if_false] at sleeping ⊢
    simp only [set q _ here] at sleeping ⊢
    exact inv q u sleeping

theorem Attended.step (inv : s.Attended) (tabled : s.Tabled) (h : Step s t) : t.Attended := by
  cases h with
  | enters => exact inv.busy rfl rfl
  | nests => exact inv.busy rfl rfl
  | @sleeps p i out found =>
    intro q u sleeping
    by_cases here : q = p
    · subst here
      cases table : s.tables q with
      | none => simp [enterLock, table] at found
      | some entry =>
        have other : entry.owner ≠ i := by
          intro same
          simp [enterLock, table, same] at found
        refine ⟨entry.owner, ?_⟩
        have registered := tabled.phase q entry table
        simpa [setWriter, other] using registeredActive (Option.isSome_iff_exists.mpr ⟨_, registered⟩)
    · simp only [setWriter, here, false_and, if_false] at sleeping ⊢
      exact inv q u sleeping
  | locks => exact inv.busy rfl rfl
  | fails => exact inv.busy rfl rfl
  | @raises p i h here => exact inv.notified fun q u other => by simp [setWriter, setTable, other]
  | leaves => exact inv.busy rfl rfl
  | pops => exact inv.busy rfl rfl
  | unlocks => exact inv.busy rfl rfl
  | @notifies p i here => exact inv.notified fun q u other => by simp [setWriter, other]
  | exits p =>
    intro q u sleeping
    by_cases here : q = p
    · simp [exit, here] at sleeping
    · simp only [exit, here, if_false] at sleeping ⊢
      exact inv q u sleeping
  | serverOpens | serverOwns | serverRefused | serverReleases | maintenanceOpens | maintenanceLocks
  | maintenanceRefused | writerOpens | writerLocks | writerRefused | writerReleases | maintenanceReleases
  | forks =>
    exact inv

end Tables

/-! ## What the locks are for -/

/-- The sidecars an agent may rely on in the body of its lock. -/
def occupied (s : Locks) : Agent → List Sidecar
  | .writer p t => match s.writers p t with
    | .inside _ _ => [.writer]
    | _ => []
  | .server p i => match s.servers p i with
    | .owning _ => [.server]
    | _ => []
  | .maintenance p i => match s.maintenance p i with
    | .both _ _ => [.writer, .server]
    | _ => []

end Locks

namespace Example

/-- A child that goes on in the body of its parent's maintenance, and leaves it, unlocks its parent's file. -/
theorem childUnlocks : ∃ s : Locks, s.ForkReachable ∧ Sidecar.writer ∈ s.occupied (.maintenance 7 0) ∧
    Sidecar.writer ∈ s.occupied (.writer 9 0) := by
  have maintained : Locks.Reachable _ := .tail (.tail (.tail (.tail .refl (.maintenanceOpens (p := 7) (i := 0) rfl))
    (.maintenanceLocks (p := 7) (i := 0) (h := 0) rfl rfl)) (.writerOpens (p := 7) (i := 0) (h := 0) rfl))
    (.writerLocks (p := 7) (i := 0) (h := 0) (g := 1) rfl rfl)
  have left : Locks.ForkReachable _ := .tail (.tail maintained.forking (.resumes 7 8 (fun _ => false) fun _ => true))
    (.step (.writerReleases (p := 8) (i := 0) (h := 0) (g := 1) rfl))
  exact ⟨_, .tail (.tail left (.step (.enters (p := 9) (t := 0) rfl rfl)))
    (.step (.locks (p := 9) (t := 0) (h := 2) rfl rfl)), by decide, by decide⟩

end Example

namespace Example

end Example
end Enfold
