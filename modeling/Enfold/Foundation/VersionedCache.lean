import Mathlib.Data.List.Basic
import Mathlib.Order.Basic

/-! A connection to a database that others commit to, with the nested transactions of its owner, and a
cache beside it. The cache trusts a version that moves with every commit of the others the connection
comes to see; what the owner's own transactions undo does not move it. -/
namespace VersionedCache

variable {σ α κ ν ε : Type}

inductive Held where
  | nothing | snapshot | lock
  deriving DecidableEq, Repr

structure Connection (σ : Type) where
  view : σ
  /-- What the open transaction and its savepoints go back to, the innermost first. -/
  saved : List σ
  held : Held
  /-- What others have committed since the snapshot was taken. -/
  behind : List σ
  dataVersion : Nat

namespace Connection

def idle (s : σ) : Connection σ := ⟨s, [], .nothing, [], 0⟩

variable (c : Connection σ)

/-- Another connection commits. Behind a snapshot that waits, and a held lock refuses it. -/
def arrive (s : σ) : Connection σ :=
  match c.held with
  | .nothing => { c with view := s, saved := c.saved.map fun _ => s, dataVersion := c.dataVersion + 1 }
  | .snapshot => { c with behind := c.behind ++ [s] }
  | .lock => c

/-- A statement that reads: in a transaction it takes the snapshot. -/
def select : Connection σ :=
  if c.saved.isEmpty || c.held ≠ .nothing then c else { c with held := .snapshot }

/-- A statement that writes: in a transaction it takes the lock. -/
def lock : Connection σ := if c.saved.isEmpty then c else { c with held := .lock }

/-- `BEGIN`, which an open transaction refuses; an immediate one takes the lock at once. -/
def begin (immediate : Bool) : Option (Connection σ) :=
  if c.saved.isEmpty then some { c with saved := [c.view], held := if immediate then .lock else .nothing }
  else none

def savepoint : Connection σ := { c with saved := c.view :: c.saved }

/-- The transaction ends and leaves `s`, or what came in behind it. -/
def finish (s : σ) : Connection σ :=
  ⟨c.behind.getLast?.getD s, [], .nothing, [], c.dataVersion + c.behind.length⟩

def commit : Connection σ := c.finish c.view

def rollback : Connection σ := c.finish (c.saved.getLast?.getD c.view)

/-- `RELEASE` of a savepoint, counted from the innermost; that of the outermost one commits. -/
def release (depth : Nat) : Option (Connection σ) :=
  match c.saved.drop depth with
  | [] => none
  | [_] => some c.commit
  | _ :: rest => some { c with saved := rest }

/-- `ROLLBACK TO` a savepoint, which stays open. -/
def rollbackTo (depth : Nat) : Option (Connection σ) :=
  match c.saved.drop depth with
  | [] => none
  | s :: rest => some { c with view := s, saved := s :: rest }

/-- A statement of the owner; a snapshot that others have moved past cannot be written from. `locked`
says whether a statement that raised had taken the lock by then. -/
def write (step : σ → Except ε σ) (locked : Bool) : Connection σ :=
  if c.behind.isEmpty then
    match step c.view with
    | .ok s => { c.lock with view := s }
    | .error _ => if locked then c.lock else c
  else c

end Connection

structure Cached (κ ν : Type) where
  key : κ
  value : ν
  dataVersion : Nat

structure World (σ κ ν : Type) where
  connection : Connection σ
  cache : Option (Cached κ ν)

def World.mutate (w : World σ κ ν) (step : σ → Except ε σ) (locked : Bool) : World σ κ ν :=
  ⟨w.connection.write step locked, none⟩

section Reads
variable [DecidableEq κ] (read : σ → κ → ν)

def World.hit (w : World σ κ ν) (k : κ) : Option (Cached κ ν) :=
  w.cache.filter fun m => m.key = k && m.dataVersion = w.connection.dataVersion

def World.look (w : World σ κ ν) (k : κ) (between : List σ) : World σ κ ν × ν :=
  match w.hit k with
  | some m => ({ w with connection := w.connection.select }, m.value)
  | none =>
    let c := between.foldl Connection.arrive w.connection.select
    (⟨c, some ⟨k, read c.view k, w.connection.dataVersion⟩⟩, read c.view k)

end Reads

/-! ## Moves of the connection -/

/-- From one connection to a later one whose version has not moved, nothing has changed. -/
structure Follows (c d : Connection σ) : Prop where
  version : c.dataVersion ≤ d.dataVersion
  view : c.dataVersion = d.dataVersion → d.view = c.view

section Moves
variable {c d e : Connection σ}

theorem Follows.refl (c : Connection σ) : Follows c c := ⟨Nat.le_refl _, fun _ => rfl⟩

theorem Follows.trans (first : Follows c d) (second : Follows d e) : Follows c e where
  version := Nat.le_trans first.version second.version
  view same := by
    have middle : c.dataVersion = d.dataVersion :=
      Nat.le_antisymm first.version (same ▸ second.version)
    rw [second.view (middle.symm.trans same), first.view middle]

theorem arriveFollows (c : Connection σ) (s : σ) : Follows c (c.arrive s) := by
  unfold Connection.arrive
  split
  · exact ⟨Nat.le_succ _, fun same => absurd same (Nat.succ_ne_self _).symm⟩
  · exact ⟨Nat.le_refl _, fun _ => rfl⟩
  · exact .refl c

theorem arriveAllFollows (c : Connection σ) (states : List σ) : Follows c (states.foldl Connection.arrive c) := by
  induction states generalizing c with
  | nil => exact .refl c
  | cons s rest ih => exact (arriveFollows c s).trans (ih _)

theorem selectVersion (c : Connection σ) : c.select.dataVersion = c.dataVersion := by
  unfold Connection.select
  split <;> rfl

theorem selectView (c : Connection σ) : c.select.view = c.view := by
  unfold Connection.select
  split <;> rfl

theorem selectFollows (c : Connection σ) : Follows c c.select :=
  ⟨Nat.le_of_eq (selectVersion c).symm, fun _ => selectView c⟩

theorem beginFollows {immediate : Bool} (began : c.begin immediate = some d) : Follows c d := by
  unfold Connection.begin at began
  split at began
  · cases began
    exact ⟨Nat.le_refl _, fun _ => rfl⟩
  · cases began

theorem savepointFollows (c : Connection σ) : Follows c c.savepoint := ⟨Nat.le_refl _, fun _ => rfl⟩

theorem finishView {s : σ} (same : c.dataVersion = (c.finish s).dataVersion) : (c.finish s).view = s := by
  have none : c.behind = [] := List.eq_nil_of_length_eq_zero (Nat.left_eq_add.mp same)
  rw [Connection.finish, none]
  rfl

theorem commitFollows (c : Connection σ) : Follows c c.commit := ⟨Nat.le_add_right _ _, finishView⟩

theorem releaseFollows {depth : Nat} (released : c.release depth = some d) : Follows c d := by
  unfold Connection.release at released
  split at released
  · cases released
  · cases released
    exact commitFollows c
  · cases released
    exact ⟨Nat.le_refl _, fun _ => rfl⟩

theorem rollbackVersion (c : Connection σ) : c.dataVersion ≤ c.rollback.dataVersion := Nat.le_add_right _ _

theorem rollbackToVersion {depth : Nat} (rolled : c.rollbackTo depth = some d) :
    d.dataVersion = c.dataVersion := by
  unfold Connection.rollbackTo at rolled
  split at rolled
  · cases rolled
  · cases rolled
    rfl

theorem writeVersion (step : σ → Except ε σ) (locked : Bool) :
    (c.write step locked).dataVersion = c.dataVersion := by
  unfold Connection.write Connection.lock
  repeat' split
  all_goals rfl

end Moves

/-! ## The cache beside it -/

/-- The cache is no newer than the connection, and its key is one that reads ask for. -/
structure World.Sound (key : α → κ) (w : World σ κ ν) : Prop where
  version : ∀ m, w.cache = some m → m.dataVersion ≤ w.connection.dataVersion
  key : ∀ m, w.cache = some m → ∃ a, key a = m.key

/-- What a read would take from the cache is what it would read. -/
def World.Fresh (read : σ → κ → ν) (w : World σ κ ν) : Prop :=
  ∀ m, w.cache = some m → m.dataVersion = w.connection.dataVersion → m.value = read w.connection.view m.key

section Rules
variable {read : σ → κ → ν} {key : α → κ} {w : World σ κ ν} {d : Connection σ} {k : κ} {between : List σ}

theorem soundMoved (sound : w.Sound key) (later : w.connection.dataVersion ≤ d.dataVersion) :
    World.Sound key { w with connection := d } where
  version m cached := Nat.le_trans (sound.version m cached) later
  key := sound.key

/-- A move keeps the cache fresh just when the rows it leaves in the cached version read as before. -/
theorem freshMoved (sound : w.Sound key) (fresh : w.Fresh read) (later : w.connection.dataVersion ≤ d.dataVersion) :
    World.Fresh read { w with connection := d } ↔ ∀ m, w.cache = some m → m.dataVersion = d.dataVersion →
      read d.view m.key = read w.connection.view m.key := by
  have value (m : Cached κ ν) (cached : w.cache = some m) (same : m.dataVersion = d.dataVersion) :
      m.value = read w.connection.view m.key :=
    fresh m cached (Nat.le_antisymm (sound.version m cached) (same ▸ later))
  constructor
  · intro moved m cached same
    exact (moved m cached same).symm.trans (value m cached same)
  · intro restored m cached same
    exact (value m cached same).trans (restored m cached same).symm

theorem freshFollowed (sound : w.Sound key) (fresh : w.Fresh read) (follows : Follows w.connection d) :
    World.Fresh read { w with connection := d } := by
  refine (freshMoved sound fresh follows.version).mpr fun m cached same => ?_
  have still : w.connection.dataVersion = d.dataVersion :=
    Nat.le_antisymm follows.version (same ▸ sound.version m cached)
  rw [follows.view still]

theorem emptySound (c : Connection σ) : World.Sound key (⟨c, none⟩ : World σ κ ν) where
  version m cached := by cases cached
  key m cached := by cases cached

theorem emptyFresh (c : Connection σ) : World.Fresh read ⟨c, none⟩ := by
  intro m cached
  cases cached

variable [DecidableEq κ]

theorem hitSome {m : Cached κ ν} : w.hit k = some m ↔
    w.cache = some m ∧ m.key = k ∧ m.dataVersion = w.connection.dataVersion := by
  rw [World.hit, Option.filter_eq_some_iff, Bool.and_eq_true, decide_eq_true_eq, decide_eq_true_eq]

theorem lookSound (a : α) (sound : w.Sound key) : (w.look read (key a) between).1.Sound key := by
  unfold World.look
  split
  · exact soundMoved sound (selectFollows _).version
  · refine ⟨fun m cached => ?_, fun m cached => ?_⟩
    · cases cached
      exact ((selectFollows _).trans (arriveAllFollows _ between)).version
    · cases cached
      exact ⟨a, rfl⟩

theorem lookFresh (sound : w.Sound key) (fresh : w.Fresh read) : (w.look read k between).1.Fresh read := by
  unfold World.look
  split
  · exact freshFollowed sound fresh (selectFollows _)
  · intro m cached _
    cases cached
    rfl

/-- What a fresh cache answers is what the rows say when the version is looked at, or when they
are read. -/
theorem lookCurrent (fresh : w.Fresh read) : (w.look read k between).2 = read w.connection.view k ∨
    (w.look read k between).2 = read (between.foldl Connection.arrive w.connection.select).view k := by
  unfold World.look
  split
  · rename_i m hit
    obtain ⟨cached, rfl, same⟩ := hitSome.mp hit
    exact .inl (fresh m cached same)
  · exact .inr rfl

/-- A cache whose every answer is right is fresh. -/
theorem freshOfLooks (sound : w.Sound key)
    (right : ∀ a, (w.look read (key a) []).2 = read w.connection.view (key a)) : w.Fresh read := by
  intro m cached same
  obtain ⟨a, asked⟩ := sound.key m cached
  have answer := right a
  rw [asked, World.look, hitSome.mpr ⟨cached, rfl, same⟩] at answer
  exact answer

end Rules
end VersionedCache
