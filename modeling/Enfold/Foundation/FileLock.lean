import Mathlib.Data.List.Basic
import Mathlib.Logic.Function.Basic

/-! Advisory locks of a kernel. A lock on a file belongs to an open file description, and the processes that have
a descriptor of it share it: it goes when one of them unlocks it, or with the last descriptor. -/
namespace FileLock

abbrev Process := Nat

/-- An open file description. -/
abbrev Handle := Nat

variable {α φ : Type}

structure Kernel (φ : Type) where
  holder : φ → Option Handle
  users : Handle → List Process
  next : Handle

def Kernel.idle : Kernel φ := ⟨fun _ => none, fun _ => [], 0⟩

/-- `open`: a description of its own, the next one. -/
def Kernel.opened (k : Kernel φ) (p : Process) : Kernel φ :=
  { k with
    users := Function.update k.users k.next [p]
    next := k.next + 1 }

/-- A granted `flock(LOCK_EX)`. -/
def Kernel.locked [DecidableEq φ] (k : Kernel φ) (f : φ) (h : Handle) : Kernel φ :=
  { k with holder := Function.update k.holder f (some h) }

def Kernel.freed (k : Kernel φ) (h : Handle) : Kernel φ :=
  { k with holder := fun f => if k.holder f = some h then none else k.holder f }

/-- `close` of one process; the last descriptor takes the lock with it. -/
def Kernel.closed (k : Kernel φ) (p : Process) (h : Handle) : Kernel φ :=
  let rest := (k.users h).filter fun q => decide (q ≠ p)
  let k := { k with users := Function.update k.users h rest }
  if rest = [] then k.freed h else k

/-- `flock(LOCK_UN)` and `close`. -/
def Kernel.released (k : Kernel φ) (p : Process) (h : Handle) : Kernel φ := (k.freed h).closed p h

/-- `fork`: the child has every descriptor of its parent, and has closed those it knows of. -/
def Kernel.forked (k : Kernel φ) (p q : Process) (kept : Handle → Bool) : Kernel φ :=
  { k with users := fun h => if p ∈ k.users h ∧ kept h then q :: k.users h else k.users h }

def Kernel.exited (k : Kernel φ) (p : Process) : Kernel φ :=
  let users := fun h => (k.users h).filter fun q => decide (q ≠ p)
  { k with
    users := users
    holder := fun f => (k.holder f).filter fun h => !(users h).isEmpty }

/-! ## Locks that stay -/

section Kept
variable {k : Kernel φ} {f : φ} {p q : Process} {h g : Handle}

structure Kernel.Holds (k : Kernel φ) (f : φ) (h : Handle) (p : Process) : Prop where
  holder : k.holder f = some h
  user : p ∈ k.users h

theorem openedUser (old : h < k.next) : p ∈ (k.opened q).users h ↔ p ∈ k.users h := by
  simp [Kernel.opened, Function.update_of_ne (Nat.ne_of_lt old)]

theorem closedUser (other : p ≠ q ∨ h ≠ g) (user : p ∈ k.users h) : p ∈ (k.closed q g).users h := by
  have kept : p ∈ Function.update k.users g ((k.users g).filter fun r => decide (r ≠ q)) h := by
    by_cases same : h = g
    · subst same
      rw [Function.update_self]
      exact List.mem_filter.mpr ⟨user, decide_eq_true (other.resolve_right fun apart => apart rfl)⟩
    · rwa [Function.update_of_ne same]
  unfold Kernel.closed
  dsimp only
  split
  · exact kept
  · exact kept

theorem freedHolder (other : h ≠ g) (held : k.holder f = some h) : (k.freed g).holder f = some h := by
  simp [Kernel.freed, held, other]

theorem closedHolds (other : p ≠ q ∨ h ≠ g) (holds : k.Holds f h p) : (k.closed q g).Holds f h p := by
  refine ⟨?_, closedUser other holds.user⟩
  unfold Kernel.closed
  dsimp only
  split
  · rename_i last
    by_cases same : h = g
    · subst same
      have inside : p ∈ (k.users h).filter fun r => decide (r ≠ q) :=
        List.mem_filter.mpr ⟨holds.user, decide_eq_true (other.resolve_right fun apart => apart rfl)⟩
      rw [last] at inside
      exact absurd inside List.not_mem_nil
    · exact freedHolder same holds.holder
  · exact holds.holder

theorem exitedHolds (other : p ≠ q) (holds : k.Holds f h p) : (k.exited q).Holds f h p := by
  have inside : p ∈ (k.users h).filter fun r => decide (r ≠ q) :=
    List.mem_filter.mpr ⟨holds.user, decide_eq_true other⟩
  refine ⟨?_, inside⟩
  have some : ((k.users h).filter fun r => decide (r ≠ q)) ≠ [] := List.ne_nil_of_mem inside
  simp only [Kernel.exited, holds.holder, Option.filter]
  rw [if_pos]
  simpa using some

end Kept

/-! ## Claims -/

structure Claim (φ : Type) where
  handle : Handle
  locks : Option φ

structure Office (α φ : Type) where
  kernel : Kernel φ
  claims : α → List (Claim φ)

inductive Office.Step [DecidableEq φ] (process : α → Process) : Office α φ → Office α φ → Prop
  | opens {o claims} (a : α) (same : ∀ b, b ≠ a → claims b = o.claims b)
      (mine : claims a = ⟨o.kernel.next, none⟩ :: o.claims a) :
      Step process o ⟨o.kernel.opened (process a), claims⟩
  | locks {o claims} (a : α) (f : φ) (h : Handle) (rest : List (Claim φ)) (free : o.kernel.holder f = none)
      (before : o.claims a = ⟨h, none⟩ :: rest) (same : ∀ b, b ≠ a → claims b = o.claims b)
      (mine : claims a = ⟨h, some f⟩ :: rest) :
      Step process o ⟨o.kernel.locked f h, claims⟩
  | releases {o claims} (a : α) (claim : Claim φ) (rest : List (Claim φ)) (before : o.claims a = claim :: rest)
      (same : ∀ b, b ≠ a → claims b = o.claims b) (mine : claims a = rest) :
      Step process o ⟨o.kernel.released (process a) claim.handle, claims⟩
  | closes {o claims} (a : α) (claim : Claim φ) (rest : List (Claim φ)) (before : o.claims a = claim :: rest)
      (same : ∀ b, b ≠ a → claims b = o.claims b) (mine : claims a = rest) :
      Step process o ⟨o.kernel.closed (process a) claim.handle, claims⟩
  | forks {o} (p q : Process) (kept : Handle → Bool) : Step process o ⟨o.kernel.forked p q kept, o.claims⟩
  | exits {o claims} (p : Process) (gone : ∀ a, process a = p → claims a = [])
      (same : ∀ a, process a ≠ p → claims a = o.claims a) :
      Step process o ⟨o.kernel.exited p, claims⟩
  | stays {o claims} (same : ∀ a, claims a = o.claims a) : Step process o ⟨o.kernel, claims⟩

/-- No description is claimed twice, and who claims a lock has it. -/
structure Office.Sound (process : α → Process) (o : Office α φ) : Prop where
  old : ∀ a, ∀ claim ∈ o.claims a, claim.handle < o.kernel.next
  user : ∀ a, ∀ claim ∈ o.claims a, process a ∈ o.kernel.users claim.handle
  held : ∀ a, ∀ claim ∈ o.claims a, ∀ f ∈ claim.locks, o.kernel.holder f = some claim.handle
  apart : ∀ a, ((o.claims a).map Claim.handle).Nodup
  own : ∀ a b, a ≠ b → ∀ claim ∈ o.claims a, ∀ other ∈ o.claims b, claim.handle ≠ other.handle

section Offices
variable {process : α → Process} {o t : Office α φ}

theorem Office.Sound.exclusive (sound : o.Sound process) {a b : α} {claim other : Claim φ} {f : φ}
    (left : claim ∈ o.claims a) (right : other ∈ o.claims b) (mine : claim.locks = some f)
    (yours : other.locks = some f) : a = b := by
  by_contra apart
  have first := sound.held a claim left f mine
  have second := sound.held b other right f yours
  exact sound.own a b apart claim left other right (Option.some.inj (first.symm.trans second))

theorem Office.Sound.keep (sound : o.Sound process) {kernel : Kernel φ} {claims : α → List (Claim φ)}
    (fewer : ∀ a, (claims a).Sublist (o.claims a)) (next : kernel.next = o.kernel.next)
    (user : ∀ a, ∀ claim ∈ claims a, process a ∈ kernel.users claim.handle)
    (held : ∀ a, ∀ claim ∈ claims a, ∀ f ∈ claim.locks, kernel.holder f = some claim.handle) :
    (Office.mk kernel claims).Sound process where
  old a claim inside := next ▸ sound.old a claim ((fewer a).subset inside)
  user := user
  held := held
  apart a := (sound.apart a).sublist ((fewer a).map _)
  own a b apart claim left other right :=
    sound.own a b apart claim ((fewer a).subset left) other ((fewer b).subset right)

theorem Office.Sound.holds (sound : o.Sound process) {a : α} {claim : Claim φ} {f : φ}
    (inside : claim ∈ o.claims a) (locks : claim.locks = some f) : o.kernel.Holds f claim.handle (process a) :=
  ⟨sound.held a claim inside f locks, sound.user a claim inside⟩

theorem Office.Sound.others [DecidableEq α] (sound : o.Sound process) {a : α} {claim : Claim φ}
    {rest : List (Claim φ)} {claims : α → List (Claim φ)} (before : o.claims a = claim :: rest)
    (same : ∀ b, b ≠ a → claims b = o.claims b) (mine : claims a = rest) :
    (∀ b, (claims b).Sublist (o.claims b)) ∧
      ∀ b, ∀ other ∈ claims b, other ∈ o.claims b ∧ other.handle ≠ claim.handle := by
  constructor
  · intro b
    by_cases here : b = a
    · subst here
      rw [mine, before]
      exact List.sublist_cons_self _ _
    · rw [same b here]
  · intro b other inside
    by_cases here : b = a
    · subst here
      rw [mine] at inside
      have distinct := sound.apart b
      rw [before, List.map_cons, List.nodup_cons] at distinct
      have apart : other.handle ≠ claim.handle := fun equal =>
        distinct.1 (List.mem_map.mpr ⟨other, inside, equal⟩)
      exact ⟨before ▸ List.mem_cons_of_mem _ inside, apart⟩
    · rw [same b here] at inside
      exact ⟨inside, sound.own b a here other inside claim (before ▸ List.mem_cons_self)⟩

theorem Office.Sound.step [DecidableEq α] [DecidableEq φ] (sound : o.Sound process)
    (h : Office.Step process o t) : t.Sound process := by
  cases h with
  | @opens claims a same mine =>
    have source {b : α} {claim : Claim φ} (inside : claim ∈ claims b) :
        claim ∈ o.claims b ∨ b = a ∧ claim = ⟨o.kernel.next, none⟩ := by
      by_cases here : b = a
      · subst here
        rw [mine] at inside
        rcases List.mem_cons.mp inside with rfl | inside
        · exact .inr ⟨rfl, rfl⟩
        · exact .inl inside
      · rw [same b here] at inside
        exact .inl inside
    refine ⟨?_, ?_, ?_, ?_, ?_⟩
    · intro b claim inside
      rcases source inside with inside | ⟨rfl, rfl⟩
      · exact Nat.lt_succ_of_lt (sound.old b claim inside)
      · exact Nat.lt_succ_self _
    · intro b claim inside
      rcases source inside with inside | ⟨rfl, rfl⟩
      · exact (openedUser (sound.old b claim inside)).mpr (sound.user b claim inside)
      · simp [Kernel.opened]
    · intro b claim inside f locks
      rcases source inside with inside | ⟨rfl, rfl⟩
      · exact sound.held b claim inside f locks
      · cases locks
    · intro b
      by_cases here : b = a
      · subst here
        show ((claims b).map Claim.handle).Nodup
        rw [mine, List.map_cons, List.nodup_cons]
        refine ⟨fun inside => ?_, sound.apart b⟩
        obtain ⟨claim, inside, equal⟩ := List.mem_map.mp inside
        exact absurd equal (Nat.ne_of_lt (sound.old b claim inside))
      · show ((claims b).map Claim.handle).Nodup
        rw [same b here]
        exact sound.apart b
    · intro b c apart claim left other right equal
      rcases source left with left | ⟨rfl, rfl⟩
      · rcases source right with right | ⟨-, rfl⟩
        · exact sound.own b c apart claim left other right equal
        · exact absurd equal (Nat.ne_of_lt (sound.old b claim left))
      · rcases source right with right | ⟨rfl, -⟩
        · exact absurd equal.symm (Nat.ne_of_lt (sound.old c other right))
        · exact absurd rfl apart
  | @locks claims a f h rest free before same mine =>
    have source {b : α} {claim : Claim φ} (inside : claim ∈ claims b) :
        claim ∈ o.claims b ∨ b = a ∧ claim = ⟨h, some f⟩ := by
      by_cases here : b = a
      · subst here
        rw [mine] at inside
        rcases List.mem_cons.mp inside with rfl | inside
        · exact .inr ⟨rfl, rfl⟩
        · exact .inl (before ▸ List.mem_cons_of_mem _ inside)
      · rw [same b here] at inside
        exact .inl inside
    have handles (b : α) : (claims b).map Claim.handle = (o.claims b).map Claim.handle := by
      by_cases here : b = a
      · subst here
        rw [mine, before, List.map_cons, List.map_cons]
      · rw [same b here]
    have first : (⟨h, none⟩ : Claim φ) ∈ o.claims a := before ▸ List.mem_cons_self
    refine ⟨?_, ?_, ?_, ?_, ?_⟩
    · intro b claim inside
      rcases source inside with inside | ⟨rfl, rfl⟩
      · exact sound.old b claim inside
      · exact sound.old b ⟨h, none⟩ first
    · intro b claim inside
      rcases source inside with inside | ⟨rfl, rfl⟩
      · exact sound.user b claim inside
      · exact sound.user b ⟨h, none⟩ first
    · intro b claim inside g locks
      rcases source inside with inside | ⟨rfl, rfl⟩
      · have held := sound.held b claim inside g locks
        have other : g ≠ f := by
          rintro rfl
          rw [free] at held
          cases held
        simpa [Kernel.locked, Function.update_of_ne other] using held
      · obtain rfl := Option.mem_some_iff.mp locks
        simp [Kernel.locked]
    · exact fun b => (handles b).symm ▸ sound.apart b
    · intro b c apart claim left other right equal
      have there {d : α} {mark : Claim φ} (inside : mark ∈ claims d) :
          ∃ old ∈ o.claims d, old.handle = mark.handle := by
        have inside : mark.handle ∈ (o.claims d).map Claim.handle := by
          rw [← handles d]
          exact List.mem_map_of_mem inside
        exact List.mem_map.mp inside
      obtain ⟨old, oldInside, oldSame⟩ := there left
      obtain ⟨old', oldInside', oldSame'⟩ := there right
      exact sound.own b c apart old oldInside old' oldInside' (oldSame.trans (equal.trans oldSame'.symm))
  | releases a claim rest before same mine =>
    obtain ⟨fewer, others⟩ := sound.others before same mine
    refine sound.keep fewer (by unfold Kernel.released Kernel.closed; dsimp only; split <;> rfl) ?_ ?_
    · intro b other inside
      obtain ⟨inside, apart⟩ := others b other inside
      exact closedUser (.inr apart) (sound.user b other inside)
    · intro b other inside f locks
      obtain ⟨inside, apart⟩ := others b other inside
      have holds : (o.kernel.freed claim.handle).Holds f other.handle (process b) :=
        ⟨freedHolder apart (sound.held b other inside f locks), sound.user b other inside⟩
      exact (closedHolds (.inr apart) holds).holder
  | closes a claim rest before same mine =>
    obtain ⟨fewer, others⟩ := sound.others before same mine
    refine sound.keep fewer (by unfold Kernel.closed; dsimp only; split <;> rfl) ?_ ?_
    · intro b other inside
      obtain ⟨inside, apart⟩ := others b other inside
      exact closedUser (.inr apart) (sound.user b other inside)
    · intro b other inside f locks
      obtain ⟨inside, apart⟩ := others b other inside
      exact (closedHolds (.inr apart) (sound.holds inside locks)).holder
  | forks p q kept =>
    refine sound.keep (fun _ => List.Sublist.refl _) rfl ?_ fun b claim inside => sound.held b claim inside
    intro b claim inside
    have user := sound.user b claim inside
    simp only [Kernel.forked]
    split
    · exact List.mem_cons_of_mem _ user
    · exact user
  | @exits claims p gone same =>
    have others {b : α} {claim : Claim φ} (inside : claim ∈ claims b) : process b ≠ p ∧ claim ∈ o.claims b := by
      have apart : process b ≠ p := by
        intro here
        rw [gone b here] at inside
        exact absurd inside List.not_mem_nil
      exact ⟨apart, same b apart ▸ inside⟩
    refine sound.keep ?_ rfl ?_ ?_
    · intro b
      by_cases here : process b = p
      · rw [gone b here]
        exact List.nil_sublist _
      · rw [same b here]
    · intro b claim inside
      obtain ⟨apart, inside⟩ := others inside
      exact List.mem_filter.mpr ⟨sound.user b claim inside, decide_eq_true apart⟩
    · intro b claim inside f locks
      obtain ⟨apart, inside⟩ := others inside
      exact (exitedHolds apart (sound.holds inside locks)).holder
  | @stays claims same =>
    have equal : claims = o.claims := funext same
    subst equal
    exact sound

end Offices
end FileLock
