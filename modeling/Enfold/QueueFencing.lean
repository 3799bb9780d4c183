import Enfold.ExtractQueue

/-! Which handles a queue still honours. A claim's fence is its owner and the end of its lease, so a handle
is shut out by the row's next claim unless the same owner's next lease ends at the same instant. -/
namespace Enfold.ExtractQueue

open Fallible

structure QueueWorld where
  rows : List QueueRow
  issued : List (Nat × ClaimedLeaseOwner)

/-- A call, with the rows its first statement read where it has two. -/
inductive QueueCall where
  | nextPending (seen : List QueueRow) (call : ClaimCall)
  | saveProposals (rowId : Nat) (proposals : List LegacyProposal) (leaseOwner : Option LeaseOwner)
  | markDone (rowId : Nat) (leaseOwner : Option LeaseOwner)
  | markFailed (seen : List QueueRow) (rowId : Nat) (error : Option String) (maxAttempts : Nat)
      (leaseOwner : Option LeaseOwner) (now : Rat)
  | markQuotaFailed (seen : List QueueRow) (rowId : Nat) (error : Option String) (notBefore : Rat)
      (leaseOwner : Option LeaseOwner) (now : Rat)
  | releaseClaim (rowId : Nat) (leaseOwner : Option LeaseOwner)

def QueueCall.perform (q : ExtractQueue) (w : QueueWorld) : QueueCall → Except Raised QueueWorld
  | .nextPending seen call =>
    let (rows, found) := q.nextPending seen w.rows call
    .ok ⟨rows, w.issued ++ (found.map fun claimed => (claimed.id, claimed.leaseOwner)).toList⟩
  | .saveProposals rowId proposals leaseOwner => do
    let (rows, _) ← q.saveProposals w.rows rowId proposals leaseOwner
    .ok { w with rows }
  | .markDone rowId leaseOwner => .ok { w with rows := (ExtractQueue.markDone w.rows rowId leaseOwner).1 }
  | .markFailed seen rowId error maxAttempts leaseOwner now =>
    .ok { w with rows := (q.markFailed seen w.rows rowId error maxAttempts leaseOwner now).1 }
  | .markQuotaFailed seen rowId error notBefore leaseOwner now =>
    .ok { w with rows := (q.markQuotaFailed seen w.rows rowId error notBefore leaseOwner now).1 }
  | .releaseClaim rowId leaseOwner => .ok { w with rows := (ExtractQueue.releaseClaim w.rows rowId leaseOwner).1 }

def Honours (rows : List QueueRow) (claim : Nat × ClaimedLeaseOwner) : Prop :=
  ∃ row ∈ rows, row.fencedBy claim.1 (some (.claimed claim.2)) = true

/-- No statement changes a row under the handle, and each of them says so. -/
structure Refused (q : ExtractQueue) (rows : List QueueRow) (claim : Nat × ClaimedLeaseOwner) : Prop where
  done : ExtractQueue.markDone rows claim.1 (some (.claimed claim.2)) = (rows, false)
  saved : ∀ proposals answer, q.saveProposals rows claim.1 proposals (some (.claimed claim.2)) = .ok answer →
    answer = (rows, false)
  failed : ∀ seen error maxAttempts now,
    q.markFailed seen rows claim.1 error maxAttempts (some (.claimed claim.2)) now = (rows, 0)
  rescheduled : ∀ seen error notBefore now,
    q.markQuotaFailed seen rows claim.1 error notBefore (some (.claimed claim.2)) now = (rows, false)
  released : ExtractQueue.releaseClaim rows claim.1 (some (.claimed claim.2)) = (rows, false)

/-- Of the claims of one row, none but the last one is honoured. -/
structure Fenced (q : ExtractQueue) (w : QueueWorld) : Prop where
  earlier : w.issued.Pairwise fun earlier later => earlier.1 = later.1 → Refused q w.rows earlier
  single : w.issued.Pairwise fun earlier later => earlier.1 = later.1 →
    ¬(Honours w.rows earlier ∧ Honours w.rows later)

/-- A claim that takes a row gives out a handle no earlier claim of the row has. -/
def NewFence (q : ExtractQueue) (w : QueueWorld) : QueueCall → Prop
  | .nextPending seen call => ∀ row, call.candidate seen = some row → (∃ old ∈ w.rows, call.due row.id old = true) →
      ∀ claim ∈ w.issued, claim.1 = row.id → claim.2 ≠ q.handle call
  | _ => True

section Handles
variable {q : ExtractQueue} {rows : List QueueRow} {claim : Nat × ClaimedLeaseOwner}

theorem refusedOf (none : ¬Honours rows claim) : Refused q rows claim := by
  have unfenced : ∀ row ∈ rows, row.fencedBy claim.1 (some (.claimed claim.2)) = false := fun row hr =>
    Bool.eq_false_iff.mpr fun fenced => none ⟨row, hr, fenced⟩
  have guarded (p : QueueRow → Bool) : ∀ row ∈ rows, (row.fencedBy claim.1 (some (.claimed claim.2)) && p row) = false :=
    fun row hr => by rw [unfenced row hr, Bool.false_and]
  refine ⟨?_, fun proposals answer saved => ?_, fun seen error maxAttempts now => ?_,
    fun seen error notBefore now => ?_, ?_⟩
  · rw [ExtractQueue.markDone, Table.matchingNone unfenced, Table.remove,
      List.filter_eq_self.mpr fun row hr => by rw [unfenced row hr]; rfl]
    rfl
  · simp only [ExtractQueue.saveProposals, bindOk] at saved
    obtain ⟨shaped, -, last⟩ := saved
    cases last
    rw [Table.amendUntouched unfenced, Table.matchingNone unfenced]
    rfl
  · unfold ExtractQueue.markFailed
    split
    · rfl
    · split
      · rfl
      · dsimp only
        rw [Table.amendUntouched (guarded _), Table.matchingNone (guarded _)]
        rfl
  · unfold ExtractQueue.markQuotaFailed
    split
    · rfl
    · split
      · rfl
      · dsimp only
        split
        · rw [Table.amendUntouched (guarded _)]
        · rw [Table.amendUntouched (guarded _), Table.matchingNone (guarded _)]
          rfl
  · rw [ExtractQueue.releaseClaim, Table.amendUntouched unfenced, Table.matchingNone unfenced]
    rfl

theorem fencedKey {rowId : Nat} {leaseOwner : Option LeaseOwner} {row : QueueRow}
    (fenced : row.fencedBy rowId leaseOwner = true) : row.id = rowId := by
  simp only [QueueRow.fencedBy, Bool.and_eq_true, decide_eq_true_eq] at fenced
  exact fenced.1.1.1

theorem refusedIff (keyed : Table.Unique QueueRow.id rows) : Refused q rows claim ↔ ¬Honours rows claim := by
  constructor
  · rintro refused ⟨row, hr, fenced⟩
    have counted := congrArg Prod.snd refused.released
    have hit := Table.matchingKeyed keyed (fun other => fencedKey) hr fenced
    simp [ExtractQueue.releaseClaim, hit] at counted
  · exact refusedOf

end Handles

/-! ## Statements on held rows -/

structure Tightens (rows left : List QueueRow) : Prop where
  honours : ∀ claim, Honours left claim → Honours rows claim
  keyed : Table.Unique QueueRow.id rows → Table.Unique QueueRow.id left

section Statements
variable {q : ExtractQueue} {rows left : List QueueRow}

theorem tightensSelf : Tightens rows rows := ⟨fun _ honoured => honoured, id⟩

theorem amendTightens {p : QueueRow → Bool} {f : QueueRow → QueueRow} (ids : ∀ row, (f row).id = row.id)
    (fences : ∀ row rowId leaseOwner, (f row).fencedBy rowId leaseOwner = true → row.fencedBy rowId leaseOwner = true) :
    Tightens rows (Table.amend p f rows) where
  honours claim honoured := by
    obtain ⟨row, hr, fenced⟩ := honoured
    obtain ⟨old, hold, rfl⟩ := Table.memAmend.mp hr
    refine ⟨old, hold, ?_⟩
    split at fenced
    · exact fences old _ _ fenced
    · exact fenced
  keyed := Table.amendUnique ids

-- a row that is not being processed honours no handle
theorem amendIdle {p : QueueRow → Bool} {f : QueueRow → QueueRow} (ids : ∀ row, (f row).id = row.id)
    (idle : ∀ row, (f row).status = .dead ∨ (f row).status = .pending) : Tightens rows (Table.amend p f rows) := by
  refine amendTightens ids fun row rowId leaseOwner fenced => ?_
  simp only [QueueRow.fencedBy, Bool.and_eq_true, decide_eq_true_eq] at fenced
  rcases idle row with dead | pending
  · cases dead.symm.trans fenced.1.1.2
  · cases pending.symm.trans fenced.1.1.2

theorem markDoneTightens (rowId : Nat) (leaseOwner : Option LeaseOwner) :
    Tightens rows (ExtractQueue.markDone rows rowId leaseOwner).1 where
  honours claim honoured := by
    obtain ⟨row, hr, fenced⟩ := honoured
    exact ⟨row, (Table.memRemove.mp hr).1, fenced⟩
  keyed := Table.removeUnique

theorem saveProposalsTightens {rowId : Nat} {proposals : List LegacyProposal} {leaseOwner : Option LeaseOwner}
    {answer : List QueueRow × Bool} (saved : q.saveProposals rows rowId proposals leaseOwner = .ok answer) :
    Tightens rows answer.1 := by
  simp only [ExtractQueue.saveProposals, bindOk] at saved
  obtain ⟨shaped, -, last⟩ := saved
  cases last
  exact amendTightens (fun _ => rfl) fun row rowId leaseOwner fenced => fenced

theorem markFailedTightens (seen : List QueueRow) (rowId : Nat) (error : Option String) (maxAttempts : Nat)
    (leaseOwner : Option LeaseOwner) (now : Rat) :
    Tightens rows (q.markFailed seen rows rowId error maxAttempts leaseOwner now).1 := by
  unfold ExtractQueue.markFailed
  split
  · exact tightensSelf
  · split
    · exact tightensSelf
    · refine amendIdle (fun _ => rfl) fun row => ?_
      dsimp only [unleased]
      split
      · exact .inl rfl
      · exact .inr rfl

theorem markQuotaFailedTightens (seen : List QueueRow) (rowId : Nat) (error : Option String) (notBefore : Rat)
    (leaseOwner : Option LeaseOwner) (now : Rat) :
    Tightens rows (q.markQuotaFailed seen rows rowId error notBefore leaseOwner now).1 := by
  unfold ExtractQueue.markQuotaFailed
  split
  · exact tightensSelf
  · split
    · exact tightensSelf
    · dsimp only
      split
      · exact amendIdle (fun _ => rfl) fun _ => .inl rfl
      · exact amendIdle (fun _ => rfl) fun _ => .inr rfl

theorem releaseClaimTightens (rowId : Nat) (leaseOwner : Option LeaseOwner) :
    Tightens rows (ExtractQueue.releaseClaim rows rowId leaseOwner).1 :=
  amendIdle (fun _ => rfl) fun _ => .inr rfl

end Statements

/-! ## Claims -/

section Claims
variable {q : ExtractQueue} {w : QueueWorld} {seen : List QueueRow} {call : ClaimCall} {row : QueueRow}

structure Claimed (q : ExtractQueue) (call : ClaimCall) (row : QueueRow) (rows left : List QueueRow) : Prop where
  left : left = Table.amend (call.due row.id) (q.claim call) rows
  taken : ∃ old ∈ rows, call.due row.id old = true

theorem dueKey {rowId : Nat} (due : call.due rowId row = true) : row.id = rowId := by
  simp only [ClaimCall.due, Bool.and_eq_true, decide_eq_true_eq] at due
  exact due.1

variable (seen call) in
theorem nextPendingSource (keyed : Table.Unique QueueRow.id w.rows) :
    (q.nextPending seen w.rows call = (w.rows, none) ∧
      ∀ row, call.candidate seen = some row → ∀ old ∈ w.rows, call.due row.id old = false) ∨
    ∃ row left claimed, call.candidate seen = some row ∧ q.nextPending seen w.rows call = (left, some claimed) ∧
      claimed.id = row.id ∧ claimed.leaseOwner = q.handle call ∧ Claimed q call row w.rows left := by
  unfold ExtractQueue.nextPending
  cases found : call.candidate seen with
  | none => exact .inl ⟨rfl, fun row none => by cases none⟩
  | some row =>
    dsimp only
    by_cases taken : ∃ old ∈ w.rows, call.due row.id old = true
    · right
      obtain ⟨old, hold, due⟩ := taken
      have once := Table.matchingKeyed keyed (fun other => dueKey) hold due
      have inside : q.claim call old ∈ Table.amend (call.due row.id) (q.claim call) w.rows :=
        Table.memAmend.mpr ⟨old, hold, (if_pos due).symm⟩
      have id : (q.claim call old).id = row.id := (show old.id = row.id from dueKey due)
      cases here : Table.find QueueRow.id row.id (Table.amend (call.due row.id) (q.claim call) w.rows) with
      | none => exact absurd id (Table.findNone.mp here _ inside)
      | some held =>
        refine ⟨row, _, ⟨held.id, held.payload, held.attempts, q.handle call, (q.handle call).leaseUntil,
          held.proposalJson, held.payloadHash = some (q.payloadHash held.payload true)⟩, rfl, ?_,
          (Table.findMem here).2, rfl, rfl, old, hold, due⟩
        rw [if_neg (not_not.mpr once)]
        rfl
    · left
      have none : ∀ old ∈ w.rows, call.due row.id old = false := fun old hold =>
        Bool.eq_false_iff.mpr fun due => taken ⟨old, hold, due⟩
      refine ⟨?_, fun other same => ?_⟩
      · rw [if_pos (by rw [Table.matchingNone none]; decide)]
      · cases same
        exact none

theorem claimFenced {old : QueueRow} {claim : Nat × ClaimedLeaseOwner} (same : old.id = claim.1) :
    (q.claim call old).fencedBy claim.1 (some (.claimed claim.2)) = true ↔ claim.2 = q.handle call := by
  obtain ⟨rowId, owner, expiry⟩ := claim
  unfold ExtractQueue.claim
  generalize q.handle call = handle
  obtain ⟨owner', expiry'⟩ := handle
  simp only [QueueRow.fencedBy, leaseFence, Option.any_some, Option.all_some, Bool.and_eq_true, decide_eq_true_eq,
    Option.some.injEq, ClaimedLeaseOwner.mk.injEq]
  constructor
  · rintro ⟨⟨-, rfl⟩, rfl⟩
    exact ⟨rfl, rfl⟩
  · rintro ⟨rfl, rfl⟩
    exact ⟨⟨⟨same, trivial⟩, rfl⟩, rfl⟩

theorem claimedHonours {left : List QueueRow} (keyed : Table.Unique QueueRow.id w.rows)
    (claimed : Claimed q call row w.rows left) {claim : Nat × ClaimedLeaseOwner} :
    Honours left claim ↔ (claim.1 = row.id ∧ claim.2 = q.handle call) ∨ (claim.1 ≠ row.id ∧ Honours w.rows claim) := by
  obtain ⟨rfl, old, hold, due⟩ := claimed
  have id := dueKey due
  constructor
  · rintro ⟨other, hother, fenced⟩
    obtain ⟨before, hbefore, rfl⟩ := Table.memAmend.mp hother
    split at fenced
    · rename_i taken
      have key := fencedKey fenced
      have same : before.id = claim.1 := key
      exact .inl ⟨same.symm.trans (dueKey taken), (claimFenced same).mp fenced⟩
    · rename_i spared
      refine .inr ⟨fun same => ?_, before, hbefore, fenced⟩
      have equal : before = old := Table.uniqueEq keyed hbefore hold ((fencedKey fenced).trans (same.trans id.symm))
      exact spared (equal ▸ due)
  · rintro (⟨same, handle⟩ | ⟨other, before, hbefore, fenced⟩)
    · refine ⟨q.claim call old, Table.memAmend.mpr ⟨old, hold, (if_pos due).symm⟩, ?_⟩
      exact (claimFenced (id.trans same.symm)).mpr handle
    · refine ⟨before, Table.memAmend.mpr ⟨before, hbefore, (if_neg fun taken => ?_).symm⟩, fenced⟩
      exact other ((fencedKey fenced).symm.trans (dueKey taken))

end Claims

/-! ## Runs -/

structure Shut (w : QueueWorld) : Prop where
  keyed : Table.Unique QueueRow.id w.rows
  earlier : w.issued.Pairwise fun earlier later => earlier.1 = later.1 → ¬Honours w.rows earlier

section Runs
variable {q : ExtractQueue} {w w' : QueueWorld}

theorem fencedOf (shut : Shut w) : Fenced q w where
  earlier := shut.earlier.imp fun unhonoured same => refusedOf (unhonoured same)
  single := shut.earlier.imp fun unhonoured same both => unhonoured same both.1

theorem shutOf (keyed : Table.Unique QueueRow.id w.rows) (fenced : Fenced q w) : Shut w where
  keyed := keyed
  earlier := fenced.earlier.imp fun refused same => (refusedIff keyed).mp (refused same)

theorem tightensShut {left : List QueueRow} (tightens : Tightens w.rows left) (shut : Shut w) :
    Shut { w with rows := left } where
  keyed := tightens.keyed shut.keyed
  earlier := shut.earlier.imp fun unhonoured same honoured => unhonoured same (tightens.honours _ honoured)

theorem claimedShut {call : ClaimCall} {row : QueueRow} {left : List QueueRow} (shut : Shut w)
    (claimed : Claimed q call row w.rows left) (apart : ∀ claim ∈ w.issued, claim.1 = row.id → claim.2 ≠ q.handle call) :
    Shut ⟨left, w.issued ++ [(row.id, q.handle call)]⟩ where
  keyed := by
    obtain ⟨rfl, -⟩ := claimed
    exact Table.amendUnique (fun _ => rfl) shut.keyed
  earlier := by
    rw [List.pairwise_append]
    refine ⟨?_, List.pairwise_singleton _ _, ?_⟩
    · refine shut.earlier.imp_of_mem fun {earlier later} he _ unhonoured same honoured => ?_
      rcases (claimedHonours shut.keyed claimed).mp honoured with ⟨here, handle⟩ | ⟨-, before⟩
      · exact apart earlier he here handle
      · exact unhonoured same before
    · intro earlier he later last same honoured
      rw [List.mem_singleton.mp last] at same
      rcases (claimedHonours shut.keyed claimed).mp honoured with ⟨here, handle⟩ | ⟨other, -⟩
      · exact apart earlier he here handle
      · exact other same

theorem performShut {o : QueueCall} (fresh : NewFence q w o) (done : o.perform q w = .ok w') (shut : Shut w) :
    Shut w' := by
  cases o with
  | nextPending seen call =>
    rcases nextPendingSource (q := q) seen call shut.keyed with
      ⟨idle, -⟩ | ⟨row, left, found, candidate, taken, id, handle, claimed⟩
    · simp only [QueueCall.perform, idle] at done
      cases done
      simpa using shut
    · simp only [QueueCall.perform, taken] at done
      cases done
      have apart := fresh row candidate claimed.taken
      simpa [id, handle] using claimedShut shut claimed apart
  | saveProposals rowId proposals leaseOwner =>
    simp only [QueueCall.perform, bindOk] at done
    obtain ⟨answer, saved, last⟩ := done
    cases last
    exact tightensShut (saveProposalsTightens saved) shut
  | markDone rowId leaseOwner =>
    cases done
    exact tightensShut (markDoneTightens rowId leaseOwner) shut
  | markFailed seen rowId error maxAttempts leaseOwner now =>
    cases done
    exact tightensShut (markFailedTightens seen rowId error maxAttempts leaseOwner now) shut
  | markQuotaFailed seen rowId error notBefore leaseOwner now =>
    cases done
    exact tightensShut (markQuotaFailedTightens seen rowId error notBefore leaseOwner now) shut
  | releaseClaim rowId leaseOwner =>
    cases done
    exact tightensShut (releaseClaimTightens rowId leaseOwner) shut

theorem repeatedUnshut {o : QueueCall} (shut : Shut w) (stale : ¬NewFence q w o) :
    ¬Shut (Run.attempt (QueueCall.perform q) w o) := by
  cases o with
  | nextPending seen call =>
    simp only [NewFence, not_forall, not_not] at stale
    obtain ⟨row, candidate, ⟨old, hold, due⟩, claim, issued, same, handle⟩ := stale
    rcases nextPendingSource (q := q) seen call shut.keyed with
      ⟨-, idle⟩ | ⟨row', left, found, candidate', taken, id, handle', claimed⟩
    · rw [idle row candidate old hold] at due
      cases due
    · obtain rfl := Option.some.inj (candidate.symm.trans candidate')
      intro again
      simp only [Run.attempt, QueueCall.perform, taken] at again
      have pair := (List.pairwise_append.mp again.earlier).2.2 claim issued (found.id, found.leaseOwner) (by simp)
      exact pair (same.trans id.symm) ((claimedHonours shut.keyed claimed).mpr (.inl ⟨same, handle⟩))
  | saveProposals => exact absurd trivial stale
  | markDone => exact absurd trivial stale
  | markFailed => exact absurd trivial stale
  | markQuotaFailed => exact absurd trivial stale
  | releaseClaim => exact absurd trivial stale

theorem performKeys {o : QueueCall} (done : o.perform q w = .ok w') (keyed : Table.Unique QueueRow.id w.rows) :
    Table.Unique QueueRow.id w'.rows := by
  cases o with
  | nextPending seen call =>
    rcases nextPendingSource (q := q) seen call keyed with
      ⟨idle, -⟩ | ⟨row, left, found, -, taken, -, -, claimed⟩
    · simp only [QueueCall.perform, idle] at done
      cases done
      exact keyed
    · simp only [QueueCall.perform, taken] at done
      cases done
      obtain ⟨rfl, -⟩ := claimed
      exact Table.amendUnique (fun _ => rfl) keyed
  | saveProposals rowId proposals leaseOwner =>
    simp only [QueueCall.perform, bindOk] at done
    obtain ⟨answer, saved, last⟩ := done
    cases last
    exact (saveProposalsTightens saved).keyed keyed
  | markDone rowId leaseOwner =>
    cases done
    exact (markDoneTightens rowId leaseOwner).keyed keyed
  | markFailed seen rowId error maxAttempts leaseOwner now =>
    cases done
    exact (markFailedTightens seen rowId error maxAttempts leaseOwner now).keyed keyed
  | markQuotaFailed seen rowId error notBefore leaseOwner now =>
    cases done
    exact (markQuotaFailedTightens seen rowId error notBefore leaseOwner now).keyed keyed
  | releaseClaim rowId leaseOwner =>
    cases done
    exact (releaseClaimTightens rowId leaseOwner).keyed keyed

variable (q) in
/-- Every state of a run shuts out the earlier claims of each row just when every claim of the run has a
fence of its own. -/
theorem claimsFenced {rows : List QueueRow} (keyed : Table.Unique QueueRow.id rows) (calls : List QueueCall) :
    (∀ done, done <+: calls → Fenced q (Run.run (QueueCall.perform q) ⟨rows, []⟩ done)) ↔
      Run.Meets (QueueCall.perform q) (NewFence q) ⟨rows, []⟩ calls := by
  have start : Shut ⟨rows, []⟩ := ⟨keyed, List.Pairwise.nil⟩
  rw [← Run.throughout (fun w o w' fresh done shut => performShut fresh done shut)
    (fun w o shut stale => repeatedUnshut shut stale) start]
  refine forall_congr' fun done => forall_congr' fun _ => ⟨shutOf ?_, fencedOf⟩
  exact Run.invariant (P := fun w => Table.Unique QueueRow.id w.rows) (s := ⟨rows, []⟩)
    (fun w o w' done keyed => performKeys done keyed) keyed

end Runs

namespace Example

def waiting : QueueRow where
  id := 1
  createdAt := "2026-01-03 00:00:00"
  payload := "user: the door code changed"
  status := .pending
  payloadHash := none
  attempts := 0
  lastError := none
  notBefore := none
  leaseOwner := none
  leaseUntil := none
  leaseToken := none
  proposalJson := none
  proposalHash := none

/-- Whole seconds are doubles. -/
def queue : ExtractQueue := ⟨.plain, ⟨fun _ => false, fun _ => [], fun _ => none, undoubledShape, undoubledExact⟩, id,
  fun _ => some 0⟩

def ask (now leaseSeconds : Rat) : ClaimCall := ⟨3, [], some "worker", leaseSeconds, now, ""⟩

def shortened (leaseSeconds : Rat) : List QueueCall :=
  [.nextPending [waiting] (ask 1000 600), .releaseClaim 1 (some (.claimed ⟨"worker", 1600⟩)),
    .nextPending [waiting] (ask 1100 leaseSeconds)]

theorem waitingFenced :
    Fenced queue (Run.run (QueueCall.perform queue) ⟨[waiting], []⟩ (shortened 600)) := by
  refine (@claimsFenced queue [waiting] (List.nodup_singleton _) (shortened 600)).mpr ⟨?_, trivial, ?_, trivial⟩
    _ (List.prefix_refl _)
  · intro row _ _ claim none
    cases none
  · have later : ∀ claim ∈ (Run.run (QueueCall.perform queue) ⟨[waiting], []⟩ ((shortened 600).take 2)).issued,
        claim.2 ≠ queue.handle (ask 1100 600) := by decide +kernel
    exact fun row _ _ claim issued _ => later claim issued

-- the second lease ends where the first one did, and the first handle finishes the row
theorem sameEndHonoured : ¬∀ calls : List QueueCall, (∀ o ∈ calls, ∀ seen call, o = .nextPending seen call →
    0 < call.leaseSeconds) → Fenced queue (Run.run (QueueCall.perform queue) ⟨[waiting], []⟩ calls) := by
  intro fenced
  have leases : ∀ o ∈ shortened 500, ∀ seen call, o = .nextPending seen call → 0 < call.leaseSeconds := by
    intro o inside seen call same
    simp only [shortened, List.mem_cons, List.not_mem_nil, or_false] at inside
    rcases inside with rfl | rfl | rfl
    · cases same
      decide
    · cases same
    · cases same
      decide
  have earlier := (fenced (shortened 500) leases).earlier
  have issued : (Run.run (QueueCall.perform queue) ⟨[waiting], []⟩ (shortened 500)).issued =
      [(1, ⟨"worker", 1600⟩), (1, ⟨"worker", 1600⟩)] := by decide +kernel
  have finished : (markDone (Run.run (QueueCall.perform queue) ⟨[waiting], []⟩ (shortened 500)).rows 1
      (some (.claimed ⟨"worker", 1600⟩))).2 = true := by decide +kernel
  rw [issued] at earlier
  have refused := (List.pairwise_cons.mp earlier).1 _ List.mem_cons_self rfl
  rw [refused.done] at finished
  cases finished

end Example
end Enfold.ExtractQueue
