import Enfold.ExtractionFencing

/-! The attempts of an extraction job: a claim takes one, a recorded failure may give it back, and a
row at the limit is dead. Runs carry the claims and the refunds they made, the latest first. -/
namespace Enfold

open Fallible

variable {rt : Runtime} {s t : Store}

inductive QueueEvent where
  | taken (rowId : Nat)
  | refunded (rowId : Nat)
  deriving DecidableEq

/-- A failure that does not consume its attempt, as a rate limit does not. -/
def ExtractionFailure.refunds (failure : ExtractionFailure) : Bool :=
  !failure.consumesAttempt && !failure.permanent

def ExtractionFailure.left (failure : ExtractionFailure) (attempts : Nat) : Nat :=
  if failure.refunds then attempts - 1 else attempts

def QueueRow.Unleased (row : QueueRow) : Prop :=
  row.leaseOwner = none ∧ row.leaseUntil = none ∧ row.leaseToken = none

def QueueRow.Leased (row : QueueRow) : Prop :=
  row.leaseOwner.isSome ∧ row.leaseUntil.isSome ∧ row.leaseToken.isSome

/-- The three shapes a row has under a limit of attempts. -/
def QueueRow.Shaped (maxAttempts : Nat) (row : QueueRow) : Prop :=
  match row.status with
  | .pending => row.attempts < maxAttempts ∧ row.Unleased
  | .processing => row.Leased ∧ 1 ≤ row.attempts ∧ row.attempts ≤ maxAttempts
  | .dead => row.Unleased

/-- Attempts, and the claims of a row less its refunds. -/
def QueueRow.Tallied (events : List QueueEvent) (row : QueueRow) : Prop :=
  row.attempts + events.count (.refunded row.id) = events.count (.taken row.id)

-- a row as its queue had it, but for its texts and the end of its lease
structure QueueRow.Alike (old row : QueueRow) : Prop where
  id : row.id = old.id
  status : row.status = old.status
  attempts : row.attempts = old.attempts
  owner : row.leaseOwner = old.leaseOwner
  until' : row.leaseUntil.isSome = old.leaseUntil.isSome
  token : row.leaseToken = old.leaseToken

theorem alikeSelf {row : QueueRow} : row.Alike row := ⟨rfl, rfl, rfl, rfl, rfl, rfl⟩

section Rows
variable {m : Nat} {old row : QueueRow} {events : List QueueEvent} {lease : ExtractionLease}

theorem alikeShaped (alike : old.Alike row) (shaped : old.Shaped m) : row.Shaped m := by
  have cleared : old.leaseUntil = none → row.leaseUntil = none := by
    intro none'
    have same := alike.until'
    rw [none'] at same
    exact Option.not_isSome_iff_eq_none.mp (by simp [same])
  unfold QueueRow.Shaped QueueRow.Unleased QueueRow.Leased at *
  rw [alike.status, alike.attempts, alike.owner, alike.token, alike.until']
  cases h : old.status with
  | pending =>
    rw [h] at shaped
    exact ⟨shaped.1, shaped.2.1, cleared shaped.2.2.1, shaped.2.2.2⟩
  | processing =>
    rw [h] at shaped
    exact shaped
  | dead =>
    rw [h] at shaped
    exact ⟨shaped.1, cleared shaped.2.1, shaped.2.2⟩

theorem alikeTallied (alike : old.Alike row) (tallied : old.Tallied events) : row.Tallied events := by
  unfold QueueRow.Tallied at *
  rw [alike.id, alike.attempts]
  exact tallied

theorem alikeOwned (alike : old.Alike row) : row.ownedBy lease = old.ownedBy lease := by
  unfold QueueRow.ownedBy
  rw [alike.id, alike.owner, alike.token]

theorem ownedSource (owned : row.ownedBy lease = true) : row.id = lease.rowId ∧
    row.leaseOwner = some lease.workerId ∧ row.leaseToken = some lease.leaseToken := by
  simp only [QueueRow.ownedBy, Bool.and_eq_true, decide_eq_true_eq] at owned
  exact ⟨owned.1.1, owned.1.2, owned.2⟩

theorem unleasedUnowned (unleased : row.Unleased) : row.ownedBy lease = false := by
  cases owned : row.ownedBy lease with
  | false => rfl
  | true =>
    have token := (ownedSource owned).2.2
    rw [unleased.2.2] at token
    cases token

-- a row that carries a lease is being processed
theorem ownedShaped (shaped : row.Shaped m) (owned : row.ownedBy lease = true) :
    row.status = .processing ∧ 1 ≤ row.attempts ∧ row.attempts ≤ m := by
  have held : ¬ row.Unleased := fun unleased => by
    rw [unleasedUnowned unleased] at owned
    cases owned
  unfold QueueRow.Shaped at shaped
  split at shaped
  · exact absurd shaped.2 held
  · rename_i processing
    exact ⟨processing, shaped.2⟩
  · exact absurd shaped held

theorem leasedShaped {attempts : Nat} {expiry : Rat} (some' : 1 ≤ attempts) (least : attempts ≤ m) :
    (row.lease lease attempts expiry).Shaped m := ⟨⟨rfl, rfl, rfl⟩, some', least⟩

theorem recordedShaped {failure : ExtractionFailure} {attempts : Nat} :
    (failure.record m attempts row).Shaped m := by
  unfold QueueRow.Shaped
  cases dead : failure.dead m attempts with
  | true => simp [ExtractionFailure.record, dead, QueueRow.Unleased]
  | false =>
    have below : attempts < m := by
      simp only [ExtractionFailure.dead, Bool.or_eq_false_iff, decide_eq_false_iff_not] at dead
      omega
    simpa [ExtractionFailure.record, dead, QueueRow.Unleased] using below

end Rows

/-! ## What a statement does to one row -/

theorem amendAlike {q : QueueRow → Bool} {g : QueueRow → QueueRow} {queue : List QueueRow}
    (kept : ∀ row, q row = true → row.Alike (g row)) :
    ∀ row ∈ Table.amend q g queue, ∃ old ∈ queue, old.Alike row := by
  intro row hr
  obtain ⟨old, hold, rfl⟩ := Table.memAmend.mp hr
  refine ⟨old, hold, ?_⟩
  split
  · rename_i hit
    exact kept old hit
  · exact alikeSelf

theorem performAlike {o : Operation rt} (spares : o.sparesQueue) (done : o.perform s = .ok t) :
    ∀ row ∈ t.queue, ∃ old ∈ s.queue, old.Alike row := by
  rcases performScrubs spares done with same | ⟨q, same⟩
  · rw [same]
    exact fun row hr => ⟨row, hr, alikeSelf⟩
  · rw [same]
    exact amendAlike fun _ _ => ⟨rfl, rfl, rfl, rfl, rfl, rfl⟩

theorem renewAlike {lease : ExtractionLease} {now seconds : Rat} :
    ∀ row ∈ (renewLease s lease now seconds).1.queue, ∃ old ∈ s.queue, old.Alike row := by
  refine amendAlike fun row live => ⟨rfl, rfl, rfl, rfl, ?_, rfl⟩
  cases ends : row.leaseUntil with
  | none => simp [ends] at live
  | some expiry => rfl

section Worker
variable {host : ExtractionHost rt} {p : ExtractionProcessor} {worker after : ExtractionWorker rt}
  {concluded : Option (Concluded rt)}

theorem concludedAlike {c : Concluded rt} (step : ExtractionWorkerStep host p s worker t after (some c)) :
    ∀ row ∈ t.queue, ∃ old ∈ s.queue, old.Alike row := by
  cases extractionEffect step with
  | concludes => exact fun row hr => ⟨row, (List.mem_filter.mp hr).1, alikeSelf⟩

theorem workAlike (quiet : ∀ job failure attempts, worker ≠ .recording job failure attempts)
    (step : ExtractionWorkerStep host p s worker t after concluded) :
    ∀ row ∈ t.queue, ∃ old ∈ s.queue, old.Alike row := by
  have still : ∀ row ∈ s.queue, ∃ old ∈ s.queue, old.Alike row := fun row hr => ⟨row, hr, alikeSelf⟩
  cases step with
  | renew => exact renewAlike
  | renewalLost => exact renewAlike
  | persist saved =>
    simp only [persistSnapshot, bindOk] at saved
    obtain ⟨-, -, last⟩ := saved
    cases last
    exact amendAlike fun _ _ => ⟨rfl, rfl, rfl, rfl, rfl, rfl⟩
  | @complete job round t done =>
    have whole : ExtractionWorkerStep host p s (.writing job round []) t .idle
        (some ⟨job.lease.rowId, [], []⟩) := .complete done
    exact concludedAlike whole
  | commit some' written committed =>
    exact concludedAlike (.commit some' written committed)
  | @refused job round pending readings t batch some' written refused fewer =>
    have writes : timed rt readings round pending ≠ [] := by
      simpa [timed] using some'
    rcases handleBatchSource writes written with ⟨-, rfl⟩ | ⟨committed, -⟩
    · exact still
    · rw [committed] at refused
      cases refused
  | record => exact absurd rfl (quiet _ _ _)
  | _ => exact still

-- only the read of the attempts comes before their record
theorem recordingRead {job : ClaimedExtraction} {failure : ExtractionFailure} {attempts : Nat}
    (step : ExtractionWorkerStep host p s worker t after concluded)
    (recording : after = .recording job failure attempts) :
    failedAttempts s job.lease failure = some attempts ∧ t = s := by
  cases step with
  | readAttempts read =>
    cases recording
    exact ⟨read, rfl⟩
  | _ => cases recording

theorem failedSource {lease : ExtractionLease} {failure : ExtractionFailure} {attempts : Nat}
    (unique : Table.Unique QueueRow.id s.queue) (read : failedAttempts s lease failure = some attempts) :
    ∀ row ∈ s.queue, row.ownedBy lease = true → attempts = failure.left row.attempts := by
  obtain ⟨found, here, rfl⟩ := Option.map_eq_some_iff.mp read
  intro row hr owned
  have leased := List.find?_some here
  simp only [QueueRow.leasedBy, Bool.and_eq_true, decide_eq_true_eq] at leased
  have same : found = row := Table.uniqueEq unique (List.mem_of_find?_eq_some here) hr
    (leased.1.1.1.trans (ownedSource owned).1.symm)
  rw [same]
  rfl

end Worker

/-! ## The claim -/

theorem firstQueuedSource {m : Nat} {now : Rat} {queue : List QueueRow} {row : QueueRow}
    (h : firstQueued m now queue = some row) : row ∈ queue ∧ row.due m now = true ∧
      ∀ other ∈ queue, other.due m now = true → row.id ≤ other.id := by
  obtain ⟨rest, sorted⟩ := List.head?_eq_some_iff.mp h
  have inside : ∀ other, other ∈ row :: rest ↔ other ∈ queue ∧ other.due m now = true := by
    intro other
    rw [← sorted, List.mem_insertionSort, List.mem_filter]
  have ordered := List.pairwise_insertionSort (fun a b : QueueRow => a.id ≤ b.id)
    (queue.filter (QueueRow.due m now))
  rw [sorted] at ordered
  obtain ⟨mem, due⟩ := (inside row).mp List.mem_cons_self
  refine ⟨mem, due, fun other hother ready => ?_⟩
  rcases List.mem_cons.mp ((inside other).mpr ⟨hother, ready⟩) with rfl | later
  · exact Nat.le_refl _
  · exact (List.pairwise_cons.mp ordered).1 other later

theorem firstQueuedNone {m : Nat} {now : Rat} {queue : List QueueRow} (h : firstQueued m now queue = none) :
    ∀ row ∈ queue, row.due m now = false := by
  intro row hr
  have empty := List.head?_eq_none_iff.mp h
  cases due : row.due m now with
  | false => rfl
  | true =>
    have inside : row ∈ (queue.filter (QueueRow.due m now)).insertionSort fun a b => a.id ≤ b.id :=
      (List.mem_insertionSort _).mpr (List.mem_filter.mpr ⟨hr, due⟩)
    rw [empty] at inside
    exact absurd inside List.not_mem_nil

def ExtractionProcessor.retired (p : ExtractionProcessor) (now : Rat) (queue : List QueueRow) :
    List QueueRow :=
  Table.amend (QueueRow.exhausted p.maxAttempts now) QueueRow.bury queue

def ExtractionProcessor.take (p : ExtractionProcessor) (now : Rat) (token : String) (row : QueueRow) :
    QueueRow :=
  row.lease ⟨row.id, p.workerId, token⟩ (row.attempts + 1) (now + p.leaseSeconds)

def ExtractionProcessor.claimedJob (rt : Runtime) (p : ExtractionProcessor) (token : String)
    (row : QueueRow) : ClaimedExtraction :=
  ⟨⟨row.id, p.workerId, token⟩, row.payload, row.digest rt, row.attempts + 1⟩

section Claim
variable {p : ExtractionProcessor} {now : Rat} {token : String}

theorem retiredUnique (p : ExtractionProcessor) (now : Rat) (unique : Table.Unique QueueRow.id s.queue) :
    Table.Unique QueueRow.id (p.retired now s.queue) := Table.amendUnique (fun _ => rfl) unique

theorem claimSource (rt : Runtime) (p : ExtractionProcessor) (now : Rat) (token : String)
    (unique : Table.Unique QueueRow.id s.queue) :
    (∃ row, firstQueued p.maxAttempts now (p.retired now s.queue) = some row ∧
      p.claim rt s now token = .ok
        ({ s with
            queue := Table.amend (fun other => other.id = row.id) (p.take now token)
              (p.retired now s.queue) },
          some (p.claimedJob rt token row))) ∨
    firstQueued p.maxAttempts now (p.retired now s.queue) = none ∧
      p.claim rt s now token = .ok ({ s with queue := p.retired now s.queue }, none) := by
  unfold ExtractionProcessor.claim
  cases found : firstQueued p.maxAttempts now (p.retired now s.queue) with
  | none =>
    refine .inr ⟨rfl, ?_⟩
    unfold ExtractionProcessor.retired at found ⊢
    dsimp only
    rw [found]
  | some row =>
    obtain ⟨inside, due, -⟩ := firstQueuedSource found
    have below : decide (row.attempts < p.maxAttempts) = true := by
      simp only [QueueRow.due, Bool.and_eq_true] at due
      exact due.1.1
    have unique' := retiredUnique p now unique
    have one : Table.matching (fun other : QueueRow => decide (other.id = row.id) &&
        decide (other.attempts < p.maxAttempts)) (p.retired now s.queue) = 1 :=
      Table.matchingKeyed unique' (fun r hit => of_decide_eq_true (Bool.and_eq_true _ _ |>.mp hit).1)
        inside (by simp only [decide_true, Bool.true_and, below])
    refine .inl ⟨row, rfl, ?_⟩
    have same : Table.amend (fun other : QueueRow => decide (other.id = row.id) &&
        decide (other.attempts < p.maxAttempts))
          (QueueRow.lease ⟨row.id, p.workerId, token⟩ (row.attempts + 1) (now + p.leaseSeconds))
          (p.retired now s.queue) =
        Table.amend (fun other => other.id = row.id) (p.take now token) (p.retired now s.queue) := by
      rw [Table.amendByKey unique' inside below]
      refine Table.amendCongr fun other hother => ?_
      by_cases here : other.id = row.id
      · rw [Table.uniqueEq unique' hother inside here]
        rfl
      · simp [here]
    unfold ExtractionProcessor.retired at found one same ⊢
    dsimp only
    rw [found]
    dsimp only
    rw [one, same]
    rfl

-- a row after a claim: the one taken, one retired, or one the claim did not touch
theorem claimLeaves (unique : Table.Unique QueueRow.id s.queue) {taken : Option ClaimedExtraction}
    (done : p.claim rt s now token = .ok (t, taken)) :
    (∀ job, taken = some job → job.lease.leaseToken = token ∧ ∃ old ∈ s.queue, old.id = job.lease.rowId) ∧
    ∀ row ∈ t.queue, ∃ old ∈ s.queue, row.id = old.id ∧
      ((∃ job, taken = some job ∧ job.lease.rowId = old.id ∧ old.attempts < p.maxAttempts ∧
          row.attempts = old.attempts + 1 ∧ row.Shaped p.maxAttempts ∧ row.leaseToken = some token) ∨
        (∀ job, taken = some job → job.lease.rowId ≠ old.id) ∧
          (row = old ∨ row.attempts = old.attempts ∧ row.status = .dead ∧ row.Unleased)) := by
  have mids : ∀ mid ∈ p.retired now s.queue, ∃ old ∈ s.queue, mid.id = old.id ∧
      mid.attempts = old.attempts ∧ (mid = old ∨ mid.status = .dead ∧ mid.Unleased) := by
    intro mid hmid
    obtain ⟨old, hold, rfl⟩ := Table.memAmend.mp hmid
    refine ⟨old, hold, ?_⟩
    split
    · exact ⟨rfl, rfl, .inr ⟨rfl, rfl, rfl, rfl⟩⟩
    · exact ⟨rfl, rfl, .inl rfl⟩
  rcases claimSource rt p now token unique with
    ⟨first, found, answer⟩ | ⟨-, answer⟩
  · rw [done] at answer
    cases answer
    obtain ⟨here, due, -⟩ := firstQueuedSource found
    have below : first.attempts < p.maxAttempts := by
      simp only [QueueRow.due, Bool.and_eq_true, decide_eq_true_eq] at due
      exact due.1.1
    obtain ⟨old, hold, id, attempts, -⟩ := mids first here
    refine ⟨fun job same => ?_, fun row hr => ?_⟩
    · cases same
      exact ⟨rfl, old, hold, id.symm⟩
    · obtain ⟨mid, hmid, rfl⟩ := Table.memAmend.mp hr
      by_cases mine : mid.id = first.id
      · have same : mid = first := Table.uniqueEq (retiredUnique _ _ unique) hmid here mine
        subst same
        rw [if_pos (by simp)]
        exact ⟨old, hold, id, .inl ⟨_, rfl, id, by omega, by rw [← attempts]; rfl,
          leasedShaped (by omega) (by omega), rfl⟩⟩
      · obtain ⟨other, hother, id', attempts', kept⟩ := mids mid hmid
        rw [if_neg (by simpa using mine)]
        refine ⟨other, hother, id', .inr ⟨fun job same => ?_, kept.imp_right fun dead => ⟨attempts', dead⟩⟩⟩
        cases same
        rw [← id']
        exact Ne.symm mine
  · rw [done] at answer
    cases answer
    refine ⟨nofun, fun row hr => ?_⟩
    obtain ⟨old, hold, id, attempts, kept⟩ := mids row hr
    exact ⟨old, hold, id, .inr ⟨nofun, kept.imp_right fun dead => ⟨attempts, dead⟩⟩⟩

end Claim

/-! ## Runs with their claims and refunds -/

section Runs
variable (host : ExtractionHost rt) (procs : Nat → ExtractionProcessor)

inductive CountedStep : ExtractionSystem rt → List QueueEvent → ExtractionSystem rt → Prop
  | claim {sys w now token t taken} (idle : sys.workers w = .idle) (fresh : token ∉ sys.issued)
      (done : (procs w).claim rt sys.store now token = .ok (t, taken)) :
      CountedStep sys (taken.toList.map fun job => .taken job.lease.rowId)
        { sys.set w t (claimedExtraction taken) none with issued := token :: sys.issued }
  | work {sys w t worker concluded}
      (quiet : ∀ job failure attempts, sys.workers w ≠ .recording job failure attempts)
      (step : ExtractionWorkerStep host (procs w) sys.store (sys.workers w) t worker concluded) :
      CountedStep sys [] (sys.set w t worker concluded)
  | record {sys w job failure attempts} (recording : sys.workers w = .recording job failure attempts) :
      CountedStep sys
        (if (recordFailure sys.store job.lease failure (procs w).maxAttempts attempts).2 && failure.refunds
          then [.refunded job.lease.rowId] else [])
        (sys.set w (recordFailure sys.store job.lease failure (procs w).maxAttempts attempts).1 .idle none)
  | crash {sys w} : CountedStep sys [] (sys.set w sys.store .idle none)
  | enqueue {sys payload createdAt t queueId replayed}
      (done : enqueueExtraction rt sys.store sys.nextQueueId payload createdAt = (t, queueId, replayed)) :
      CountedStep sys [] { sys with
        store := t
        nextQueueId := if replayed then sys.nextQueueId else sys.nextQueueId + 1 }
  | memory {sys t} (o : Operation rt) (spares : o.sparesQueue) (done : o.perform sys.store = .ok t) :
      CountedStep sys [] { sys with store := t }

inductive CountedRun : ExtractionSystem rt → List QueueEvent → ExtractionSystem rt → Prop
  | refl {sys} : CountedRun sys [] sys
  | step {sys events mid made last} (before : CountedRun sys events mid)
      (next : CountedStep host procs mid made last) : CountedRun sys (made ++ events) last

variable {host procs} {sys next last : ExtractionSystem rt}

theorem countedPlain {made : List QueueEvent} (step : CountedStep host procs sys made next) :
    ExtractionStep host procs sys next := by
  cases step with
  | claim idle fresh done => exact .claim idle fresh done
  | work quiet step => exact .work step
  | @record w job failure attempts recording =>
    exact .work (recording ▸ ExtractionWorkerStep.record)
  | crash => exact .work .crash
  | enqueue done => exact .enqueue done
  | memory o spares done => exact .memory o spares done

theorem stepCounted (step : ExtractionStep host procs sys next) :
    ∃ made, CountedStep host procs sys made next := by
  cases step with
  | claim idle fresh done => exact ⟨_, .claim idle fresh done⟩
  | @work w t worker concluded step =>
    by_cases recording : ∃ job failure attempts, sys.workers w = .recording job failure attempts
    · obtain ⟨job, failure, attempts, recording⟩ := recording
      have here := step
      rw [recording] at here
      cases here with
      | record => exact ⟨_, .record recording⟩
      | crash => exact ⟨_, .crash⟩
      | raises busy guarded => cases guarded
    · exact ⟨[], .work (fun job failure attempts same => recording ⟨job, failure, attempts, same⟩) step⟩
  | enqueue done => exact ⟨_, .enqueue done⟩
  | memory o spares done => exact ⟨_, .memory o spares done⟩

/-- Every run has its claims and refunds. -/
theorem runCounted (run : ExtractionRun host procs sys last) :
    ∃ events, CountedRun host procs sys events last := by
  induction run with
  | refl => exact ⟨[], .refl⟩
  | step before next ih =>
    obtain ⟨events, before⟩ := ih
    obtain ⟨made, next⟩ := stepCounted next
    exact ⟨made ++ events, .step before next⟩

/-- What every reachable system keeps, beside what `Tracked` says; the attempts a processor is about
to record are those its row still has. -/
structure Counted (m : Nat) (sys : ExtractionSystem rt) (events : List QueueEvent) : Prop where
  tracked : Tracked sys
  shaped : ∀ row ∈ sys.store.queue, row.Shaped m
  tallied : ∀ row ∈ sys.store.queue, row.Tallied events
  known : ∀ k, QueueEvent.taken k ∈ events ∨ QueueEvent.refunded k ∈ events → k < sys.nextQueueId
  read : ∀ w job failure attempts, sys.workers w = .recording job failure attempts →
    ∀ row ∈ sys.store.queue, row.ownedBy job.lease = true → attempts = failure.left row.attempts

section Invariant
variable {m : Nat} {events made : List QueueEvent}

theorem countedInitial : Counted m (.initial rt : ExtractionSystem rt) [] where
  tracked := trackedInitial
  shaped _ hr := absurd hr List.not_mem_nil
  tallied _ hr := absurd hr List.not_mem_nil
  known _ seen := by simp at seen
  read _ _ _ _ recording := nomatch recording

theorem setRecording {w v : Nat} (store : Store) {worker : ExtractionWorker rt}
    (concluded : Option (Concluded rt)) {job : ClaimedExtraction} {failure : ExtractionFailure}
    {attempts : Nat}
    (recording : (sys.set w store worker concluded).workers v = .recording job failure attempts) :
    (v = w ∧ worker = .recording job failure attempts) ∨
      sys.workers v = .recording job failure attempts := by
  change (if v = w then worker else sys.workers v) = _ at recording
  by_cases here : v = w
  · rw [if_pos here] at recording
    exact .inl ⟨here, recording⟩
  · rw [if_neg here] at recording
    exact .inr recording

-- a step that leaves every row as it was, with what it read of its own row
theorem countedAlike (counted : Counted m sys events) (step : CountedStep host procs sys [] next)
    (alike : ∀ row ∈ next.store.queue, ∃ old ∈ sys.store.queue, old.Alike row)
    (bound : sys.nextQueueId = next.nextQueueId)
    (read : ∀ w job failure attempts, next.workers w = .recording job failure attempts →
      sys.workers w = .recording job failure attempts ∨
        ∀ row ∈ sys.store.queue, row.ownedBy job.lease = true → attempts = failure.left row.attempts) :
    Counted m next events where
  tracked := trackedStep counted.tracked (countedPlain step)
  shaped row hr := by
    obtain ⟨old, hold, same⟩ := alike row hr
    exact alikeShaped same (counted.shaped old hold)
  tallied row hr := by
    obtain ⟨old, hold, same⟩ := alike row hr
    exact alikeTallied same (counted.tallied old hold)
  known k seen := bound ▸ counted.known k seen
  read w job failure attempts recording row hr owned := by
    obtain ⟨old, hold, same⟩ := alike row hr
    rw [alikeOwned same] at owned
    rw [same.attempts]
    rcases read w job failure attempts recording with before | now
    · exact counted.read w job failure attempts before old hold owned
    · exact now old hold owned

theorem countedClaim (counted : Counted m sys events) {w : Nat} {now : Rat} {token : String}
    {taken : Option ClaimedExtraction} (limit : (procs w).maxAttempts = m) (fresh : token ∉ sys.issued)
    (done : (procs w).claim rt sys.store now token = .ok (t, taken)) :
    (∀ row ∈ t.queue, row.Shaped m ∧
      row.Tallied (taken.toList.map (fun job => .taken job.lease.rowId) ++ events)) ∧
    (∀ k, QueueEvent.taken k ∈ taken.toList.map (fun job => QueueEvent.taken job.lease.rowId) →
      k < sys.nextQueueId) ∧
    ∀ v job failure attempts, sys.workers v = .recording job failure attempts →
      ∀ row ∈ t.queue, row.ownedBy job.lease = true → attempts = failure.left row.attempts := by
  obtain ⟨own, rows⟩ := claimLeaves counted.tracked.ids done
  refine ⟨fun row hr => ?_, fun k seen => ?_, fun v job failure attempts recording row hr owned => ?_⟩
  · obtain ⟨old, hold, id, ⟨job, rfl, here, -, attempts, shaped, -⟩ | ⟨other, left⟩⟩ := rows row hr
    · have before := counted.tallied old hold
      refine ⟨limit ▸ shaped, ?_⟩
      simp only [QueueRow.Tallied, id, attempts, Option.toList_some, List.map_cons, List.map_nil,
        List.singleton_append, here, List.count_cons_self] at before ⊢
      rw [List.count_cons_of_ne (by simp)]
      omega
    · have same : row.attempts = old.attempts := by
        rcases left with rfl | dead
        · rfl
        · exact dead.1
      refine ⟨?_, ?_⟩
      · rcases left with rfl | ⟨-, dead, unleased⟩
        · exact counted.shaped row hold
        · unfold QueueRow.Shaped
          rw [dead]
          exact unleased
      · have before := counted.tallied old hold
        unfold QueueRow.Tallied at before ⊢
        rw [id, same]
        cases taken with
        | none => exact before
        | some job =>
          have ne := other job rfl
          simp only [Option.toList_some, List.map_cons, List.map_nil, List.singleton_append]
          rw [List.count_cons_of_ne (by simp), List.count_cons_of_ne (by simpa using ne)]
          exact before
  · obtain ⟨job, same, rfl⟩ : ∃ job, taken = some job ∧ job.lease.rowId = k := by
      simpa [Option.mem_toList] using seen
    obtain ⟨-, old, hold, id⟩ := own job same
    exact id ▸ counted.tracked.bound old hold
  · have issued := counted.tracked.workers v job (by rw [recording]; rfl)
    obtain ⟨-, -, token'⟩ := ownedSource owned
    obtain ⟨old, hold, -, ⟨-, -, -, -, -, -, new⟩ | ⟨-, rfl | ⟨-, -, unleased⟩⟩⟩ := rows row hr
    · rw [new] at token'
      rw [← Option.some.inj token'] at issued
      exact absurd issued fresh
    · exact counted.read v job failure attempts recording row hold owned
    · rw [unleasedUnowned unleased] at owned
      cases owned

theorem countedRecord (counted : Counted m sys events) {w : Nat} {job : ClaimedExtraction}
    {failure : ExtractionFailure} {attempts : Nat}
    (recording : sys.workers w = .recording job failure attempts) :
    let recorded := recordFailure sys.store job.lease failure m attempts
    let made := if recorded.2 && failure.refunds then [QueueEvent.refunded job.lease.rowId] else []
    (∀ row ∈ recorded.1.queue, row.Shaped m ∧ row.Tallied (made ++ events)) ∧
    (∀ k, QueueEvent.refunded k ∈ made → k < sys.nextQueueId) ∧ (∀ k, QueueEvent.taken k ∉ made) ∧
    ∀ row ∈ recorded.1.queue, row ∈ sys.store.queue ∨ row.Unleased := by
  intro recorded made
  have hit : ∀ old ∈ sys.store.queue, old.ownedBy job.lease = true → recorded.2 = true := by
    intro old hold owned
    have one : Table.matching (QueueRow.ownedBy job.lease) sys.store.queue = 1 :=
      Table.matchingKeyed counted.tracked.ids (fun row owned => (ownedSource owned).1) hold owned
    exact decide_eq_true one
  have back : recorded.2 = true → ∃ old ∈ sys.store.queue, old.ownedBy job.lease = true := by
    intro one
    exact Table.matchingPos (of_decide_eq_true one)
  refine ⟨fun row hr => ?_, fun k seen => ?_, fun k seen => ?_, fun row hr => ?_⟩
  · obtain ⟨old, hold, rfl⟩ := Table.memAmend.mp hr
    have before := counted.tallied old hold
    cases owned : old.ownedBy job.lease with
    | true =>
      rw [if_pos rfl]
      refine ⟨recordedShaped, ?_⟩
      have read := counted.read w job failure attempts recording old hold owned
      have some' := (ownedShaped (counted.shaped old hold) owned).2.1
      have id := (ownedSource owned).1
      have counts : made = if failure.refunds then [QueueEvent.refunded job.lease.rowId] else [] := by
        simp only [made, hit old hold owned, Bool.true_and]
      show attempts + (made ++ events).count (.refunded old.id) = (made ++ events).count (.taken old.id)
      unfold QueueRow.Tallied at before
      unfold ExtractionFailure.left at read
      cases refunds : failure.refunds with
      | true =>
        simp only [refunds, if_true] at counts read
        rw [counts, read, id, List.singleton_append, List.count_cons_self,
          List.count_cons_of_ne (by simp)]
        rw [id] at before
        omega
      | false =>
        simp only [refunds, Bool.false_eq_true, if_false] at counts read
        rw [counts, read]
        exact before
    | false =>
      rw [if_neg (by simp)]
      refine ⟨counted.shaped old hold, ?_⟩
      have other : made = [] ∨ ∃ k, made = [.refunded k] ∧ k ≠ old.id := by
        by_cases refunded : recorded.2 && failure.refunds
        · refine .inr ⟨_, if_pos refunded, fun same => ?_⟩
          obtain ⟨mine, hmine, owned'⟩ := back (Bool.and_eq_true _ _ |>.mp refunded).1
          have equal : mine = old := Table.uniqueEq counted.tracked.ids hmine hold
            ((ownedSource owned').1.trans same)
          rw [equal, owned] at owned'
          cases owned'
        · exact .inl (if_neg refunded)
      rcases other with none' | ⟨k, single, ne⟩
      · rw [none']
        exact before
      · unfold QueueRow.Tallied at before ⊢
        rw [single, List.singleton_append, List.count_cons_of_ne (by simpa using ne),
          List.count_cons_of_ne (by simp)]
        exact before
  · by_cases refunded : recorded.2 && failure.refunds
    · have single : made = [.refunded job.lease.rowId] := if_pos refunded
      rw [single, List.mem_singleton] at seen
      cases seen
      obtain ⟨mine, hmine, owned⟩ := back (Bool.and_eq_true _ _ |>.mp refunded).1
      exact (ownedSource owned).1 ▸ counted.tracked.bound mine hmine
    · have none' : made = [] := if_neg refunded
      rw [none'] at seen
      cases seen
  · have shape : made = [.refunded job.lease.rowId] ∨ made = [] := ite_eq_or_eq _ _ _
    rcases shape with single | none'
    · rw [single] at seen
      simp at seen
    · rw [none'] at seen
      cases seen
  · obtain ⟨old, hold, rfl⟩ := Table.memAmend.mp hr
    split
    · exact .inr ⟨rfl, rfl, rfl⟩
    · exact .inl hold

theorem enqueuedRow {nextQueueId queueId : Nat} {payload createdAt : String} {replayed : Bool}
    (h : enqueueExtraction rt s nextQueueId payload createdAt = (t, queueId, replayed)) :
    (replayed = true ∧ t = s) ∨ (replayed = false ∧ ∃ row : QueueRow, row.id = nextQueueId ∧
      row.status = .pending ∧ row.attempts = 0 ∧ row.Unleased ∧ t.queue = s.queue ++ [row]) := by
  unfold enqueueExtraction at h
  dsimp only at h
  split at h
  · cases h
    exact .inl ⟨rfl, rfl⟩
  · cases h
    exact .inr ⟨rfl, _, rfl, rfl, rfl, ⟨rfl, rfl, rfl⟩, rfl⟩

theorem countedStep (limit : ∀ w, (procs w).maxAttempts = m) (some' : 0 < m)
    (counted : Counted m sys events) (step : CountedStep host procs sys made next) :
    Counted m next (made ++ events) := by
  have tracked := trackedStep counted.tracked (countedPlain step)
  cases step with
  | @claim w now token t taken idle fresh done =>
    obtain ⟨rows, bound, read⟩ := countedClaim counted (limit w) fresh done
    refine ⟨tracked, fun row hr => (rows row hr).1, fun row hr => (rows row hr).2, fun k seen => ?_,
      fun v job failure attempts recording => ?_⟩
    · simp only [List.mem_append] at seen
      rcases seen with (new | old) | (new | old)
      · exact bound k new
      · exact counted.known k (.inl old)
      · simp at new
      · exact counted.known k (.inr old)
    · rcases setRecording t none recording with ⟨-, new⟩ | old
      · cases taken <;> cases new
      · exact read v job failure attempts old
  | @work w t worker concluded quiet step =>
    refine countedAlike counted (.work quiet step) (workAlike quiet step) rfl
      fun v job failure attempts recording => ?_
    rcases setRecording t concluded recording with ⟨-, new⟩ | old
    · exact .inr (failedSource counted.tracked.ids (recordingRead step new).1)
    · exact .inl old
  | @record w job failure attempts recording =>
    obtain ⟨rows, bound, plain, kept⟩ := countedRecord counted recording
    rw [limit w] at tracked ⊢
    refine ⟨tracked, fun row hr => (rows row hr).1, fun row hr => (rows row hr).2, fun k seen => ?_,
      fun v job' failure' attempts' recording' row hr owned => ?_⟩
    · simp only [List.mem_append] at seen
      rcases seen with (new | old) | (new | old)
      · exact absurd new (plain k)
      · exact counted.known k (.inl old)
      · exact bound k new
      · exact counted.known k (.inr old)
    · rcases setRecording _ none recording' with ⟨-, new⟩ | old
      · cases new
      · rcases kept row hr with hold | unleased
        · exact counted.read v job' failure' attempts' old row hold owned
        · rw [unleasedUnowned unleased] at owned
          cases owned
  | @crash w =>
    have step : CountedStep host procs sys [] (sys.set w sys.store .idle none) := .crash
    refine countedAlike counted step (fun row hr => ⟨row, hr, alikeSelf⟩) rfl
      fun v job failure attempts recording => .inl ?_
    rcases setRecording _ none recording with ⟨-, new⟩ | old
    · cases new
    · exact old
  | @enqueue payload createdAt t queueId replayed done =>
    rcases enqueuedRow done with ⟨rfl, rfl⟩ | ⟨rfl, new, id, pending, none', unleased, queue⟩
    · exact ⟨tracked, counted.shaped, counted.tallied, counted.known, counted.read⟩
    · have unseen : QueueEvent.taken new.id ∉ events ∧ QueueEvent.refunded new.id ∉ events := by
        rw [id]
        exact ⟨fun seen => absurd (counted.known _ (.inl seen)) (Nat.lt_irrefl _),
          fun seen => absurd (counted.known _ (.inr seen)) (Nat.lt_irrefl _)⟩
      refine ⟨tracked, fun row hr => ?_, fun row hr => ?_, fun k seen => ?_,
        fun v job failure attempts recording row hr owned => ?_⟩
      · rcases List.mem_append.mp (queue ▸ hr) with hr | hr
        · exact counted.shaped row hr
        · rw [List.mem_singleton.mp hr]
          unfold QueueRow.Shaped
          rw [pending]
          exact ⟨none' ▸ some', unleased⟩
      · rcases List.mem_append.mp (queue ▸ hr) with hr | hr
        · exact counted.tallied row hr
        · rw [List.mem_singleton.mp hr]
          unfold QueueRow.Tallied
          rw [none', List.nil_append, List.count_eq_zero.mpr unseen.1, List.count_eq_zero.mpr unseen.2]
      · exact Nat.lt_succ_of_lt (counted.known k seen)
      · rcases List.mem_append.mp (queue ▸ hr) with hr | hr
        · exact counted.read v job failure attempts recording row hr owned
        · rw [List.mem_singleton.mp hr, unleasedUnowned unleased] at owned
          cases owned
  | @memory t o spares done =>
    have step : CountedStep host procs sys [] { sys with store := t } := .memory o spares done
    exact countedAlike counted step (performAlike spares done) rfl
      fun _ _ _ _ recording => .inl recording

theorem runKeepsCounted (limit : ∀ w, (procs w).maxAttempts = m) (some' : 0 < m)
    (run : CountedRun host procs (.initial rt) events sys) : Counted m sys events := by
  induction run with
  | refl => exact countedInitial
  | step before next ih => exact countedStep limit some' ih next

end Invariant

/-! ## No row waits forever -/

def QueueRow.Ripe (now : Rat) (row : QueueRow) : Prop :=
  (∀ instant, row.notBefore = some instant → instant ≤ now) ∧
    ∀ expiry, row.leaseUntil = some expiry → expiry ≤ now

def claimEach (rt : Runtime) (procs : Nat → ExtractionProcessor) (now : Rat) :
    List (Nat × String) → Store → Except Raised (Store × List ClaimedExtraction)
  | [], s => .ok (s, [])
  | (w, token) :: rest, s => do
    let (t, taken) ← (procs w).claim rt s now token
    let (u, jobs) ← claimEach rt procs now rest t
    .ok (u, taken.toList ++ jobs)

-- the rows due before a row
def QueueRow.before (m : Nat) (now : Rat) (row other : QueueRow) : Bool :=
  other.due m now && decide (other.id < row.id)

section Claims
variable {m : Nat} {now : Rat} {row : QueueRow}

theorem ripeShaped (shaped : row.Shaped m) (alive : row.status ≠ .dead) (ripe : row.Ripe now) :
    row.exhausted m now = true ∨ row.due m now = true := by
  have past : (row.notBefore.all fun instant => decide (instant ≤ now)) = true := by
    cases h : row.notBefore with
    | none => rfl
    | some instant => exact decide_eq_true (ripe.1 instant h)
  unfold QueueRow.Shaped at shaped
  split at shaped
  · rename_i pending
    exact .inr (by simp [QueueRow.due, pending, past, shaped.1])
  · rename_i processing
    obtain ⟨expiry, ends⟩ := Option.isSome_iff_exists.mp shaped.1.2.1
    have lapsed : row.lapsed now = true := by
      simp [QueueRow.lapsed, processing, ends, ripe.2 expiry ends]
    by_cases full : m ≤ row.attempts
    · exact .inl (by simp [QueueRow.exhausted, lapsed, full])
    · exact .inr (by simp [QueueRow.due, lapsed, past, not_le.mp full])
  · rename_i dead
    exact absurd dead alive

theorem dueSpared (due : row.due m now = true) : row.exhausted m now = false := by
  simp only [QueueRow.due, Bool.and_eq_true, decide_eq_true_eq] at due
  simp [QueueRow.exhausted, due.1.1]

theorem buriedNotDue : row.bury.due m now = false := by
  simp [QueueRow.due, QueueRow.bury, QueueRow.lapsed]

theorem leasedNotDue {p : ExtractionProcessor} {token : String} (lasts : 0 < p.leaseSeconds) :
    (p.take now token row).due m now = false := by
  have later : ¬ now + p.leaseSeconds ≤ now := not_le.mpr (lt_add_of_pos_right now lasts)
  simp [QueueRow.due, ExtractionProcessor.take, QueueRow.lease, QueueRow.lapsed, later]

variable {p : ExtractionProcessor} {token : String}

theorem sparedRetired (limit : p.maxAttempts = m) (hr : row ∈ s.queue) (spared : row.exhausted m now = false) :
    row ∈ p.retired now s.queue :=
  Table.memAmend.mpr ⟨row, hr, by rw [limit, spared]; rfl⟩

theorem dueClaimed (rt : Runtime) (token : String) (unique : Table.Unique QueueRow.id s.queue)
    (limit : p.maxAttempts = m) (hr : row ∈ s.queue) (due : row.due m now = true) :
    ∃ t first, p.claim rt s now token = .ok
        (t, some (p.claimedJob rt token first)) ∧
      first ∈ p.retired now s.queue ∧ first.due m now = true ∧
      t.queue = Table.amend (fun other => other.id = first.id) (p.take now token)
        (p.retired now s.queue) ∧
      (first = row ∧ p.take now token row ∈ t.queue ∨ first.id < row.id ∧ row ∈ t.queue) := by
  have stays := sparedRetired (p := p) limit hr (dueSpared due)
  rcases claimSource rt p now token unique with
    ⟨first, found, answer⟩ | ⟨none', -⟩
  · rw [limit] at found
    obtain ⟨inside, ready, least⟩ := firstQueuedSource found
    refine ⟨_, first, answer, inside, ready, rfl, ?_⟩
    rcases Nat.lt_or_eq_of_le (least row stays due) with smaller | same
    · refine .inr ⟨smaller, Table.memAmend.mpr ⟨row, stays, ?_⟩⟩
      rw [if_neg (by simpa using (Nat.ne_of_lt smaller).symm)]
    · have equal : first = row := Table.uniqueEq (retiredUnique _ _ unique) inside stays same
      subst equal
      exact .inl ⟨rfl, Table.memAmend.mpr ⟨first, stays, by simp⟩⟩
  · rw [limit] at none'
    rw [firstQueuedNone none' row stays] at due
    cases due

theorem exhaustedRetired (rt : Runtime) (token : String) (unique : Table.Unique QueueRow.id s.queue)
    (limit : p.maxAttempts = m) (hr : row ∈ s.queue) (spent : row.exhausted m now = true) :
    ∃ t taken, p.claim rt s now token = .ok (t, taken) ∧ row.bury ∈ t.queue := by
  have dead : row.bury ∈ p.retired now s.queue :=
    Table.memAmend.mpr ⟨row, hr, by rw [limit, if_pos spent]⟩
  rcases claimSource rt p now token unique with
    ⟨first, found, answer⟩ | ⟨-, answer⟩
  · obtain ⟨inside, ready, -⟩ := firstQueuedSource found
    refine ⟨_, _, answer, Table.memAmend.mpr ⟨row.bury, dead, ?_⟩⟩
    have other : row.bury.id ≠ first.id := by
      intro same
      rw [← Table.uniqueEq (retiredUnique _ _ unique) dead inside same, buriedNotDue] at ready
      cases ready
    rw [if_neg (by simpa using other)]
  · exact ⟨_, _, answer, dead⟩

theorem claimKeepsIds (rt : Runtime) (p : ExtractionProcessor) (now : Rat) (token : String)
    (unique : Table.Unique QueueRow.id s.queue) :
    ∃ t taken, p.claim rt s now token = .ok (t, taken) ∧ Table.Unique QueueRow.id t.queue := by
  rcases claimSource rt p now token unique with
    ⟨first, -, answer⟩ | ⟨-, answer⟩
  · exact ⟨_, _, answer, Table.amendUnique (fun _ => rfl) (retiredUnique _ _ unique)⟩
  · exact ⟨_, _, answer, retiredUnique _ _ unique⟩

theorem claimEachTotal (rt : Runtime) (procs : Nat → ExtractionProcessor) (now : Rat)
    (claimers : List (Nat × String))
    (unique : Table.Unique QueueRow.id s.queue) : ∃ t jobs, claimEach rt procs now claimers s = .ok (t, jobs) := by
  induction claimers generalizing s with
  | nil => exact ⟨s, [], rfl⟩
  | cons claimer rest ih =>
    obtain ⟨t, taken, answer, unique'⟩ := claimKeepsIds rt (procs claimer.1) now claimer.2 unique
    obtain ⟨u, jobs, later⟩ := ih unique'
    refine ⟨u, taken.toList ++ jobs, ?_⟩
    rw [claimEach, answer, okBind]
    dsimp only
    rw [later]
    rfl

theorem claimAdvances (token : String) {queue : List QueueRow} {first : QueueRow}
    (lasts : 0 < p.leaseSeconds) (inside : first ∈ p.retired now queue) (ready : first.due m now = true)
    (smaller : first.id < row.id) :
    Table.matching (row.before m now) (Table.amend (fun other => other.id = first.id)
      (p.take now token) (p.retired now queue)) < Table.matching (row.before m now) queue := by
  obtain ⟨old, hold, same⟩ := Table.memAmend.mp inside
  have alive : old.exhausted p.maxAttempts now = false := by
    cases spent : old.exhausted p.maxAttempts now with
    | false => rfl
    | true =>
      rw [if_pos spent] at same
      rw [same, buriedNotDue] at ready
      cases ready
  rw [if_neg (by simp [alive])] at same
  subst same
  unfold ExtractionProcessor.retired
  rw [Table.amendAmend]
  refine Table.matchingFewer (fun other _ hit => ?_) hold (by simp [QueueRow.before, ready, smaller]) ?_
  · simp only [QueueRow.before, Bool.and_eq_true, decide_eq_true_eq] at hit ⊢
    by_cases spent : other.exhausted p.maxAttempts now
    · rw [if_pos spent] at hit
      split at hit
      · rw [leasedNotDue lasts] at hit
        cases hit.1
      · rw [buriedNotDue] at hit
        cases hit.1
    · rw [if_neg spent] at hit
      split at hit
      · rw [leasedNotDue lasts] at hit
        cases hit.1
      · exact hit
  · simp only [alive, Bool.false_eq_true, if_false, decide_true, if_true, QueueRow.before,
      leasedNotDue lasts, Bool.false_and]

theorem claimsReach {procs : Nat → ExtractionProcessor} (limit : ∀ w, (procs w).maxAttempts = m)
    (lasts : ∀ w, 0 < (procs w).leaseSeconds) {claimers : List (Nat × String)}
    (unique : Table.Unique QueueRow.id s.queue) (hr : row ∈ s.queue) (due : row.due m now = true)
    (enough : Table.matching (row.before m now) s.queue < claimers.length) :
    ∃ t jobs, claimEach rt procs now claimers s = .ok (t, jobs) ∧ ∃ job ∈ jobs, job.lease.rowId = row.id := by
  induction claimers generalizing s with
  | nil => exact absurd enough (Nat.not_lt_zero _)
  | cons claimer rest ih =>
    obtain ⟨t, first, answer, inside, ready, queue, mine | ⟨smaller, stays⟩⟩ :=
      dueClaimed rt claimer.2 unique (limit claimer.1) hr due
    all_goals
      have unique' : Table.Unique QueueRow.id t.queue := by
        rw [queue]
        exact Table.amendUnique (fun _ => rfl) (retiredUnique _ _ unique)
    · obtain ⟨u, jobs, later⟩ := claimEachTotal rt procs now rest unique'
      have same : first.id = row.id := congrArg QueueRow.id mine.1
      refine ⟨u, (procs claimer.1).claimedJob rt claimer.2 first :: jobs, ?_, _, List.mem_cons_self, same⟩
      rw [claimEach, answer, okBind]
      dsimp only
      rw [later]
      rfl
    · have fewer := claimAdvances claimer.2 (lasts claimer.1) inside ready smaller
      rw [← queue] at fewer
      obtain ⟨u, jobs, later, job, inside', taken⟩ := ih unique' stays (by
        simp only [List.length_cons] at enough
        omega)
      refine ⟨u, (procs claimer.1).claimedJob rt claimer.2 first :: jobs, ?_, job,
        List.mem_cons_of_mem _ inside', taken⟩
      rw [claimEach, answer, okBind]
      dsimp only
      rw [later]
      rfl

end Claims

/-- In every interleaving: rows have one of the three shapes; attempts are claims less refunds; and a
claim made after the retry instant and the lease end of a row that is not dead retires it as exhausted,
or finds it due and takes it, unless it takes a smaller id. Enough such claims reach a due row. -/
theorem noExtractionStranded {m : Nat} {events : List QueueEvent}
    (limit : ∀ w, (procs w).maxAttempts = m) (some' : 0 < m) (lasts : ∀ w, 0 < (procs w).leaseSeconds)
    (run : CountedRun host procs (.initial rt) events sys) :
    (∀ row ∈ sys.store.queue, row.Shaped m ∧ row.Tallied events) ∧
    ∀ row ∈ sys.store.queue, row.status ≠ .dead → ∀ now, row.Ripe now →
      (∀ w token, ∃ t taken, (procs w).claim rt sys.store now token = .ok (t, taken) ∧
        (row.exhausted m now = true ∧ row.bury ∈ t.queue ∨
          row.due m now = true ∧ ∃ job, taken = some job ∧
            (job.lease.rowId = row.id ∧ (procs w).take now token row ∈ t.queue ∨
              job.lease.rowId < row.id ∧ row ∈ t.queue))) ∧
      (row.due m now = true → ∀ claimers,
        Table.matching (row.before m now) sys.store.queue < claimers.length →
        ∃ t jobs, claimEach rt procs now claimers sys.store = .ok (t, jobs) ∧
          ∃ job ∈ jobs, job.lease.rowId = row.id) := by
  have counted := runKeepsCounted limit some' run
  have unique := counted.tracked.ids
  refine ⟨fun row hr => ⟨counted.shaped row hr, counted.tallied row hr⟩,
    fun row hr alive now ripe => ⟨fun w token => ?_, fun due claimers enough =>
      claimsReach limit lasts unique hr due enough⟩⟩
  rcases ripeShaped (counted.shaped row hr) alive ripe with spent | due
  · rcases exhaustedRetired rt token unique (limit w) hr spent with
      ⟨t, taken, answer, dead⟩
    exact ⟨t, taken, answer, .inl ⟨spent, dead⟩⟩
  · obtain ⟨t, first, answer, -, -, -, mine | smaller⟩ := dueClaimed rt token unique
      (limit w) hr due
    · exact ⟨t, _, answer, .inr ⟨due, _, rfl, .inl ⟨congrArg QueueRow.id mine.1, mine.2⟩⟩⟩
    · exact ⟨t, _, answer, .inr ⟨due, _, rfl, .inr smaller⟩⟩

end Runs
namespace Example

def limited : ExtractionFailure := ⟨"rate_limited", false, false, false, 60⟩

-- the first processor's claim of the queued row, and its rate limit
def firstLease : ExtractionLease := ⟨1, "first", "a"⟩

def requeued : Store := (recordFailure (afterClaim queued 0 0 "a").store firstLease limited 3 0).1

theorem noExtractionStrandedHere :
    (∀ row ∈ requeued.queue, row.Shaped 3 ∧ row.Tallied [.refunded 1, .taken 1]) ∧
    ∀ row ∈ requeued.queue, ∃ t taken, (twoExtractors 1).claim .plain requeued 60 "b" = .ok (t, taken) ∧
      (row.exhausted 3 60 = true ∧ row.bury ∈ t.queue ∨
        row.due 3 60 = true ∧ ∃ job, taken = some job ∧
          (job.lease.rowId = row.id ∧ (twoExtractors 1).take 60 "b" row ∈ t.queue ∨
            job.lease.rowId < row.id ∧ row ∈ t.queue)) := by
  let held := afterClaim queued 0 0 "a"
  have claimed : (match held.workers 0 with
      | .claimed job => decide (job.lease = firstLease)
      | _ => false) = true := by decide +kernel
  obtain ⟨job, works, lease⟩ : ∃ job, held.workers 0 = .claimed job ∧ job.lease = firstLease := by
    split at claimed
    · rename_i job works
      exact ⟨job, works, of_decide_eq_true claimed⟩
    · cases claimed
  let failing := held.set 0 held.store (.failing job limited) none
  let reading := failing.set 0 failing.store (.recording job limited 0) none
  have taking : CountedStep anyHost twoExtractors queued [.taken 1] held := by
    have done : ((twoExtractors 0).claim .plain queued.store 0 "a").toOption.isSome = true := by
      decide +kernel
    obtain ⟨⟨t, taken⟩, answer⟩ := Option.isSome_iff_exists.mp done
    have answer := okOfOption answer
    have one : (taken.map fun job => job.lease.rowId) = some 1 := by
      have here : (((twoExtractors 0).claim .plain queued.store 0 "a").toOption.bind Prod.snd).map
          (fun job => job.lease.rowId) = some 1 := by decide +kernel
      rw [answer] at here
      exact here
    obtain ⟨job, rfl, id⟩ := Option.map_eq_some_iff.mp one
    have step : CountedStep anyHost twoExtractors queued _ _ := .claim rfl (by decide) answer
    have same : held = { queued.set 0 t (claimedExtraction (some job)) none with
        issued := "a" :: queued.issued } := by
      unfold held afterClaim
      rw [answer]
    rw [same, ← id]
    exact step
  have stopping : CountedStep anyHost twoExtractors held [] failing :=
    .work (fun _ _ _ same => by rw [works] at same; cases same)
      (.raises (by rw [works]; rfl) (by rw [works]; rfl))
  have unread : failedAttempts held.store firstLease limited = some 0 := by decide +kernel
  have counting : CountedStep anyHost twoExtractors failing [] reading :=
    .work (fun _ _ _ same => by cases same) (.readAttempts (by rw [lease]; exact unread))
  have recording : CountedStep anyHost twoExtractors reading _ _ := .record (w := 0) rfl
  have queueing : CountedStep anyHost twoExtractors (.initial .plain) [] queued := .enqueue rfl
  have run := CountedRun.step (.step (.step (.step (.step .refl queueing) taking) stopping) counting)
    recording
  rw [lease] at run
  obtain ⟨rows, claims⟩ := noExtractionStranded (m := 3) (fun _ => rfl) (by decide)
    (fun _ => show (0 : Rat) < 10 by decide +kernel) run
  refine ⟨rows, fun row hr => ?_⟩
  have shape : row.status ≠ .dead ∧ row.notBefore = some 60 ∧ row.leaseUntil = none := by
    have all : (requeued.queue.all fun row => decide (row.status ≠ .dead ∧ row.notBefore = some 60 ∧
        row.leaseUntil = none)) = true := by decide +kernel
    exact of_decide_eq_true (List.all_eq_true.mp all row hr)
  refine (claims row hr shape.1 60 ⟨fun instant same => ?_, fun expiry same => ?_⟩).1 1 "b"
  · rw [shape.2.1] at same
    exact le_of_eq (Option.some.inj same).symm
  · rw [shape.2.2] at same
    cases same

end Example
end Enfold
