import Enfold.JobWrites

/-! What a completed job did with its persisted snapshot. A proposal reaches the writer when the preparation
does not pass over it and no refused proposal stands before it in its batch. -/
namespace Enfold

open Fallible

variable {rt : Runtime}

structure PersistedSnapshot where
  text : String
  hash : String
  digest : String
  observedAt : String

section Persisted
variable (rt : Runtime) (svc : WriteService) (host : SnapshotHost) (db : EntityStore) (envelope : ExtractionEnvelope)
  (lease : ExtractionLease) (snapshot : PersistedSnapshot)

def persistedItems : Except Raised (List (WriteItem rt)) := do
  let params ← prepareSnapshot rt host db envelope snapshot.text snapshot.hash lease.rowId snapshot.digest
    snapshot.observedAt
  jobItems rt svc envelope.context params

/-- `process_one` behind `_persist_snapshot`. -/
def processPersisted (readings : Readings) (s : Store) : Except Raised (Completed rt) := do
  let items ← persistedItems rt svc host db envelope lease snapshot
  processSnapshot rt svc envelope.context lease readings s items

def persistedProposals (host : SnapshotHost) (snapshot : PersistedSnapshot) : Except Raised (String × List Json) :=
  loadCanonical host.floats snapshot.text >>= snapshotProposalList

def PersistedSnapshot.job (snapshot : PersistedSnapshot) (lease : ExtractionLease) (identity : String) : SnapshotJob :=
  ⟨lease.rowId, snapshot.digest, snapshot.observedAt, identity, snapshot.hash⟩

end Persisted

def Proposal.key (proposal : Proposal rt) : String := proposal.item.request.idempotencyKey

section Skips
variable (rt : Runtime) (host : SnapshotHost) (db : EntityStore) (envelope : ExtractionEnvelope) (job : SnapshotJob)

/-- The three `continue`s of `_prepare_snapshot`. -/
inductive Skipped (index : Nat) (given : Json) : Prop
  | ephemeral {fields} (read : snapshotFields given = .ok fields)
      (passing : (ephemeralExtractionReason rt host.unicode fields.content).isSome = true)
  | unowned {fields} (read : snapshotFields given = .ok fields)
      (lasting : (ephemeralExtractionReason rt host.unicode fields.content).isSome = false)
      (foreign : snapshotSpan envelope fields = .ok none)
  | credential {fields span verification typed demotion request} (read : snapshotFields given = .ok fields)
      (lasting : (ephemeralExtractionReason rt host.unicode fields.content).isSome = false)
      (owned : snapshotSpan envelope fields = .ok (some span))
      (verified : snapshotVerification (fields.member "evidence_verification") = .ok verification)
      (claimed : snapshotTyped rt host db envelope verification (fields.member "typed") = .ok typed)
      (demoted : snapshotDemotion typed (fields.member "typed_demotion") = .ok demotion)
      (built : snapshotRequest envelope job index fields span verification
        (snapshotMetadata envelope job (fields.member "evidence_span_id") verification typed demotion) = .ok request)
      (screened : (defaultCredentialScreen rt request []).isSome = true)

variable {rt host db envelope job}

theorem skippedPrepared {index : Nat} {given : Json} :
    prepareProposal rt host db envelope job index given = .ok none ↔ Skipped rt host db envelope job index given := by
  constructor
  · intro h
    simp only [prepareProposal, bindOk] at h
    obtain ⟨fields, read, h⟩ := h
    split at h
    · exact .ephemeral read ‹_›
    · have lasting := Bool.eq_false_iff.mpr ‹_›
      simp only [bindOk] at h
      obtain ⟨found, owned, h⟩ := h
      split at h
      · exact .unowned read lasting owned
      · simp only [bindOk, proposalParams] at h
        obtain ⟨verification, verified, typed, claimed, demotion, demoted, request, built, h⟩ := h
        split at h
        · exact .credential read lasting owned verified claimed demoted built ‹_›
        · cases h
  · intro skipped
    cases skipped with
    | ephemeral read passing => simp only [prepareProposal, read, okBind, passing, if_true]
    | unowned read lasting foreign =>
      simp only [prepareProposal, read, okBind, lasting, foreign, Bool.false_eq_true, if_false]
    | credential read lasting owned verified claimed demoted built screened =>
      simp only [prepareProposal, proposalParams, read, okBind, lasting, owned, verified, claimed, demoted, built,
        screened, Bool.false_eq_true, if_false, if_true]

end Skips

section Delivery
variable (rt : Runtime) (svc : WriteService) (host : SnapshotHost) (db : EntityStore) (envelope : ExtractionEnvelope)
  (lease : ExtractionLease) (job : SnapshotJob) (readings : Readings) (s : Store)

def WrittenAs (index : Nat) (given : Json) (proposal : Proposal rt) : Prop :=
  ∃ effective p, svc.policy.authorizeContext rt svc.legacyAuthorized envelope.context = .ok effective ∧
    prepareProposal rt host db envelope job index given = .ok (some p) ∧
    prepareItem rt effective p = .ok proposal.item

/-- No persisted proposal is lost: the writer was handed each one, and the commit holds, in snapshot order, the
effects of those it did not refuse. -/
structure PersistedDelivered (persisted : List Json) (done : Completed rt) : Prop where
  handed : ∀ index given, persisted[index]? = some given →
    ∃ proposal ∈ done.handed, WrittenAs rt svc host db envelope job index given proposal
  committed : done.committed.map Proposal.key =
    ((List.range persisted.length).map job.idempotencyKey).filter fun key =>
      !(done.refused.map Proposal.key).contains key
  effects : ∃ round t answers, deleteClaimedRow lease t = .ok done.store ∧
    (done.committed = [] ∧ t = s ∨
      Performs rt svc envelope.context readings s round done.committed t answers ∧
        ∀ answer ∈ answers, answer.refused = false)

end Delivery

/-! ## The proposals and their keys -/

section Keys
variable {svc : WriteService} {host : SnapshotHost} {db : EntityStore} {envelope : ExtractionEnvelope}
  {lease : ExtractionLease} {job : SnapshotJob} {readings : Readings} {s : Store} {persisted : List Json}
  {answers : List (Option WriteParams)} {items : List (WriteItem rt)}

theorem proposalKeys (items : List (WriteItem rt)) :
    (snapshotProposals rt items).map Proposal.key = items.map fun item => item.request.idempotencyKey := by
  conv_rhs => rw [← List.zipIdx_map_fst 0 items, List.map_map]
  rw [snapshotProposals, List.map_map]
  rfl

theorem preparedKeys {rows : List (Json × Nat)}
    (read : rows.mapM (fun row => prepareProposal rt host db envelope job row.2 row.1) = .ok answers)
    (kept : ∀ row ∈ rows, ¬ Skipped rt host db envelope job row.2 row.1) :
    (answers.filterMap id).map WriteParams.idempotencyKey = rows.map fun row => job.idempotencyKey row.2 := by
  induction rows generalizing answers with
  | nil =>
    cases read
    rfl
  | cons row rest ih =>
    obtain ⟨answer, tail, here, later, rfl⟩ := mapMCons.mp read
    cases answer with
    | none => exact absurd (skippedPrepared.mp here) (kept row List.mem_cons_self)
    | some p =>
      have rest := ih later fun other inside => kept other (List.mem_cons_of_mem _ inside)
      rw [List.filterMap_cons_some (f := id) rfl, List.map_cons, List.map_cons, (proposalNumbered here).key, rest]

theorem jobKeys {params : List WriteParams} (made : jobItems rt svc envelope.context params = .ok items)
    (kept : ∀ p ∈ params, Text.strip p.idempotencyKey = p.idempotencyKey) :
    (snapshotProposals rt items).map Proposal.key = params.map WriteParams.idempotencyKey := by
  rw [proposalKeys]
  rcases jobItemsSource made with ⟨rfl, rfl⟩ | ⟨effective, -, made⟩
  · rfl
  · have keys : (items.map fun item => item.request.idempotencyKey) =
        params.map fun p => Text.strip p.idempotencyKey :=
      mapMView (fun p item done => (prepareWriteNamed (prepareItemSource done)).1) made
    exact keys.trans (List.map_congr_left kept)

theorem writtenKey {index : Nat} {given : Json} {proposal : Proposal rt}
    (written : WrittenAs rt svc host db envelope job index given proposal) :
    proposal.key = job.idempotencyKey index := by
  obtain ⟨effective, p, -, here, made⟩ := written
  have named := (prepareWriteNamed (prepareItemSource made)).1
  rw [(proposalNumbered here).key, keyKept] at named
  exact named

-- lists over one set of keys are told apart by their keys
theorem keysDetermine {α β : Type} {f : α → β} {whole : List α} (distinct : (whole.map f).Nodup) {l m : List α}
    (left : ∀ a ∈ l, a ∈ whole) (right : ∀ a ∈ m, a ∈ whole) (same : l.map f = m.map f) : l = m := by
  induction l generalizing m with
  | nil => exact (List.map_eq_nil_iff.mp same.symm).symm
  | cons a l ih =>
    cases m with
    | nil => cases same
    | cons b m =>
      obtain ⟨head, tail⟩ := List.cons.inj same
      have first : a = b :=
        List.inj_on_of_nodup_map distinct (left a List.mem_cons_self) (right b List.mem_cons_self) head
      rw [first, ih (fun c inside => left c (List.mem_cons_of_mem _ inside))
        (fun c inside => right c (List.mem_cons_of_mem _ inside)) tail]

theorem processPersistedSource {snapshot : PersistedSnapshot} {done : Completed rt}
    (h : processPersisted rt svc host db envelope lease snapshot readings s = .ok done) :
    ∃ identity persisted answers items, persistedProposals host snapshot = .ok (identity, persisted) ∧
      persisted.zipIdx.mapM (fun row =>
        prepareProposal rt host db envelope (snapshot.job lease identity) row.2 row.1) = .ok answers ∧
      persistedItems rt svc host db envelope lease snapshot = .ok items ∧
      jobItems rt svc envelope.context (answers.filterMap id) = .ok items ∧
      processSnapshot rt svc envelope.context lease readings s items = .ok done := by
  obtain ⟨items, prepared, processed⟩ := bindOk.mp h
  obtain ⟨params, ready, made⟩ := bindOk.mp prepared
  simp only [prepareSnapshot, bindOk, Prod.exists] at ready
  obtain ⟨-, -, decoded, loaded, identity, persisted, listed', answers, read, last⟩ := ready
  cases last
  exact ⟨identity, persisted, answers, items, bindOk.mpr ⟨decoded, loaded, listed'⟩, read, prepared, made, processed⟩

theorem deliveredPersisted {done : Completed rt}
    (processed : processSnapshot rt svc envelope.context lease readings s items = .ok done)
    (keys : (snapshotProposals rt items).map Proposal.key = (List.range persisted.length).map job.idempotencyKey)
    (written : ∀ index given, persisted[index]? = some given →
      ∃ proposal ∈ snapshotProposals rt items, WrittenAs rt svc host db envelope job index given proposal) :
    PersistedDelivered rt svc host db envelope lease job readings s persisted done ↔
      Delivered rt svc envelope.context lease readings s (snapshotProposals rt items) done := by
  have handed := handedPending processed
  have distinct : ((snapshotProposals rt items).map Proposal.key).Nodup := by
    rw [keys]
    exact List.nodup_range.map fun i j same => keyInjective job same
  have apart := List.inj_on_of_nodup_map distinct
  have numbered := List.inj_on_of_nodup_map (snapshotUnique rt items)
  -- a pending proposal is refused under its key just when it is under its number
  have refusal : (snapshotProposals rt items).filter (fun proposal =>
        !(done.refused.map Proposal.key).contains proposal.key) =
      (snapshotProposals rt items).filter fun proposal =>
        !(done.refused.map Proposal.index).contains proposal.index := by
    refine List.filter_congr fun proposal inside => ?_
    have same : proposal.key ∈ done.refused.map Proposal.key ↔ proposal.index ∈ done.refused.map Proposal.index := by
      constructor
      · intro mem
        obtain ⟨other, refused, same⟩ := List.mem_map.mp mem
        exact List.mem_map.mpr ⟨other, refused,
          congrArg Proposal.index (apart (handed other (refusedHanded other refused)) inside same)⟩
      · intro mem
        obtain ⟨other, refused, same⟩ := List.mem_map.mp mem
        exact List.mem_map.mpr ⟨other, refused,
          congrArg Proposal.key (numbered (handed other (refusedHanded other refused)) inside same)⟩
    simp only [List.contains_eq_mem, same]
  have commits : done.committed.map Proposal.key =
        ((List.range persisted.length).map job.idempotencyKey).filter (fun key =>
          !(done.refused.map Proposal.key).contains key) ↔
      done.committed = (snapshotProposals rt items).filter fun proposal =>
        !(done.refused.map Proposal.index).contains proposal.index := by
    rw [← keys, List.filter_map, ← refusal]
    constructor
    · exact keysDetermine distinct (fun proposal inside => handed proposal (committedHanded processed proposal inside))
        fun proposal inside => (List.mem_filter.mp inside).1
    · exact fun same => congrArg (List.map Proposal.key) same
  constructor
  · rintro ⟨reached, committed, effects⟩
    refine ⟨fun proposal inside => ?_, commits.mp committed, effects⟩
    have mem : proposal.key ∈ (List.range persisted.length).map job.idempotencyKey :=
      keys ▸ List.mem_map_of_mem inside
    obtain ⟨index, short, key⟩ := List.mem_map.mp mem
    obtain ⟨other, there, made⟩ := reached index _ (List.getElem?_eq_getElem (List.mem_range.mp short))
    have same : other = proposal := apart (handed other there) inside ((writtenKey made).trans key)
    exact same ▸ there
  · rintro ⟨reached, committed, effects⟩
    refine ⟨fun index given listed => ?_, commits.mpr committed, effects⟩
    obtain ⟨proposal, inside, made⟩ := written index given listed
    exact ⟨proposal, reached proposal inside, made⟩

/-- A job that completes delivers its persisted snapshot exactly when the preparation passes over none of its
proposals and nothing stands behind a refused one. -/
theorem snapshotDelivered {snapshot : PersistedSnapshot} {done : Completed rt}
    (h : processPersisted rt svc host db envelope lease snapshot readings s = .ok done) :
    ∃ identity persisted items, persistedProposals host snapshot = .ok (identity, persisted) ∧
      persistedItems rt svc host db envelope lease snapshot = .ok items ∧
      (PersistedDelivered rt svc host db envelope lease (snapshot.job lease identity) readings s persisted done ↔
        (∀ index given, persisted[index]? = some given →
          ¬ Skipped rt host db envelope (snapshot.job lease identity) index given) ∧
        NothingBehind rt svc envelope.context readings s 0 (snapshotProposals rt items)) := by
  obtain ⟨identity, persisted, answers, items, proposals, read, prepared, made, processed⟩ :=
    processPersistedSource h
  refine ⟨identity, persisted, items, proposals, prepared, ?_⟩
  generalize snapshot.job lease identity = job at read ⊢
  rw [← deliveredDrain (snapshotUnique rt items) processed]
  have numbered : ∀ p ∈ answers.filterMap id, ∃ index given, persisted[index]? = some given ∧
      prepareProposal rt host db envelope job index given = .ok (some p) ∧
      p.idempotencyKey = job.idempotencyKey index := by
    intro p inside
    obtain ⟨answer, there, same⟩ := List.mem_filterMap.mp inside
    obtain ⟨row, listed, here⟩ := mapMSource read answer there
    rw [id_eq] at same
    rw [same] at here
    exact ⟨row.2, row.1, List.mem_zipIdx_iff_getElem?.mp listed, here, (proposalNumbered here).key⟩
  have keys := jobKeys made fun p inside => by
    obtain ⟨index, -, -, -, key⟩ := numbered p inside
    rw [key, keyKept]
  have agrees (kept : ∀ index given, persisted[index]? = some given → ¬ Skipped rt host db envelope job index given) :
      PersistedDelivered rt svc host db envelope lease job readings s persisted done ↔
        Delivered rt svc envelope.context lease readings s (snapshotProposals rt items) done := by
    refine deliveredPersisted processed ?_ fun index given listed => ?_
    · rw [keys, preparedKeys read fun row listed => kept row.2 row.1 (List.mem_zipIdx_iff_getElem?.mp listed),
        List.range_eq_range', ← List.zipIdx_map_snd 0 persisted, List.map_map]
      rfl
    · obtain ⟨answer, there, here⟩ := mapMEach read (given, index) (List.mem_zipIdx_iff_getElem?.mpr listed)
      cases answer with
      | none => exact absurd (skippedPrepared.mp here) (kept index given listed)
      | some p =>
        have inside : p ∈ answers.filterMap id := List.mem_filterMap.mpr ⟨some p, there, rfl⟩
        rcases jobItemsSource made with ⟨empty, -⟩ | ⟨effective, granted, items'⟩
        · rw [empty] at inside
          cases inside
        · obtain ⟨item, listed', built⟩ := mapMEach items' p inside
          have whole : item ∈ (snapshotProposals rt items).map Proposal.item := by
            rwa [snapshotItems]
          obtain ⟨proposal, pending, rfl⟩ := List.mem_map.mp whole
          exact ⟨proposal, pending, effective, p, granted, here, built⟩
  constructor
  · intro delivered
    have kept : ∀ index given, persisted[index]? = some given → ¬ Skipped rt host db envelope job index given := by
      intro index given listed skipped
      obtain ⟨proposal, inside, written⟩ := delivered.handed index given listed
      have mem : proposal.key ∈ (answers.filterMap id).map WriteParams.idempotencyKey :=
        keys ▸ List.mem_map_of_mem (handedPending processed proposal inside)
      obtain ⟨p, there, same⟩ := List.mem_map.mp mem
      obtain ⟨index', given', listed', here, key'⟩ := numbered p there
      obtain rfl : index' = index := keyInjective job (by rw [← key', same, writtenKey written])
      rw [listed, Option.some.injEq] at listed'
      rw [← listed', skippedPrepared.mpr skipped] at here
      cases here
    exact ⟨kept, (agrees kept).mp delivered⟩
  · rintro ⟨kept, delivered⟩
    exact (agrees kept).mpr delivered

end Keys

namespace Example

def spokenItem (content sensitivity : String) : Json :=
  .obj [("category", .str "project"), ("content", .str content), ("evidence_excerpt", .str "We have nine widgets."),
    ("evidence_span_id", .str "span-000000-000021"),
    ("evidence_verification", .obj [("status", .str "verified"), ("verifier_id", .str "verifier")]),
    ("sensitivity", .str sensitivity), ("tags", .str "")]

def spokenJson : Json := .obj [("extractor_identity", .str "extractor"),
  ("proposals", .arr [spokenItem "The project has nine widgets." "sensitive",
    spokenItem "Nine widgets are blue." "normal"]), ("version", .int 1)]

def spokenText : String := String.ofList (print wholeFloats spokenJson.sorted)
def spokenHash : String := "2f4a0e4b68d2deeaabdd2f666f14e439b4ffc5defa21aea4eaf91ae6f0897567"

-- the digest of that one text
def digesting : Runtime :=
  { Runtime.plain with sha256 := fun text => if text = spokenText then spokenHash else text }

def spokenSnapshot : PersistedSnapshot := ⟨spokenText, spokenHash, "digest", "2024-01-01"⟩

def claimed : Store :=
  { Store.empty with queue := [⟨1, "2024-01-01", "payload", .processing, some "digest", 1, none, none,
      some "worker", none, some "token", some spokenText, some spokenHash⟩] }

theorem spokenDigest : digesting.sha256 spokenText = spokenHash := by
  simp only [digesting, if_true]

theorem spokenDumped : dumps wholeFloats spokenJson = .ok spokenText := if_pos (by decide +kernel)

theorem spokenLoads : loadCanonical wholeFloats spokenText = .ok spokenJson.sorted :=
  loadCanonicalKept (by decide +kernel) spokenDumped

def spokenJob : SnapshotJob := spokenSnapshot.job lease "extractor"

def spokenParams (envelope : ExtractionEnvelope) (lease : ExtractionLease) : Except Raised (List WriteParams) := do
  let (identity, proposals) ← snapshotProposalList spokenJson.sorted
  let prepared ← proposals.zipIdx.mapM fun (proposal, index) => prepareProposal digesting trustingHost (unnamed [])
    envelope (spokenSnapshot.job lease identity) index proposal
  .ok (prepared.filterMap id)

theorem spokenPrepared (svc : WriteService) (envelope : ExtractionEnvelope) (lease : ExtractionLease) :
    persistedItems digesting svc trustingHost (unnamed []) envelope lease spokenSnapshot =
      spokenParams envelope lease >>= jobItems digesting svc envelope.context := by
  have hashed : digesting.sha256 spokenSnapshot.text = spokenSnapshot.hash := spokenDigest
  have loads : loadCanonical trustingHost.floats spokenSnapshot.text = .ok spokenJson.sorted := spokenLoads
  have ready : prepareSnapshot digesting trustingHost (unnamed []) envelope spokenSnapshot.text spokenSnapshot.hash
      lease.rowId spokenSnapshot.digest spokenSnapshot.observedAt = spokenParams envelope lease := by
    simp only [prepareSnapshot, hashed, ensure, decide_true, if_true, loads, okBind]
    rfl
  rw [persistedItems, ready]

def firstRefused (items : List (WriteItem digesting)) : Bool :=
  decide (items.map (fun item => item.request.idempotencyKey) =
    [spokenJob.idempotencyKey 0, spokenJob.idempotencyKey 1]) &&
  (handleWriteBatch digesting trusted caller claimed (timed digesting readings 0 (snapshotProposals digesting items))
    (deleteClaimedRow lease)).toOption.any fun answer => !answer.2.committed &&
      decide (answer.2.outcomes.map WriteOutcome.refused = [true])

theorem spokenRefused : (spokenParams counting lease >>= jobItems digesting trusted caller).toOption.any firstRefused = true := by
  decide +kernel

theorem spokenCompletes : ∃ done, processPersisted digesting trusted trustingHost (unnamed []) counting lease
      spokenSnapshot readings claimed = .ok done ∧
    ∀ proposal ∈ done.handed, proposal.key = spokenJob.idempotencyKey 0 := by
  have refused := spokenRefused
  rw [show caller = counting.context from rfl, ← spokenPrepared] at refused
  obtain ⟨items, made, refused⟩ := (Option.any_eq_true _ _).mp refused
  obtain ⟨keys, answered⟩ := Bool.and_eq_true_iff.mp refused
  obtain ⟨⟨after, batch⟩, handled, rolled⟩ := (Option.any_eq_true _ _).mp answered
  obtain ⟨uncommitted, outcomes⟩ := Bool.and_eq_true_iff.mp rolled
  have keys := of_decide_eq_true keys
  have outcomes := of_decide_eq_true outcomes
  obtain ⟨first, second, rfl⟩ := List.length_eq_two.mp (show items.length = 2 by simpa using congrArg List.length keys)
  obtain ⟨answer, alone⟩ := List.length_eq_one_iff.mp (show batch.outcomes.length = 1 by
    simpa using congrArg List.length outcomes)
  rw [alone] at outcomes
  have answered : answer.refused = true := by simpa using outcomes
  have first' : first.request.idempotencyKey = spokenJob.idempotencyKey 0 := (List.cons.inj keys).1
  have survivors : Attempt.survivors ⟨snapshotProposals digesting [first, second], batch⟩ = [] := by
    simp [Attempt.survivors, Attempt.answered, snapshotProposals, alone, answered]
  have settled : drainPending digesting trusted caller lease readings claimed 1 [] =
      .ok ⟨{ claimed with queue := [] }, 0, []⟩ := by
    rw [drainPending]
    rfl
  have processed : processSnapshot digesting trusted counting.context lease readings claimed [first, second] =
      .ok ⟨{ claimed with queue := [] }, 0, [⟨snapshotProposals digesting [first, second], batch⟩]⟩ := by
    have pending : snapshotProposals digesting [first, second] ≠ [] := by simp [snapshotProposals]
    have handled : handleWriteBatch digesting trusted counting.context claimed
        (timed digesting readings 0 (snapshotProposals digesting [first, second])) (deleteClaimedRow lease) =
        .ok (after, batch) := okOfOption handled
    have open' : batch.committed = false := by simpa using uncommitted
    rw [processSnapshot, drainPending, if_neg pending, handled]
    simp only [open', survivors]
    rw [show counting.context = caller from rfl, settled]
    rfl
  refine ⟨_, bindOk.mpr ⟨_, okOfOption made, processed⟩, fun proposal inside => ?_⟩
  have only : proposal = ⟨0, first⟩ := by
    simpa [Completed.handed, Attempt.answered, snapshotProposals, alone] using inside
  rw [only]
  exact first'

theorem snapshotDeliveredHere : ∃ done identity persisted items,
    processPersisted digesting trusted trustingHost (unnamed []) counting lease spokenSnapshot readings claimed =
      .ok done ∧
    persistedProposals trustingHost spokenSnapshot = .ok (identity, persisted) ∧
    persistedItems digesting trusted trustingHost (unnamed []) counting lease spokenSnapshot = .ok items ∧
    (PersistedDelivered digesting trusted trustingHost (unnamed []) counting lease (spokenSnapshot.job lease identity)
        readings claimed persisted done ↔
      (∀ index given, persisted[index]? = some given →
        ¬ Skipped digesting trustingHost (unnamed []) counting (spokenSnapshot.job lease identity) index given) ∧
      NothingBehind digesting trusted caller readings claimed 0 (snapshotProposals digesting items)) := by
  obtain ⟨done, completes, -⟩ := spokenCompletes
  obtain ⟨identity, persisted, items, account⟩ := snapshotDelivered completes
  exact ⟨done, identity, persisted, items, completes, account⟩

/-- The second statement was never handed to the writer, and its job is gone. -/
theorem laterProposalLost : ∃ done identity persisted,
    processPersisted digesting trusted trustingHost (unnamed []) counting lease spokenSnapshot readings claimed =
      .ok done ∧
    persistedProposals trustingHost spokenSnapshot = .ok (identity, persisted) ∧
    ¬ PersistedDelivered digesting trusted trustingHost (unnamed []) counting lease
      (spokenSnapshot.job lease identity) readings claimed persisted done := by
  obtain ⟨done, completes, first⟩ := spokenCompletes
  have proposals : persistedProposals trustingHost spokenSnapshot = .ok ("extractor",
      [spokenItem "The project has nine widgets." "sensitive", spokenItem "Nine widgets are blue." "normal"]) :=
    bindOk.mpr ⟨_, spokenLoads, rfl⟩
  refine ⟨done, _, _, completes, proposals, fun delivered => ?_⟩
  obtain ⟨proposal, inside, written⟩ := delivered.handed 1 _ rfl
  have same : spokenJob.idempotencyKey 0 = spokenJob.idempotencyKey 1 :=
    (first proposal inside).symm.trans (writtenKey written)
  cases keyInjective spokenJob same

end Example
end Enfold
