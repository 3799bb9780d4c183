import Enfold.BatchSequence
import Enfold.ClaimRows
import Enfold.ValidTime

/-! The evidence of a stored claim: the write that stored it is in the log, its observation holds what
was observed, and provenance leads from the fact to it. A near duplicate that is kept takes the
evidence for itself, and the row stored beside it is left without any. -/
namespace Enfold

open Fallible

variable {rt : Runtime} {svc : WriteService} {context : ConnectionContext} {clock : Clock}
  {s t u : Store} {request : WriteRequest} {candidate : Option StateCandidate}
  {extracted : Option ExtractedTypedFields} {query : Option (List Rat)} {outcome : WriteOutcome}

/-- A fact with the log row, the observation and the provenance of the write that stored it. -/
structure Evidenced (s : Store) (f : Fact) (row : WriteLogRow) (o : Observation) (p : Provenance) :
    Prop where
  logged : row ∈ s.writeLog
  stored : row.factId = some f.factId ∧ row.existingFactId ≠ some f.factId
  stated : f.content = Text.strip row.requestSha256.request.content
  recorded : o ∈ s.observations ∧ row.observationId = some o.observationId
  observed : o.content = row.requestSha256.request.observed
  linked : p ∈ s.provenance ∧ p.factId = f.factId ∧ p.observationId = o.observationId ∧
    p.relation = row.requestSha256.request.relation

def Store.Evident (s : Store) : Prop := ∀ f ∈ s.facts, ∃ row o p, Evidenced s f row o p

-- until an erasure, an observation holds the text it was hashed with
def Store.Unredacted (s : Store) : Prop :=
  ∀ o ∈ s.observations, ∀ payload, o.contentSha256 = .sha256 payload → o.content = payload.content

/-! ## What a write records -/

theorem recordedObservation (kept : s.Unredacted) (now : String) :
    (recordObservation s context request now).1.Unredacted ∧
      (∀ o ∈ s.observations, o ∈ (recordObservation s context request now).1.observations) ∧
      ∃ o ∈ (recordObservation s context request now).1.observations,
        o.observationId = (recordObservation s context request now).2 ∧ o.content = request.observed := by
  unfold recordObservation
  split
  · rename_i o found
    have inside := List.mem_of_find?_eq_some found
    have same := List.find?_some found
    simp only [Observation.sameKey, Bool.and_eq_true, decide_eq_true_eq] at same
    exact ⟨kept, fun _ there => there, o, inside, rfl, kept o inside _ same.1.1.2⟩
  · refine ⟨fun o inside payload digest => ?_, fun o there => List.mem_append_left _ there, _,
      List.mem_append_right _ List.mem_cons_self, rfl, rfl⟩
    rcases List.mem_append.mp inside with inside | inside
    · exact kept o inside payload digest
    · rw [List.mem_singleton.mp inside] at digest ⊢
      cases digest
      rfl

theorem attachedProvenance (s : Store) (factId observationId : Nat) (request : WriteRequest)
    (now : String) :
    (∀ p ∈ s.provenance, p ∈ (attachProvenance s factId observationId request now).provenance) ∧
      ∃ p ∈ (attachProvenance s factId observationId request now).provenance,
        p.factId = factId ∧ p.observationId = observationId ∧ p.relation = request.relation := by
  unfold attachProvenance
  split
  · rename_i known
    obtain ⟨p, inside, same⟩ := List.any_eq_true.mp known
    simp only [Bool.and_eq_true, decide_eq_true_eq] at same
    exact ⟨fun _ there => there, p, inside, same.1.1, same.1.2, same.2⟩
  · exact ⟨fun p there => List.mem_append_left _ there, _,
      List.mem_append_right _ List.mem_cons_self, rfl, rfl, rfl⟩

theorem concludeAppliedEvidence {observationId : Nat} {decision : Option SlotDecision}
    {applied : Applied}
    (h : concludeApplied rt svc context clock s request candidate observationId decision applied =
      .ok (t, outcome)) :
    t.observations = s.observations ∧ (∀ p ∈ s.provenance, p ∈ t.provenance) ∧
      (∃ p ∈ t.provenance, p.factId = applied.result.factId ∧ p.observationId = observationId ∧
        p.relation = request.relation) ∧
      (∀ row ∈ s.writeLog, row ∈ t.writeLog) ∧
      ∃ row ∈ t.writeLog, row.factId = some applied.result.factId ∧
        row.existingFactId = applied.result.existingFactId ∧ row.observationId = some observationId ∧
        row.requestSha256.request = request := by
  obtain ⟨l, superseded, resolutions, jobs, provenance, -, -, -, answer, stored⟩ :=
    concludeAppliedSource h
  have provenanceHere : t.provenance =
      (attachProvenance s applied.result.factId observationId request clock.recordedAt).provenance := by
    unfold concludeApplied at h
    obtain ⟨resolved, recorded, h⟩ := bindOk.mp h
    obtain ⟨resolutions, rfl⟩ := recordResolvedSource recorded
    obtain ⟨queued, enqueued, h⟩ := bindOk.mp h
    obtain ⟨jobs, rfl⟩ := enqueueAppliedSource enqueued
    obtain ⟨⟨⟩, -, h⟩ := bindOk.mp h
    obtain ⟨⟨l, superseded⟩, -, h⟩ := bindOk.mp h
    obtain ⟨-, -, rfl⟩ := insertWriteLogSource h
    unfold attachProvenance
    split
    · rfl
    · rfl
  have attached := attachedProvenance s applied.result.factId observationId request clock.recordedAt
  rw [← provenanceHere] at attached
  refine ⟨by rw [stored], attached.1, attached.2, fun row there => ?_, ?_⟩
  · rw [stored]
    exact List.mem_append_left _ there
  · refine ⟨outcome.logRow context request candidate clock.recordedAt, ?_, ?_, ?_, ?_, rfl⟩
    · rw [stored]
      exact List.mem_append_right _ List.mem_cons_self
    · rw [answer]
      rfl
    · rw [answer]
      rfl
    · rw [answer]
      rfl

theorem Evidenced.follow {f g : Fact} {row : WriteLogRow} {o : Observation} {p : Provenance}
    (evidence : Evidenced s f row o p) (same : f.SameClaim g)
    (log : ∀ row ∈ s.writeLog, row ∈ t.writeLog) (observations : ∀ o ∈ s.observations, o ∈ t.observations)
    (provenance : ∀ p ∈ s.provenance, p ∈ t.provenance) : Evidenced t g row o p where
  logged := log row evidence.logged
  stored := by
    rw [same.factId]
    exact evidence.stored
  stated := same.content.trans evidence.stated
  recorded := ⟨observations o evidence.recorded.1, evidence.recorded.2⟩
  observed := evidence.observed
  linked := by
    rw [same.factId]
    exact ⟨provenance p evidence.linked.1, evidence.linked.2⟩

/-! ## Every run -/

/-- The write is an accepted one, its best match is a near duplicate, and that one is protected from
it or not behind it: the write stores its own row as superseded. -/
structure LosesMerge (rt : Runtime) (svc : WriteService) (context : ConnectionContext) (s : Store)
    (timed : TimedWrite rt) (query : Option (List Rat)) : Prop where
  free : loadPrior s context.clientId timed.item.request.idempotencyKey = none
  accepted : verdict rt svc.policy context s.toLedger timed.item.request timed.item.candidate =
    .ok .untyped
  loses : ∃ extracted near f,
    extractedTypedFields rt timed.item.request timed.item.candidate = .ok extracted ∧
    untypedMatch rt svc s timed.item.request extracted query = .nearDuplicate near ∧
    f ∈ s.facts ∧ f.factId = near.factId ∧
    (f.protectedFrom timed.item.request = true ∨
      near.outrankedBy timed.item.request timed.clock.recordedAt = false)

structure EvidentStore (s : Store) : Prop where
  keyed : s.toLedger.Keyed
  unredacted : s.Unredacted
  evident : s.Evident

theorem appliedEvident {observationId : Nat} {decision : Option SlotDecision} {applied : Applied}
    {observations : List Observation} {new : Fact → Prop} (evident : s.Evident)
    (grown : ∀ o ∈ s.observations, o ∈ observations)
    (here : ∃ o ∈ observations, o.observationId = observationId ∧ o.content = request.observed)
    (rows : Rows s.toLedger t.toLedger new)
    (stored : ∀ f ∈ t.facts, new f → f.factId = applied.result.factId ∧
      applied.result.existingFactId ≠ some f.factId ∧ f.content = Text.strip request.content)
    (h : concludeApplied rt svc context clock { s with observations } request candidate observationId
      decision applied = .ok (t, outcome)) : t.Evident := by
  obtain ⟨same, provenance, ⟨p, linked, factHere, observationHere, relation⟩, log, row, logged, fact,
    existing, observation, asked⟩ := concludeAppliedEvidence h
  intro f hf
  rcases rows f hf with ⟨g, hg, claim, -⟩ | new
  · obtain ⟨row, o, p, evidence⟩ := evident g hg
    refine ⟨row, o, p, evidence.follow claim log (fun o there => ?_) provenance⟩
    rw [same]
    exact grown o there
  · obtain ⟨id, other, content⟩ := stored f hf new
    obtain ⟨o, there, recorded, observed⟩ := here
    refine ⟨row, o, p, ?_⟩
    exact
      { logged
        stored := ⟨fact.trans (by rw [id]), by rw [existing]; exact other⟩
        stated := by rw [asked]; exact content
        recorded := ⟨by rw [same]; exact there, by rw [observation, recorded]⟩
        observed := by rw [asked]; exact observed
        linked := ⟨linked, factHere.trans id.symm, observationHere.trans recorded.symm,
          by rw [asked]; exact relation⟩ }

-- a merge that is won answers with the new row
theorem wonMerge {l l' : Ledger} {near : NearDuplicateCandidate} {result : FactWriteResult}
    (effect : UntypedEffect l request extracted clock (.nearDuplicate near) l' result)
    (keeps : ∀ f ∈ l.facts, f.factId = near.factId →
      f.protectedFrom request = false ∧ near.outrankedBy request clock.recordedAt = true) :
    result.factId = l.nextFactId := by
  cases effect with
  | wins => rfl
  | @loses _ f mem id here behind =>
    obtain ⟨open', ahead⟩ := keeps f mem id
    rcases behind with shield | behind
    · rw [open'] at shield
      cases shield
    · rw [ahead] at behind
      cases behind

theorem nearestKnown {near : NearDuplicateCandidate}
    (h : untypedMatch rt svc s request extracted query = .nearDuplicate near) :
    ∃ f ∈ s.facts, f.factId = near.factId ∧ f.openIn request.scope = true := by
  have known := (untypedMatchSource : Matched rt svc s request extracted query _).known
  rw [h] at known
  obtain ⟨f, inside, id, -, -, here⟩ := known
  exact ⟨f, inside, id, here⟩

theorem transactEvident (store : EvidentStore s)
    (keeps : loadPrior s context.clientId request.idempotencyKey = none →
      verdict rt svc.policy context s.toLedger request candidate = .ok .untyped →
      ∀ near, ∀ f ∈ s.facts, untypedMatch rt svc s request extracted query = .nearDuplicate near →
      f.factId = near.factId →
      f.protectedFrom request = false ∧ near.outrankedBy request clock.recordedAt = true)
    (h : transact rt svc context clock s request candidate extracted query = .ok (t, outcome)) :
    EvidentStore t := by
  have keyed := (transactEffect store.keyed h).keyed store.keyed
  obtain ⟨clients, sessions, -, ⟨prior, -, -, rfl, -⟩ | ⟨free, fresh⟩⟩ := transactSource h
  · refine ⟨keyed, store.unredacted, fun f hf => ?_⟩
    obtain ⟨row, o, p, evidence⟩ := store.evident f hf
    exact ⟨row, o, p, evidence.follow (sameClaim f) (fun _ => id) (fun _ => id) fun _ => id⟩
  · have found : untypedMatch rt svc { s with clients, sessions } request extracted query =
        untypedMatch rt svc s request extracted query := rfl
    obtain ⟨unredacted, grown, here⟩ := @recordedObservation context { s with clients, sessions } request
      store.unredacted clock.recordedAt
    have known : Store.Evident { s with clients, sessions } := fun f hf => by
      obtain ⟨row, o, p, evidence⟩ := store.evident f hf
      exact ⟨row, o, p, evidence.follow (sameClaim f) (fun _ => id) (fun _ => id) fun _ => id⟩
    unfold writeFresh at fresh
    obtain ⟨judged, judgement, fresh⟩ := bindOk.mp fresh
    obtain ⟨observations, recorded⟩ := recordObservationSource { s with clients, sessions } context request
      clock.recordedAt
    rw [recorded] at unredacted grown here
    cases judged with
    | factless decision =>
      obtain ⟨-, ⟨-, -, rfl⟩ | ⟨-, rfl⟩⟩ := concludeFactlessSource fresh
      · refine ⟨keyed, store.unredacted, fun f hf => ?_⟩
        obtain ⟨row, o, p, evidence⟩ := store.evident f hf
        exact ⟨row, o, p, evidence.follow (sameClaim f) (fun _ there => List.mem_append_left _ there)
          (fun _ => id) fun _ => id⟩
      · refine ⟨keyed, store.unredacted, fun f hf => ?_⟩
        obtain ⟨row, o, p, evidence⟩ := store.evident f hf
        exact ⟨row, o, p, evidence.follow (sameClaim f) (fun _ => id) (fun _ => id) fun _ => id⟩
    | untyped =>
      dsimp only at fresh
      rw [recorded] at fresh
      obtain ⟨applied, done, concluded⟩ := bindOk.mp fresh
      obtain ⟨l, superseded, resolutions, jobs, provenance, retired, -, -, -, stored⟩ :=
        concludeAppliedSource concluded
      rw [(verdictUntyped judgement).1] at retired
      obtain ⟨effect, -⟩ := applyUntypedSource store.keyed untypedMatchSource.known done
      have later := supersededSource (effect.keyed store.keyed) retired
      have rows : Rows s.toLedger t.toLedger (UntypedRow s.toLedger request
          (untypedMatch rt svc s request extracted query) applied.result) := by
        rw [stored]
        exact effect.rows.trans later.rows fun g f row same active => row.follow same active
      refine ⟨keyed, ?_, ?_⟩
      · rw [stored]
        exact unredacted
      · refine appliedEvident known grown here rows (fun f _ new => ?_) concluded
        have id := new.stores.factId
        rcases new.answered with ⟨answer, earlier⟩ | ⟨near, nearby, answer⟩
        · refine ⟨id.trans answer.symm, fun same => ?_, new.stores.content⟩
          obtain ⟨g, hg, gid⟩ := earlier _ same
          have := store.keyed.factBound g hg
          omega
        · rw [nearby] at effect
          have won := wonMerge effect fun f inside => keeps free judgement near f inside nearby
          obtain ⟨g, hg, gid, -⟩ := nearestKnown nearby
          have := store.keyed.factBound g hg
          omega
    | typed slot effective =>
      dsimp only at fresh
      rw [recorded] at fresh
      obtain ⟨applied, done, concluded⟩ := bindOk.mp fresh
      obtain ⟨l, superseded, resolutions, jobs, provenance, retired, -, -, -, stored⟩ :=
        concludeAppliedSource concluded
      obtain ⟨c, -, given, -⟩ := verdictTyped judgement
      rw [given] at retired
      cases retired
      obtain ⟨effect, answers⟩ := applyTypedSource store.keyed done
      have rows : Rows s.toLedger t.toLedger (TypedRow s.toLedger request slot effective) := by
        rw [stored]
        exact effect.rows store.keyed
      refine ⟨keyed, ?_, ?_⟩
      · rw [stored]
        exact unredacted
      · refine appliedEvident known grown here rows (fun f _ new => ?_) concluded
        rcases answers with ⟨target, found, -⟩ | ⟨-, answer⟩
        · rw [new.unknown] at found
          cases found
        · rw [answer]
          exact ⟨new.factId, nofun, new.content⟩

theorem stepEvident {timed : TimedWrite rt}
    (authorized : svc.policy.authorizeContext rt svc.legacyAuthorized context = .ok context)
    (keeps : ¬ LosesMerge rt svc context s timed query)
    (h : batchStep rt svc context s (timed, query) = .ok (t, outcome)) (store : EvidentStore s) :
    EvidentStore t := by
  obtain ⟨extracted, -, fields, done⟩ := batchStepSource authorized h
  refine transactEvident store (fun free accepted near f inside nearby id => ?_) done
  by_contra lost
  refine keeps ⟨free, accepted, extracted, near, f, fields, nearby, inside, id, ?_⟩
  rwa [not_and_or, Bool.not_eq_false, Bool.not_eq_true] at lost

-- writes and batches, and the vectors the embedding worker stores between them
def Operation.records : Operation rt → Bool
  | .write .. | .writeBatch .. | .storeEmbedding _ => true
  | _ => false

def Operation.KeepsRows (s : Store) (o : Operation rt) : Prop :=
  o.records = true ∧ o.WritesMeet (fun svc context s timed query => ¬ LosesMerge rt svc context s timed query) s

theorem evidentEmpty : EvidentStore Store.empty where
  keyed := (historyKeyed : (history ([] : List (Operation .plain))).toLedger.Keyed)
  unredacted _ inside := absurd inside List.not_mem_nil
  evident _ inside := absurd inside List.not_mem_nil

/-- While no write loses to a near duplicate, every fact has its evidence, and an erasure of the fact
finds the observation. -/
theorem evidenceOnEveryClaim {ops : List (Operation rt)}
    (keeps : Run.Meets Operation.perform Operation.KeepsRows Store.empty ops) :
    ∀ f ∈ (history ops).facts, ∃ row o p, Evidenced (history ops) f row o p ∧
      o.observationId ∈ (((history ops).provenance.filter (·.factId = f.factId)).map
        Provenance.observationId).dedup := by
  have store : EvidentStore (history ops) := by
    refine Run.invariantWhen (fun s o t meets done init => ?_) keeps evidentEmpty
    obtain ⟨kind, writes⟩ := meets
    cases o with
    | write =>
      exact writeKeeps (P := EvidentStore) (C := fun svc context s timed query => ¬ LosesMerge rt svc context s timed query)
        (fun authorized keep step => stepEvident authorized keep step) writes done init
    | writeBatch =>
      refine batchKeeps (P := EvidentStore) (C := fun svc context s timed query => ¬ LosesMerge rt svc context s timed query)
        (fun authorized keep step => stepEvident authorized keep step) (fun store => ?_) writes done init
      refine ⟨store.keyed, store.unredacted, fun f hf => ?_⟩
      obtain ⟨row, o, p, evidence⟩ := store.evident f hf
      exact ⟨row, o, p, evidence.follow (sameClaim f) (fun _ => id) (fun _ => id) fun _ => id⟩
    | storeEmbedding =>
      cases done
      refine ⟨init.keyed, init.unredacted, fun f hf => ?_⟩
      obtain ⟨row, o, p, evidence⟩ := init.evident f hf
      exact ⟨row, o, p, evidence.follow (sameClaim f) (fun _ => id) (fun _ => id) fun _ => id⟩
    | _ => cases kind
  intro f hf
  obtain ⟨row, o, p, evidence⟩ := store.evident f hf
  refine ⟨row, o, p, evidence, List.mem_dedup.mpr (List.mem_map.mpr ⟨p, ?_, evidence.linked.2.2.1⟩)⟩
  exact List.mem_filter.mpr ⟨evidence.linked.1, decide_eq_true evidence.linked.2.1⟩

namespace Example

def lostMerge : List (Operation .plain) :=
  [.write trusted caller (claim "k1" "a cat sat on the mat" none (by decide +kernel)),
    .storeEmbedding ⟨1, [1], 1, "m"⟩,
    .write searching caller (claim "k2" "the cat sat on the mat" none (by decide +kernel))]

theorem lostMergeBare : lostMerge.all Operation.records = true ∧
    ∃ f ∈ (history lostMerge).facts, f.content = "the cat sat on the mat" ∧
      ∀ p ∈ (history lostMerge).provenance, p.factId ≠ f.factId := by
  decide +kernel

-- a service that searches nothing merges nothing
theorem unsearchedKeeps {timed : TimedWrite .plain} {s : Store} :
    (Operation.write trusted caller timed).KeepsRows s := by
  refine ⟨rfl, fun effective query _ _ lost => ?_⟩
  obtain ⟨extracted, near, f, -, nearby, -⟩ := lost.loses
  have unsearched : findUntypedNearDuplicate .plain trusted s timed.item.request query = none := by
    unfold findUntypedNearDuplicate
    cases query with
    | none => rfl
    | some _ => rfl
  have matched := (untypedMatchSource : Matched .plain trusted s timed.item.request extracted query _)
  rw [nearby] at matched
  cases matched with
  | nearDuplicate _ _ _ found => rw [unsearched] at found; cases found

def wonMerge : List (Operation .plain) :=
  [.write trusted caller (claim "k1" "a cat sat on the mat" none matClaimed), .storeEmbedding ⟨1, [1], 1, "m"⟩,
    .write searching caller strongerCat]

theorem evidenceOnEveryClaimHere : (history wonMerge).facts.map Fact.supersededBy = [some 2, none] ∧
    ∀ f ∈ (history wonMerge).facts, ∃ row o p, Evidenced (history wonMerge) f row o p ∧
      o.observationId ∈ (((history wonMerge).provenance.filter (·.factId = f.factId)).map
        Provenance.observationId).dedup := by
  have granted : searching.policy.authorizeContext .plain searching.legacyAuthorized caller = .ok caller :=
    okOfOption (by decide +kernel)
  have chosen : untypedMatch .plain searching (history (wonMerge.take 2)) strongerCat.item.request none
      (some [1]) = .nearDuplicate ⟨1, 1 / 2, "2026-01-03", 1⟩ := by
    decide +kernel
  have beaten : ∀ f ∈ (history (wonMerge.take 2)).facts, f.protectedFrom strongerCat.item.request = false ∧
      NearDuplicateCandidate.outrankedBy ⟨1, 1 / 2, "2026-01-03", 1⟩ strongerCat.item.request
        strongerCat.clock.recordedAt = true := by
    decide +kernel
  have prepared : prepareNearDedupQuery .plain searching caller (history (wonMerge.take 2))
      strongerCat.item.request none = .ok (some [1]) := okOfOption (by decide +kernel)
  refine ⟨by decide +kernel, evidenceOnEveryClaim ⟨unsearchedKeeps, ⟨rfl, trivial⟩, ⟨rfl, ?_⟩, trivial⟩⟩
  refine writeMeets granted prepared fun lost => ?_
  obtain ⟨extracted, near, f, fields, found, hf, -, behind⟩ := lost.loses
  obtain rfl := Except.ok.inj (Eq.symm (fields.symm.trans rfl))
  cases chosen.symm.trans found
  obtain ⟨plain, ahead⟩ := beaten f hf
  rw [plain, ahead] at behind
  rcases behind with no | no <;> cases no

end Example

end Enfold
