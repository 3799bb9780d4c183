import Enfold.UnreviewedRows

/-! Two runs of untyped writes, one with the unreviewed ones and one without, and when default recall
cannot tell them apart. -/
namespace Enfold

open Fallible

variable {rt : Runtime}

structure Submission (rt : Runtime) where
  svc : WriteService
  context : ConnectionContext
  timed : TimedWrite rt

def Submission.request (w : Submission rt) : WriteRequest := w.timed.item.request

def Submission.operation (w : Submission rt) : Operation rt := .write w.svc w.context w.timed

def Submission.perform (s : Store) (w : Submission rt) : Except Raised Store := w.operation.perform s

def Submission.reviewed (w : Submission rt) : Bool := w.request.correctionStatus ≠ some "unreviewed"

/-- No state candidate and no fact to supersede; the clock reads timestamps. -/
structure Submission.Untyped (w : Submission rt) : Prop where
  bare : w.timed.item.candidate = none
  plain : w.request.supersedeFactId = none
  dated : ∃ time, parseTimestamp rt (some w.timed.clock.recordedAt) = .ok time

def Store.Admits (s : Store) (context : ConnectionContext) (now : String) : Prop :=
  ∃ t, (registerClient s context now >>= fun s => registerSession s context now) = .ok t

/-- The write is authorized, its key is free, and no policy decides it. -/
structure Submission.Accepted (s : Store) (w : Submission rt) (effective : ConnectionContext)
    (extracted : Option ExtractedTypedFields) : Prop where
  granted : w.svc.policy.authorizeContext rt w.svc.legacyAuthorized w.context = .ok effective
  fields : extractedTypedFields rt w.request none = .ok extracted
  admitted : s.Admits effective w.timed.clock.recordedAt
  free : loadPrior s effective.clientId w.request.idempotencyKey = none
  judged : requestDecision rt w.svc.policy effective s.toLedger w.request none = .ok none

/-- The unreviewed writes so far have not come between: a reviewed write is registered as without
them and its lookups look past their rows, and an unreviewed one disputes no other row. -/
structure Submission.Separate (n : Nat) (s s' : Store) (w : Submission rt) : Prop where
  registers : w.reviewed = true → ∀ effective,
    w.svc.policy.authorizeContext rt w.svc.legacyAuthorized w.context = .ok effective →
      (s.Admits effective w.timed.clock.recordedAt ↔ s'.Admits effective w.timed.clock.recordedAt)
  looks : w.reviewed = true → ∀ effective extracted, w.Accepted s effective extracted →
    LooksPast rt w.svc effective n s s' w.request extracted
  disputes : w.reviewed = false → ∀ effective, w.Accepted s effective none →
    findUntypedExactDuplicate s.toLedger w.request = none →
    ∀ found, findUntypedContradiction s.toLedger w.request = some found →
      ∀ f ∈ s.facts, f.factId = found.factId → f.leftOver n = true

section Runs
variable {s s' t : Store} {l l' : Ledger} {n : Nat} {w : Submission rt} {request : WriteRequest}
  {effective : ConnectionContext} {extracted : Option ExtractedTypedFields} {query : Option (List Rat)}

theorem acceptedVerdict {policy : MemoryPolicy} {context : ConnectionContext}
    (judged : requestDecision rt policy context l request none = .ok none) :
    verdict rt policy context l request none = .ok .untyped := by
  rw [verdict, judged]
  rfl

theorem Submission.Accepted.goes (accepted : w.Accepted s effective extracted) (untyped : w.Untyped)
    (keyed : s.toLedger.Keyed) (bound : s.toLedger.MembersBound)
    (prepared : prepareNearDedupQuery rt w.svc effective s w.request none = .ok query)
    (clear : ¬ MeetsTyped rt w.svc s w.request extracted query) : ∃ t, w.perform s = .ok t := by
  obtain ⟨u, admitted⟩ := accepted.admitted
  obtain ⟨clients, sessions, rfl⟩ := registeredSource admitted
  have clear' : ¬ MeetsTyped rt w.svc { s with clients, sessions } w.request extracted query :=
    fun met => clear ⟨met.distinct, met.plain, met.agrees, met.meets⟩
  have target : ∀ old ∈ w.request.supersedeFactId,
      findUntypedExactDuplicate s.toLedger w.request ≠ some old ∧
        ∃ f ∈ s.facts, f.factId = old ∧ f.current = true := by
    rw [untyped.plain]
    nofun
  obtain ⟨t, outcome, fresh⟩ := (writeFreshGoes (s := { s with clients, sessions }) keyed bound
    w.timed.item.requestBuilt (nonstateExtraction accepted.fields) (fun _ _ => untyped.dated) accepted.free
    accepted.judged).mpr ⟨clear', target⟩
  obtain ⟨middle, first, second⟩ := bindOk.mp admitted
  have free : loadPrior { s with clients, sessions } effective.clientId w.request.idempotencyKey = none :=
    accepted.free
  have done : write rt w.svc w.context w.timed.clock s w.request none = .ok (t, outcome) := by
    simp only [write, accepted.granted, okBind, validateStateCandidate, accepted.fields, prepared, transact,
      first, second, free]
    exact fresh
  refine ⟨t, bindOk.mpr ⟨(t, outcome), ?_, rfl⟩⟩
  rw [untyped.bare]
  exact done

theorem Submission.attempted (untyped : w.Untyped) (keyed : s.toLedger.Keyed)
    (bound : s.toLedger.MembersBound) :
    (∃ effective extracted query result, w.Accepted s effective extracted ∧
      prepareNearDedupQuery rt w.svc effective s w.request none = .ok query ∧
      ¬ MeetsTyped rt w.svc s w.request extracted query ∧
      UntypedEffect s.toLedger w.request extracted w.timed.clock
        (untypedMatch rt w.svc s w.request extracted query) (Run.attempt Submission.perform s w).toLedger result) ∨
    ((∀ effective extracted query, w.Accepted s effective extracted →
        prepareNearDedupQuery rt w.svc effective s w.request none = .ok query →
        MeetsTyped rt w.svc s w.request extracted query) ∧
      (Run.attempt Submission.perform s w).toLedger = s.toLedger) := by
  cases done : w.perform s with
  | error raised =>
    rw [Run.attempt, done]
    refine .inr ⟨fun effective extracted query accepted prepared => ?_, rfl⟩
    by_contra clear
    obtain ⟨t, goes⟩ := accepted.goes untyped keyed bound prepared clear
    rw [done] at goes
    cases goes
  | ok t =>
    rw [Run.attempt, done]
    dsimp only
    obtain ⟨⟨u, outcome⟩, written, last⟩ := bindOk.mp done
    cases last
    obtain ⟨effective, extracted, query, granted, -, fields, prepared, transacted⟩ := writeSource written
    rw [untyped.bare] at fields prepared transacted
    obtain ⟨clients, sessions, admitted, ⟨prior, known, -, rfl, -⟩ | ⟨free, fresh⟩⟩ :=
      transactSource transacted
    · refine .inr ⟨fun effective' extracted' query' accepted _ => ?_, rfl⟩
      obtain rfl : effective = effective' := Except.ok.inj (granted.symm.trans accepted.granted)
      cases accepted.free.symm.trans known
    · rcases writeFreshSource fresh with ⟨decision, judged, concluded⟩ |
          ⟨applied, observations, observationId, judged, changed, concluded⟩ | ⟨slot, c, _, _, _, typed, -⟩
      · refine .inr ⟨fun effective' extracted' query' accepted _ => ?_, ?_⟩
        · obtain rfl : effective = effective' := Except.ok.inj (granted.symm.trans accepted.granted)
          cases judged.symm.trans (acceptedVerdict accepted.judged)
        · obtain ⟨-, ⟨-, -, rfl⟩ | ⟨-, rfl⟩⟩ := concludeFactlessSource concluded
          · rfl
          · rfl
      · have judged := (verdictUntyped judged).2
        have kind := nonstateExtraction fields
        have clear := (applyUntypedGoes (s := { s with clients, sessions }) keyed bound
          w.timed.item.requestBuilt kind (fun _ _ => untyped.dated)).mp ⟨applied, changed⟩
        obtain ⟨effect, -⟩ := applyUntypedSource (l := s.toLedger) keyed untypedMatchSource.known changed
        obtain ⟨k, superseded, resolutions, jobs, provenance, retired, -, -, -, rfl⟩ :=
          concludeAppliedSource concluded
        have same : k = applied.ledger := by
          have plain : w.timed.item.request.supersedeFactId = none := untyped.plain
          simp only [supersedeApplied, plain, supersedeIfRequested, Except.ok.injEq, Prod.mk.injEq] at retired
          exact retired.1.symm
        subst same
        exact .inl ⟨effective, extracted, query, applied.result, ⟨granted, fields, ⟨_, admitted⟩, free, judged⟩,
          prepared, fun met => clear ⟨met.distinct, met.plain, met.agrees, met.meets⟩, effect⟩
      · obtain ⟨c, -, given, -⟩ := verdictTyped typed
        cases given

/-! ## The two runs -/

theorem requestDecisionPlain {policy : MemoryPolicy} {context : ConnectionContext}
    (plain : request.supersedeFactId = none) :
    requestDecision rt policy context l request none = requestDecision rt policy context l' request none := by
  have unasked (l : Ledger) : supersessionPolicy l request none none = none := by
    simp only [supersessionPolicy, plain, HOrElse.hOrElse, OrElse.orElse, Option.orElse]
  simp only [requestDecision, unasked]

theorem queryPlain (plain : request.supersedeFactId = none) {svc : WriteService}
    (log : loadPrior s effective.clientId request.idempotencyKey =
      loadPrior s' effective.clientId request.idempotencyKey)
    (exact : (findUntypedExactDuplicate s.toLedger request).isNone =
      (findUntypedExactDuplicate s'.toLedger request).isNone) :
    prepareNearDedupQuery rt svc effective s request none =
      prepareNearDedupQuery rt svc effective s' request none := by
  have unasked (l : Ledger) : supersessionPolicy l request none none = none := by
    simp only [supersessionPolicy, plain, HOrElse.hOrElse, OrElse.orElse, Option.orElse]
  simp only [prepareNearDedupQuery, wantsNearDedupQuery, unasked, log, exact]

theorem queryUnreviewed {svc : WriteService} (unreviewed : request.correctionStatus = some "unreviewed")
    (prepared : prepareNearDedupQuery rt svc effective s request none = .ok query) : query = none := by
  simp only [prepareNearDedupQuery, bindOk] at prepared
  obtain ⟨decision, -, prepared⟩ := prepared
  split at prepared
  · exact (Except.ok.inj prepared).symm
  · simp only [wantsNearDedupQuery, unreviewed, ne_eq, not_true_eq_false, decide_false, Bool.and_false,
      Bool.false_eq_true, if_false] at prepared
    exact (Except.ok.inj prepared).symm

structure Level (n : Nat) (rest : List (Submission rt)) (s s' : Store) : Prop where
  keyed : s.toLedger.Keyed ∧ s.toLedger.MembersBound
  keyed' : s'.toLedger.Keyed ∧ s'.toLedger.MembersBound
  rows : ∃ pairs, s.Beside n s'.toLedger pairs
  logs : ∀ w ∈ rest, ∀ clientId,
    loadPrior s clientId w.request.idempotencyKey = loadPrior s' clientId w.request.idempotencyKey
  distinct : (rest.map fun w => w.request.idempotencyKey).Nodup
  untyped : ∀ w ∈ rest, w.Untyped

theorem attemptKeyed (before : s.toLedger.Keyed ∧ s.toLedger.MembersBound) :
    (Run.attempt Submission.perform s w).toLedger.Keyed ∧
      (Run.attempt Submission.perform s w).toLedger.MembersBound :=
  Run.attemptInvariant (P := fun t : Store => t.toLedger.Keyed ∧ t.toLedger.MembersBound)
    (fun _ done => performMembersBound done before) before

theorem attemptLog {clientId key : String} (other : w.request.idempotencyKey ≠ key) :
    loadPrior (Run.attempt Submission.perform s w) clientId key = loadPrior s clientId key := by
  refine Run.attemptInvariant (P := fun t => loadPrior t clientId key = loadPrior s clientId key)
    (fun t done => ?_) rfl
  obtain ⟨⟨u, outcome⟩, written, last⟩ := bindOk.mp done
  cases last
  obtain ⟨effective, extracted, query, -, -, -, -, transacted⟩ := writeSource written
  cases answered transacted with
  | replayed _ _ registered =>
    rw [registered]
    rfl
  | passing _ log => simp only [loadPrior, log]
  | logged _ _ log =>
    have missed : ¬ (outcome.logRow effective w.timed.item.request w.timed.item.candidate
        w.timed.clock.recordedAt).idempotencyKey = key := other
    simp only [loadPrior, log, List.find?_append, List.find?_singleton, missed, decide_false, Bool.and_false,
      Bool.false_eq_true, if_false, Option.or_none]

theorem Level.tail {rest : List (Submission rt)} (level : Level n (w :: rest) s s') {v : Submission rt}
    (hv : v ∈ rest) : w.request.idempotencyKey ≠ v.request.idempotencyKey := by
  have apart := (List.nodup_cons.mp level.distinct).1
  exact fun same => apart (List.mem_map.mpr ⟨v, hv, same.symm⟩)

theorem Submission.Accepted.other (accepted : w.Accepted s effective extracted) (untyped : w.Untyped)
    (log : loadPrior s effective.clientId w.request.idempotencyKey =
      loadPrior s' effective.clientId w.request.idempotencyKey)
    (registers : s.Admits effective w.timed.clock.recordedAt ↔ s'.Admits effective w.timed.clock.recordedAt) :
    w.Accepted s' effective extracted where
  granted := accepted.granted
  fields := accepted.fields
  admitted := registers.mp accepted.admitted
  free := log.symm.trans accepted.free
  judged := (requestDecisionPlain untyped.plain).symm.trans accepted.judged

theorem LooksPast.exactNone {svc : WriteService} {pairs : List (Fact × Fact)}
    (looks : LooksPast rt svc effective n s s' request extracted) (beside : s.Beside n s'.toLedger pairs) :
    findUntypedExactDuplicate s.toLedger request = none ↔
      findUntypedExactDuplicate s'.toLedger request = none := by
  refine ⟨beside.exactNone, fun none' => ?_⟩
  cases found : findUntypedExactDuplicate s.toLedger request with
  | none => rfl
  | some factId =>
    obtain ⟨p, -, -, there⟩ := beside.exactSame found (looks.exact factId found)
    rw [none'] at there
    cases there

theorem LooksPast.meetsTyped {svc : WriteService} {pairs : List (Fact × Fact)}
    (looks : LooksPast rt svc effective n s s' request extracted) (beside : s.Beside n s'.toLedger pairs)
    (keyed : s.toLedger.Keyed) (keyed' : s'.toLedger.Keyed)
    (prepared : prepareNearDedupQuery rt svc effective s request none = .ok query) :
    MeetsTyped rt svc s request extracted query ↔ MeetsTyped rt svc s' request extracted query := by
  constructor
  · intro met
    obtain ⟨distinct, plain, agrees, near, f, found, mem, id, typed, contradicts⟩ := met
    obtain ⟨same, old⟩ := looks.near distinct plain.1 agrees query prepared
    obtain ⟨p, hp, pid, pid', -⟩ := beside.nearSame keyed keyed' (old _ found) found
    obtain rfl : f = p.1 := Table.uniqueEq keyed.factIds mem (beside.memLeft hp).1 (id.trans pid.symm)
    have alike := beside.alike p hp
    refine ⟨beside.exactNone distinct, plain, beside.agreesNone agrees, near, p.2, same.symm.trans found,
      beside.memRight hp, pid', alike.isState.symm.trans typed, ?_⟩
    rwa [pid', ← alike.content, ← id]
  · intro met
    obtain ⟨distinct', plain, agrees', near, g, found', mem, id, typed, contradicts⟩ := met
    have distinct := (looks.exactNone beside).mpr distinct'
    have agrees : findUntypedContradiction s.toLedger request = none := by
      cases found : findUntypedContradiction s.toLedger request with
      | none => rfl
      | some c =>
        obtain ⟨p, -, -, there⟩ := beside.disputesSame keyed found (looks.disputes distinct plain.1 c found)
        rw [agrees'] at there
        cases there
    obtain ⟨same, old⟩ := looks.near distinct plain.1 agrees query prepared
    have found := same.trans found'
    obtain ⟨p, hp, pid, pid', -⟩ := beside.nearSame keyed keyed' (old _ found) found
    obtain rfl : g = p.2 := Table.uniqueEq keyed'.factIds mem (beside.memRight hp) (id.trans pid'.symm)
    have alike := beside.alike p hp
    refine ⟨distinct, plain, agrees, near, p.1, found, (beside.memLeft hp).1, pid, alike.isState.trans typed, ?_⟩
    rwa [pid, alike.content, ← id]

theorem Level.reviewed {rest : List (Submission rt)} (level : Level n (w :: rest) s s')
    (reviewed : w.reviewed = true) (separate : w.Separate n s s') :
    Level n rest (Run.attempt Submission.perform s w) (Run.attempt Submission.perform s' w) := by
  obtain ⟨keyed, bound⟩ := level.keyed
  obtain ⟨keyed', bound'⟩ := level.keyed'
  obtain ⟨pairs, beside⟩ := level.rows
  have untyped := level.untyped w List.mem_cons_self
  have log := level.logs w List.mem_cons_self
  have status : w.request.correctionStatus ≠ some "unreviewed" := of_decide_eq_true reviewed
  refine ⟨attemptKeyed level.keyed, attemptKeyed level.keyed', ?_, fun v hv clientId => ?_,
    (List.nodup_cons.mp level.distinct).2, fun v hv => level.untyped v (List.mem_cons_of_mem _ hv)⟩
  swap
  · rw [attemptLog (level.tail hv), attemptLog (level.tail hv)]
    exact level.logs v (List.mem_cons_of_mem _ hv) clientId
  have query (effective extracted) (accepted : w.Accepted s effective extracted) :
      prepareNearDedupQuery rt w.svc effective s w.request none =
        prepareNearDedupQuery rt w.svc effective s' w.request none := by
    have looks := separate.looks reviewed effective extracted accepted
    refine queryPlain untyped.plain (log effective.clientId) (Bool.eq_iff_iff.mpr ?_)
    rw [Option.isNone_iff_eq_none, Option.isNone_iff_eq_none]
    exact looks.exactNone beside
  rcases w.attempted untyped keyed bound with
    ⟨effective, extracted, vector, result, accepted, prepared, clear, effect⟩ | ⟨stuck, same⟩
  · have looks := separate.looks reviewed effective extracted accepted
    have accepted' := accepted.other untyped (log _) (separate.registers reviewed effective accepted.granted)
    have prepared' := (query effective extracted accepted).symm.trans prepared
    rcases w.attempted untyped keyed' bound' with
      ⟨effective', extracted', vector', result', other, prepared'', -, effect'⟩ | ⟨stuck', -⟩
    · obtain rfl : effective = effective' := Except.ok.inj (accepted.granted.symm.trans other.granted)
      obtain rfl : extracted = extracted' := Except.ok.inj (accepted.fields.symm.trans other.fields)
      obtain rfl : vector = vector' := Except.ok.inj (prepared'.symm.trans prepared'')
      exact beside.effect keyed keyed' status (beside.matched keyed keyed' looks prepared) effect effect'
    · exact absurd ((looks.meetsTyped beside keyed keyed' prepared).mpr
        (stuck' effective extracted vector accepted' prepared')) clear
  · rcases w.attempted untyped keyed' bound' with
      ⟨effective, extracted, vector, result, accepted', prepared', clear, -⟩ | ⟨-, same'⟩
    · have accepted : w.Accepted s effective extracted := accepted'.other untyped (log _).symm
        (separate.registers reviewed effective accepted'.granted).symm
      have looks := separate.looks reviewed effective extracted accepted
      have prepared := (query effective extracted accepted).trans prepared'
      exact absurd ((looks.meetsTyped beside keyed keyed' prepared).mp
        (stuck effective extracted vector accepted prepared)) clear
    · rw [same, same']
      exact ⟨pairs, beside⟩

theorem Level.unreviewed {rest : List (Submission rt)} (level : Level n (w :: rest) s s')
    (unreviewed : w.reviewed = false) (separate : w.Separate n s s') :
    Level n rest (Run.attempt Submission.perform s w) s' := by
  obtain ⟨keyed, bound⟩ := level.keyed
  obtain ⟨pairs, beside⟩ := level.rows
  have untyped := level.untyped w List.mem_cons_self
  have status : w.request.correctionStatus = some "unreviewed" := by
    simpa [Submission.reviewed] using unreviewed
  refine ⟨attemptKeyed level.keyed, level.keyed', ?_, fun v hv clientId => ?_,
    (List.nodup_cons.mp level.distinct).2, fun v hv => level.untyped v (List.mem_cons_of_mem _ hv)⟩
  swap
  · rw [attemptLog (level.tail hv)]
    exact level.logs v (List.mem_cons_of_mem _ hv) clientId
  rcases w.attempted untyped keyed bound with
    ⟨effective, extracted, vector, result, accepted, prepared, clear, effect⟩ | ⟨-, same⟩
  · obtain rfl := queryUnreviewed status prepared
    have matched : Matched rt w.svc s w.request extracted none _ := untypedMatchSource
    generalize untypedMatch rt w.svc s w.request extracted none = choice at matched effect
    have apart (candidate) : findUntypedNearDuplicate rt w.svc s w.request none ≠ some candidate := nofun
    refine ⟨pairs, beside.effectLeftOver status effect (fun candidate same => ?_) fun found same f hf id => ?_⟩
    · subst same
      cases matched with
      | nearDuplicate _ _ _ near => exact apart _ near
    · subst same
      cases matched with
      | contradiction distinct plain disputes =>
        obtain ⟨rfl, -⟩ := plain
        exact separate.disputes unreviewed effective accepted distinct found disputes f hf id
      | nearContradiction _ _ _ near => exact absurd near (apart _)
  · rw [same]
    exact ⟨pairs, beside⟩

/-- Default recall is the same with and without the unreviewed writes, in every run of untyped writes
in which they have not come between. -/
theorem unreviewedInert {before : List (Operation rt)} {ws : List (Submission rt)}
    (untyped : ∀ w ∈ ws, w.Untyped) (distinct : (ws.map fun w => w.request.idempotencyKey).Nodup)
    (separate : Run.MeetsBeside Submission.perform Submission.reviewed
      (fun s s' w => w.Separate (history before).nextFactId s s') (history before) (history before) ws) :
    (Run.run Submission.perform (history before) ws).toLedger.recalled =
      (Run.run Submission.perform (history before) (ws.filter Submission.reviewed)).toLedger.recalled := by
  have keyed : (history before).toLedger.Keyed ∧ (history before).toLedger.MembersBound :=
    ⟨historyKeyed, historyMembersBound⟩
  have start : Level (history before).nextFactId ws (history before) (history before) :=
    ⟨keyed, keyed, ⟨_, Ledger.Beside.refl keyed.1⟩, fun _ _ _ => rfl, distinct, untyped⟩
  obtain ⟨pairs, beside⟩ := (Run.besideWhen (R := Level (history before).nextFactId)
    (fun _ _ _ _ kept here level => level.reviewed kept here)
    (fun _ _ _ _ kept here level => level.unreviewed kept here) separate start).rows
  exact beside.recalled

end Runs
namespace Example

def note (key content : String) (status : Option String)
    (built : ({ WriteRequest.plain key content "user" with correctionStatus := status } :
      WriteRequest).postInit =
        .ok { WriteRequest.plain key content "user" with correctionStatus := status }) :
    Submission .plain where
  svc := trusted
  context := caller
  timed := {
    clock := .at "2026-01-03"
    item := {
      request := { WriteRequest.plain key content "user" with correctionStatus := status }
      candidate := none
      requestBuilt := built
      candidateBuilt := WriteItem.unslotted } }

def unchecked : Submission .plain := note "k1" "Alex is in Lima" (some "unreviewed") (by decide +kernel)

def remark : Submission .plain := note "k2" "dogs bark loudly" none (by decide +kernel)

def echoed : Submission .plain := note "k3" "Alex is in Lima" none (by decide +kernel)

def denial : Submission .plain := note "k4" "Alex is not in Lima" none (by decide +kernel)

def recalledAfter (ws : List (Submission .plain)) : Multiset (String × String) :=
  (Run.run Submission.perform Store.empty ws).toLedger.recalled

def nothing : List (Operation .plain) := []

theorem unreviewedInertHere :
    (Run.run Submission.perform (history nothing) [unchecked, remark]).toLedger.recalled =
      (Run.run Submission.perform (history nothing)
        ([unchecked, remark].filter Submission.reviewed)).toLedger.recalled := by
  have dated : ∃ time, parseTimestamp .plain (some "2026-01-03") = .ok time := ⟨_, rfl⟩
  have untyped : ∀ w ∈ [unchecked, remark], w.Untyped := by
    intro w hw
    simp only [List.mem_cons, List.not_mem_nil, or_false] at hw
    rcases hw with rfl | rfl
    · exact ⟨rfl, rfl, dated⟩
    · exact ⟨rfl, rfl, dated⟩
  have admits (s : Store) (open' : ((registerClient s caller "2026-01-03" >>= fun s =>
      registerSession s caller "2026-01-03") : Except Raised Store).toOption.isSome = true) :
      s.Admits caller "2026-01-03" := by
    obtain ⟨t, done⟩ := Option.isSome_iff_exists.mp open'
    exact ⟨t, okOfOption done⟩
  have granted {effective : ConnectionContext} (h : trusted.policy.authorizeContext .plain
      trusted.legacyAuthorized caller = .ok effective) : effective = caller :=
    Except.ok.inj (h.symm.trans (okOfOption (by decide +kernel)))
  refine unreviewedInert untyped (by decide +kernel)
    ⟨⟨nofun, nofun, fun _ effective _ _ found disputes => ?_⟩, ⟨fun _ effective authorized => ?_,
      fun _ effective extracted _ => ⟨fun factId found => ?_, fun _ _ found disputes => ?_,
        fun _ _ _ query _ => ⟨?_, fun candidate near => ?_⟩⟩, nofun⟩, trivial⟩
  · have none' : findUntypedContradiction (history nothing).toLedger
        unchecked.request = none := by decide +kernel
    cases none'.symm.trans disputes
  · obtain rfl := granted authorized
    exact iff_of_true (admits _ (by decide +kernel)) (admits _ (by decide +kernel))
  · have none' : findUntypedExactDuplicate (Run.attempt Submission.perform (history nothing) unchecked).toLedger
        remark.request = none := by decide +kernel
    cases none'.symm.trans found
  · have none' : findUntypedContradiction (Run.attempt Submission.perform (history nothing) unchecked).toLedger
        remark.request = none := by decide +kernel
    cases none'.symm.trans disputes
  · cases query <;> rfl
  · cases query <;> cases near

/-- An unreviewed row absorbs an ordinary write, and a later one disputes an ordinary row. -/
theorem unreviewedBetween :
    recalledAfter [unchecked, echoed] ≠ recalledAfter ([unchecked, echoed].filter Submission.reviewed) ∧
      recalledAfter [denial, unchecked] ≠ recalledAfter ([denial, unchecked].filter Submission.reviewed) := by
  constructor
  · decide +kernel
  · decide +kernel

end Example
end Enfold
