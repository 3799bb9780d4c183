import Enfold.Promotion
import Enfold.Replay

/-! A promotion asked for again under its own key. The handler reads the source fact before the write
log is consulted, so the retry is answered from the log only while the source still says what it said. -/
namespace Enfold

open Fallible

variable {rt : Runtime} {svc : WriteService} {context other effective : ConnectionContext} {clock : Clock}
  {s t u : Store} {key : String} {asked : RequestPayload}

/-! ## What a store remembers of a client and a key -/

/-- The client and its session are registered as they connected, and the key has its fingerprint. -/
structure Store.Remembers (s : Store) (context : ConnectionContext) (key : String)
    (asked : RequestPayload) : Prop where
  client : ∃ client, s.clients.find? (·.clientId = context.clientId) = some client ∧
    client.surface = context.surface ∧ client.disabledAt = none
  session : ∃ session, s.sessions.find? (·.isOf context) = some session ∧
    session.sameContext context = true
  logged : ∃ row, loadPrior s context.clientId key = some row ∧ row.requestSha256 = asked

theorem registeredKnown {clients : List Client} {sessions : List Session} {now : String}
    (both : (registerClient s context now >>= fun s => registerSession s context now) =
      .ok { s with clients, sessions }) :
    (∃ client, clients.find? (·.clientId = context.clientId) = some client ∧
      client.surface = context.surface ∧ client.disabledAt = none) ∧
    ∃ session, sessions.find? (·.isOf context) = some session ∧ session.sameContext context = true := by
  obtain ⟨middle, first, second⟩ := bindOk.mp both
  obtain ⟨clients', rfl⟩ := registerClientSource first
  obtain ⟨sessions', same⟩ := registerSessionSource second
  have here : clients = clients' := congrArg Store.clients same
  subst here
  constructor
  · unfold registerClient at first
    split at first
    · rename_i absent
      have rows := (congrArg Store.clients (Except.ok.inj first)).symm
      dsimp only at rows
      rw [rows, List.find?_append, absent]
      exact ⟨⟨context.clientId, context.surface, context.displayName, now, none⟩, by simp, rfl, rfl⟩
    · rename_i client found
      simp only [bindOk, ensureOk, decide_eq_true_eq, Option.isNone_iff_eq_none] at first
      obtain ⟨-, surface, -, enabled, last⟩ := first
      have rows : clients = s.clients := (congrArg Store.clients (Except.ok.inj last)).symm
      rw [rows]
      exact ⟨client, found, surface, enabled⟩
  · unfold registerSession at second
    split at second
    · rename_i absent
      have rows := (congrArg Store.sessions (Except.ok.inj second)).symm
      dsimp only at rows absent
      rw [rows, List.find?_append, absent]
      exact ⟨context.session now, by simp [Session.isOf, ConnectionContext.session],
        by simp [Session.sameContext, ConnectionContext.session]⟩
    · rename_i session found
      simp only [bindOk, ensureOk] at second
      obtain ⟨-, shape, last⟩ := second
      have rows := (congrArg Store.sessions (Except.ok.inj last)).symm
      dsimp only at rows found
      have own := List.find?_some found
      refine ⟨{ session with branch := context.branch, commitSha := context.commitSha }, ?_, shape⟩
      rw [rows, Table.amend, List.find?_map]
      have still : ((fun session : Session => session.isOf context) ∘ fun session : Session =>
          if session.isOf context then
            { session with branch := context.branch, commitSha := context.commitSha }
          else session) = fun session => session.isOf context := by
        funext session
        simp only [Function.comp_apply]
        split
        · rfl
        · rfl
      rw [still, found, Option.map_some, if_pos own]

theorem transactRegisters {request : WriteRequest} {candidate : Option StateCandidate}
    {extracted : Option ExtractedTypedFields} {query : Option (List Rat)} {outcome : WriteOutcome}
    (h : transact rt svc effective clock s request candidate extracted query = .ok (t, outcome)) :
    ∃ clients sessions, (registerClient s effective clock.recordedAt >>= fun s =>
        registerSession s effective clock.recordedAt) = .ok { s with clients, sessions } ∧
      t.clients = clients ∧ t.sessions = sessions := by
  obtain ⟨clients, sessions, both, ⟨prior, -, -, rfl, -⟩ | ⟨-, fresh⟩⟩ := transactSource h
  · exact ⟨clients, sessions, both, rfl, rfl⟩
  · refine ⟨clients, sessions, both, ?_⟩
    rcases writeFreshSource fresh with ⟨decision, -, done⟩ |
        ⟨applied, observations, observationId, -, -, concluded⟩ |
        ⟨slot, effective, applied, observations, observationId, -, -, concluded⟩
    · obtain ⟨-, ⟨-, -, rfl⟩ | ⟨-, rfl⟩⟩ := concludeFactlessSource done
      · exact ⟨rfl, rfl⟩
      · exact ⟨rfl, rfl⟩
    · obtain ⟨l, superseded, resolutions, jobs, provenance, -, -, -, -, rfl⟩ :=
        concludeAppliedSource concluded
      exact ⟨rfl, rfl⟩
    · obtain ⟨l, superseded, resolutions, jobs, provenance, -, -, -, -, rfl⟩ :=
        concludeAppliedSource concluded
      exact ⟨rfl, rfl⟩

structure Fact.Promotable (f : Fact) (context : ConnectionContext) : Prop where
  visible : factIsVisible context.accessScopes f = true
  run : isRunScope f.scope = true
  current : f.current = true

section Requests
variable {f g : Fact} {idempotencyKey target : String} {request : WriteRequest}
  {candidate : Option StateCandidate}

end Requests

/-! ## The retry -/

section Retry
variable {params : JsonObject} {outcome : WriteOutcome} {source : Fact}

theorem serviceWriteSource :
    serviceWrite rt svc context clock s params = .ok (t, outcome) ↔
      ∃ request candidate, prepareWrite rt context params = .ok (request, candidate) ∧
        write rt svc context clock s request candidate = .ok (t, outcome) := by
  simp only [serviceWrite, mapFailureOk, bindOk, Prod.exists]

theorem promoteAgain (done : promote rt svc context clock s params = .ok (t, outcome)) :
    ∃ factId key target source,
      readPositiveInt "fact_id" ((params.lookup "fact_id").getD .null) = .ok factId ∧
      readText "idempotency_key" ((params.lookup "idempotency_key").getD .null) = .ok key ∧
      s.fact factId = some source ∧
      serviceWrite rt svc context clock s (promotionParams key target source) = .ok (t, outcome) ∧
      ∀ again u answer, promote rt svc context again u params = .ok answer ↔
        ∃ now, u.fact factId = some now ∧ now.Promotable context ∧
          serviceWrite rt svc context again u (promotionParams key target now) = .ok answer := by
  simp only [promote, bindOk, ensureOk, Bool.not_eq_true'] at done
  obtain ⟨⟨⟩, listed, factId, factHere, target, targetHere, scope, scopeHere, -, durable, -, granted,
    done⟩ := done
  split at done
  · cases done
  · rename_i source found
    simp only [bindOk, ensureOk] at done
    obtain ⟨-, -, -, -, -, -, key, keyHere, done⟩ := done
    refine ⟨factId, key, scope, source, factHere, keyHere, found, done, fun again u answer => ?_⟩
    cases here : u.fact factId with
    | none =>
      have unseen : promote rt svc context again u params = .error (accessDenied "fact is not visible") := by
        unfold promote
        simp only [listed, factHere, targetHere, scopeHere, durable, granted, here, okBind]
        rfl
      rw [unseen]
      refine iff_of_false (by rintro ⟨⟩) ?_
      rintro ⟨now, ⟨⟩, -⟩
    | some now =>
      have seen : promote rt svc context again u params = (do
          ensure (factIsVisible context.accessScopes now) (accessDenied "fact is not visible")
          ensure (isRunScope now.scope) (invalidParams "only run-scoped facts can be promoted")
          ensure now.current (invalidParams "source fact is not current")
          serviceWrite rt svc context again u (promotionParams key scope now)) := by
        unfold promote
        simp only [listed, factHere, targetHere, scopeHere, durable, granted, keyHere, here, okBind]
        rfl
      rw [seen]
      constructor
      · intro again
        simp only [bindOk, ensureOk] at again
        obtain ⟨-, visible, -, run, -, current, again⟩ := again
        exact ⟨now, rfl, ⟨visible, run, current⟩, again⟩
      · rintro ⟨_, ⟨⟩, ⟨visible, run, current⟩, again⟩
        simp only [visible, run, current, ensure, if_true, okBind, again]

theorem Store.Remembers.registers {request : RequestPayload} {key : String}
    (remembers : s.Remembers context key request) : s.Registers context :=
  registersFound remembers.client remembers.session

end Retry
namespace Example

-- another write comes between
def between : List (Operation .plain) := [.write trusted caller oslo]

end Example
end Enfold
