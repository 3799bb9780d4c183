import Enfold.ExtractionJobs
import Enfold.Foundation.ExclusiveLane
import Enfold.PromotionRetry
import Enfold.Protocol

/-! The exclusive lane of the daemon. A mutating request runs in a thread of its own under the handler lock, and
its connection waits for it only until the deadline; the thread goes on without it. -/
namespace Enfold

open ExclusiveLane Fallible

/-! ## What a mutating request does -/

section Identity
variable (rt : Runtime)

mutual
/-- `_reject_nested_identity`: no object of the parameters, at any depth, names the identity of a connection. -/
def rejectNestedIdentity (path : String) : Json → Except Raised Unit
  | .obj members => do
    let forbidden := immutableContextFields.filter (members.map Prod.fst).contains
    ensure (forbidden = []) (invalidParams
      (path ++ " cannot contain connection identity fields: " ++ listRepr rt (sortNames forbidden)))
    rejectMembers path members
  | .arr items => rejectItems path 0 items
  | _ => .ok ()
def rejectMembers (path : String) : List (String × Json) → Except Raised Unit
  | [] => .ok ()
  | (key, item) :: rest => do
    rejectNestedIdentity (path ++ "." ++ key) item
    rejectMembers path rest
def rejectItems (path : String) (index : Nat) : List Json → Except Raised Unit
  | [] => .ok ()
  | item :: rest => do
    rejectNestedIdentity (path ++ "[" ++ toString index ++ "]") item
    rejectItems path (index + 1) rest
end

def Json.anonymous : Json → Bool
  | .obj members => decide (immutableContextFields.filter (members.map Prod.fst).contains = [])
  | _ => true

variable {rt}

mutual
theorem nestedAnonymous : (v : Json) → ∀ path, rejectNestedIdentity rt path v = .ok () ↔
    v.every Json.anonymous = true
  | .obj members, path => by
    simp only [rejectNestedIdentity, bindOk, ensureOk, Json.every, Json.anonymous, Bool.and_eq_true,
      decide_eq_true_eq, membersAnonymous members path, exists_const]
  | .arr items, path => by
    simp only [rejectNestedIdentity, Json.every, Json.anonymous, Bool.true_and, itemsAnonymous items path 0]
  | .null, _ | .bool _, _ | .int _, _ | .float _, _ | .str _, _ => by
    simp [rejectNestedIdentity, Json.every, Json.anonymous]
theorem membersAnonymous : (members : JsonObject) → ∀ path, rejectMembers rt path members = .ok () ↔
    Json.everyMember Json.anonymous members = true
  | [], _ => by simp [rejectMembers, Json.everyMember]
  | (key, item) :: rest, path => by
    simp only [rejectMembers, bindOk, Json.everyMember, Bool.and_eq_true, nestedAnonymous item,
      membersAnonymous rest path, exists_const]
theorem itemsAnonymous : (items : List Json) → ∀ path index, rejectItems rt path index items = .ok () ↔
    Json.everyItem Json.anonymous items = true
  | [], _, _ => by simp [rejectItems, Json.everyItem]
  | item :: rest, path, index => by
    simp only [rejectItems, bindOk, Json.everyItem, Bool.and_eq_true, nestedAnonymous item,
      itemsAnonymous rest path (index + 1), exists_const]
end

end Identity

structure ServedStore where
  store : Store
  nextQueueId : Nat

inductive Mutation where
  | write (context : ConnectionContext) (clock : Clock) (params : JsonObject)
  | promote (context : ConnectionContext) (clock : Clock) (params : JsonObject)
  | resolveConflict (context : ConnectionContext) (conflictId factId : Nat)
      (reason resolvedAt queuedAt : String)
  /-- The canonical payload of `memory.extraction.enqueue`. -/
  | enqueue (context : ConnectionContext) (payload createdAt : String)

inductive MutationAnswer where
  | written (outcome : WriteOutcome)
  | resolved (resolution : ConflictResolution)
  | queued (queueId : Nat) (replayed : Bool)

section Handler
variable (rt : Runtime) (svc : WriteService)

/-- `EnfoldService.handle` on the mutating routes. -/
def handleMutation (s : ServedStore) : Mutation → Except Raised (ServedStore × MutationAnswer)
  | .write context clock params => do
    rejectNestedIdentity rt "params" (.obj params)
    let effective ← authorize rt svc context
    let (t, outcome) ← serviceWrite rt svc effective clock s.store params
    .ok ({ s with store := t }, .written outcome)
  | .promote context clock params => do
    rejectNestedIdentity rt "params" (.obj params)
    let effective ← authorize rt svc context
    let (t, outcome) ← promote rt svc effective clock s.store params
    .ok ({ s with store := t }, .written outcome)
  | .resolveConflict context conflictId factId reason resolvedAt queuedAt => do
    let effective ← authorize rt svc context
    let (t, resolution) ← resolveConflict rt svc effective s.store conflictId factId reason resolvedAt queuedAt
    .ok ({ s with store := t }, .resolved resolution)
  | .enqueue context payload createdAt => do
    let _ ← authorize rt svc context
    let (t, queueId, replayed) := enqueueExtraction rt s.store s.nextQueueId payload createdAt
    .ok (⟨t, if replayed then s.nextQueueId else s.nextQueueId + 1⟩, .queued queueId replayed)

/-- A request that raises leaves the store as it was. -/
def mutate : Perform ServedStore Mutation (Except Raised MutationAnswer) := fun call s =>
  match handleMutation rt svc s call with
  | .ok (t, answer) => (t, .ok answer)
  | .error raised => (s, .error raised)

/-- The daemon over a store: connections ask, threads run, deadlines pass and answers go out in any order. -/
abbrev DaemonLane := Lane ServedStore Mutation (Except Raised MutationAnswer)

def DaemonLane.Reachable (start : ServedStore) : DaemonLane → Prop :=
  Relation.ReflTransGen (Step (mutate rt svc)) (.idle start)

end Handler

section Lane
variable {rt : Runtime} {svc : WriteService} {start s t : ServedStore} {call : Mutation}
  {answer : MutationAnswer} {context effective : ConnectionContext} {clock : Clock} {params : JsonObject}

/-! ## One request -/

theorem prepareWriteAgent {other : ConnectionContext} (agent : other.agentId = context.agentId) :
    prepareWrite rt other params = prepareWrite rt context params := by
  simp only [prepareWrite, agent]

theorem serviceAnswered {s t : Store} {outcome : WriteOutcome}
    (granted : authorize rt svc context = .ok effective)
    (served : serviceWrite rt svc effective clock s params = .ok (t, outcome)) :
    ∃ asked request candidate, asked.clientId = context.clientId ∧ asked.agentId = context.agentId ∧
      prepareWrite rt asked params = .ok (request, candidate) ∧
      Answered rt asked clock s t request candidate outcome ∧ validateStateCandidate request candidate = .ok () ∧
      request.Known rt ∧ ∃ extracted, extractedTypedFields rt request candidate = .ok extracted := by
  obtain ⟨request, candidate, prepared, written⟩ := serviceWriteSource.mp served
  obtain ⟨asked, extracted, query, allowed, valid, fields, queried, done⟩ := writeSource written
  have outer := (authorizeTwice (authorizeSource granted)).1
  have inner := (authorizeTwice allowed).1
  have agent : asked.agentId = effective.agentId := by
    rw [inner]
  obtain ⟨decision, evaluated, -⟩ := bindOk.mp queried
  refine ⟨asked, request, candidate, ?_, ?_, ?_, answered done, valid, ?_, extracted, fields⟩
  · rw [inner, outer]
  · rw [inner, outer]
  · rw [prepareWriteAgent agent, prepared]
  · exact (evaluateKnown _ _ _ _).mp ⟨decision, evaluated⟩

theorem writtenSource (h : handleMutation rt svc s (.write context clock params) = .ok (t, answer)) :
    ∃ asked request candidate outcome, asked.clientId = context.clientId ∧ asked.agentId = context.agentId ∧
      prepareWrite rt asked params = .ok (request, candidate) ∧ answer = .written outcome ∧
      Answered rt asked clock s.store t.store request candidate outcome ∧ t.nextQueueId = s.nextQueueId := by
  simp only [handleMutation, bindOk, Prod.exists] at h
  obtain ⟨-, -, effective, granted, u, outcome, served, last⟩ := h
  cases last
  obtain ⟨asked, request, candidate, client, agent, prepared, answered, -⟩ := serviceAnswered granted served
  exact ⟨asked, request, candidate, outcome, client, agent, prepared, rfl, answered, rfl⟩

theorem enqueuedLog {nextQueueId : Nat} {payload createdAt : String} {s : Store} :
    (enqueueExtraction rt s nextQueueId payload createdAt).1.writeLog = s.writeLog := by
  unfold enqueueExtraction
  dsimp only
  split <;> rfl

/-- One row a key, behind the rows of `base`. -/
structure Store.Lengthens (base s : Store) : Prop where
  single : Table.Unique WriteLogRow.key s.writeLog
  older : base.writeLog <+: s.writeLog

theorem Store.Lengthens.same {base s t : Store} (h : base.Lengthens s) (log : t.writeLog = s.writeLog) :
    base.Lengthens t := by
  obtain ⟨single, older⟩ := h
  rw [← log] at single older
  exact ⟨single, older⟩

theorem Store.Lengthens.answered {base s t : Store} {request : WriteRequest} {candidate : Option StateCandidate}
    {outcome : WriteOutcome} (h : base.Lengthens s)
    (answer : Answered rt context clock s t request candidate outcome) : base.Lengthens t := by
  cases answer with
  | replayed known same registered =>
    rw [registered]
    exact ⟨h.single, h.older⟩
  | passing free log => exact h.same log
  | logged free known log =>
    refine ⟨?_, ?_⟩
    · rw [log]
      refine Table.uniqueAppend h.single fun row hr same => ?_
      exact loadPriorNone.mp free row hr (Prod.ext_iff.mp same)
    · rw [log]
      exact h.older.trans (List.prefix_append _ _)

variable (rt svc)

theorem mutateLengthens (call : Mutation) {base : Store} (h : base.Lengthens s.store) :
    base.Lengthens (mutate rt svc call s).1.store := by
  unfold mutate
  split
  · rename_i t answer done
    cases call with
    | write context clock params =>
      obtain ⟨asked, request, candidate, outcome, -, -, -, -, answered, -⟩ := writtenSource done
      exact h.answered answered
    | promote context clock params =>
      simp only [handleMutation, bindOk, Prod.exists] at done
      obtain ⟨-, -, effective, granted, u, outcome, promoted, last⟩ := done
      cases last
      obtain ⟨-, key, target, source, -, -, -, served, -⟩ := promoteAgain promoted
      obtain ⟨asked, request, candidate, -, -, -, answered, -⟩ := serviceAnswered granted served
      exact h.answered answered
    | resolveConflict context conflictId factId reason resolvedAt queuedAt =>
      simp only [handleMutation, bindOk, Prod.exists] at done
      obtain ⟨effective, -, u, resolution, resolved, last⟩ := done
      cases last
      obtain ⟨clients, sessions, resolutions, jobs, l, -, same⟩ := resolveConflictSource resolved
      rw [same]
      exact ⟨h.single, h.older⟩
    | enqueue context payload createdAt =>
      simp only [handleMutation, bindOk] at done
      obtain ⟨-, -, last⟩ := done
      cases last
      exact h.same enqueuedLog
  · exact h

theorem serialLengthens (calls : List Mutation) {base : Store} (h : base.Lengthens s.store) :
    base.Lengthens (serial (mutate rt svc) s calls).1.store := by
  induction calls generalizing s with
  | nil => exact h
  | cons call rest ih => exact ih (mutateLengthens rt svc call h)

variable {rt svc}

abbrev RunOrder := List (Nat × Mutation × Except Raised MutationAnswer)

def RunsBefore (order : RunOrder) (first later : Nat × Mutation × Except Raised MutationAnswer) : Prop :=
  ∃ pre mid post, order = pre ++ first :: (mid ++ later :: post)

variable {lane : DaemonLane}

/-- Whatever the connections, threads and deadlines do, the store is the one that some order of the requests
leaves when each runs once and alone: the answers that went out are the answers of that order, whoever has his
answer before another asks comes first in it, and the log of the store only grows. -/
theorem daemonLinear (reach : DaemonLane.Reachable rt svc start lane) :
    ∃ order : RunOrder, (order.map Prod.fst).Nodup ∧
      (∀ run ∈ order, Event.submitted run.1 run.2.1 ∈ lane.history) ∧
      (∀ k call other, Event.submitted k call ∈ lane.history → Event.submitted k other ∈ lane.history → call = other) ∧
      serial (mutate rt svc) start (order.map fun run => run.2.1) =
        (lane.store, order.map fun run => run.2.2) ∧
      (∀ k a, Event.answered k a ∈ lane.history → ∃ call, (k, call, a) ∈ order) ∧
      (∀ j k a b call, Before lane.history (.answered j a) (.submitted k call) → (k, call, b) ∈ order →
        ∃ other, RunsBefore order (j, other, a) (k, call, b)) ∧
      (Table.Unique WriteLogRow.key start.store.writeLog → start.store.Lengthens lane.store.store) := by
  have linear := reachableLinear reach
  refine ⟨runs lane.history, linear.once, fun run ran => ?_, linear.single, linear.replayed, ?_, ?_, ?_⟩
  · exact (beforeMem (linear.asked run.1 run.2.1 run.2.2 (runsMem.mp ran))).1
  · intro k a answered
    obtain ⟨call, before⟩ := linear.told k a answered
    exact ⟨call, runsMem.mpr (beforeMem before).1⟩
  · intro j k a b call seen ran
    obtain ⟨other, pre, mid, post, shape⟩ := linear.inTime seen (runsMem.mp ran)
    refine ⟨other, runs pre, runs mid, runs post, ?_⟩
    rw [shape]
    simp only [runs, List.filterMap_append, List.filterMap_cons]
  · intro single
    have longer := serialLengthens rt svc ((runs lane.history).map fun run => run.2.1)
      (⟨single, List.prefix_rfl⟩ : start.store.Lengthens start.store)
    rwa [linear.replayed] at longer

end Lane

namespace Example

def fresh : ServedStore := ⟨.empty, 1⟩

def catWrite : JsonObject :=
  [("idempotency_key", .str "k1"), ("content", .str "a cat sat on the mat"), ("source_type", .str "user")]

def asked : Mutation := .write caller (.at "2026-01-03") catWrite

def askedAgain : Mutation := .write { caller with sessionId := "later" } (.at "2026-01-04") catWrite

def ranOnce : ServedStore × Except Raised MutationAnswer := mutate .plain trusted asked fresh

def ranTwice : ServedStore × Except Raised MutationAnswer := mutate .plain trusted askedAgain ranOnce.1

theorem retriedReachable : ∃ lane, DaemonLane.Reachable .plain trusted fresh lane ∧
    lane.history = [.submitted 0 asked, .late 0, .ran 0 asked ranOnce.2, .submitted 1 askedAgain,
      .ran 1 askedAgain ranTwice.2, .answered 1 ranTwice.2] ∧ lane.store = ranTwice.1 := by
  have late : DaemonLane.Reachable .plain trusted fresh _ :=
    .tail (.tail (.tail (.tail .refl (.submits 0 asked rfl)) (.begins (k := 0) (r := asked) rfl rfl))
      (.expires (k := 0) (r := asked) (.inr rfl) rfl)) (.ends (k := 0) (r := asked) rfl)
  have answered : DaemonLane.Reachable .plain trusted fresh _ :=
    .tail (.tail (.tail (.tail late (.submits 1 askedAgain rfl)) (.begins (k := 1) (r := askedAgain) rfl rfl))
      (.ends (k := 1) (r := askedAgain) rfl)) (.answers (k := 1) (r := askedAgain) (a := ranTwice.2) rfl rfl)
  exact ⟨_, answered, rfl, rfl⟩

theorem daemonLinearHere : ∃ lane, DaemonLane.Reachable .plain trusted fresh lane ∧
    Event.answered 1 ranTwice.2 ∈ lane.history ∧ ∃ order : RunOrder, (order.map Prod.fst).Nodup ∧
      (∀ run ∈ order, Event.submitted run.1 run.2.1 ∈ lane.history) ∧
      serial (mutate .plain trusted) fresh (order.map fun run => run.2.1) =
        (lane.store, order.map fun run => run.2.2) ∧
      ∃ call, (1, call, ranTwice.2) ∈ order := by
  obtain ⟨lane, reach, history, -⟩ := retriedReachable
  have answered : Event.answered 1 ranTwice.2 ∈ lane.history := by simp [history]
  obtain ⟨order, once, asks, -, replayed, told, -⟩ := daemonLinear reach
  exact ⟨lane, reach, answered, order, once, asks, replayed, told 1 _ answered⟩

end Example

section Retries
variable {rt : Runtime} {svc : WriteService} {start : ServedStore} {context : ConnectionContext} {clock : Clock}
  {params : JsonObject} {lane : DaemonLane}

end Retries

namespace Example

def inserts : MutationAnswer → Bool
  | .written outcome => outcome.outcome = .inserted
  | .resolved _ => false
  | .queued _ _ => false

end Example
end Enfold
