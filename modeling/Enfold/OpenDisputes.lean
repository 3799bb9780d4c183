import Enfold.PairwiseConsistency
import Enfold.Readability
import Enfold.Reopening
import Enfold.TypedAnswers
import Enfold.UntypedTotality
import Enfold.ValidTime

/-! Untyped claims beside an open dispute. The lookups of a write leave disputed facts out, so that a party of
the dispute can be restated, or contradicted again, by a claim that is in no dispute itself. -/
namespace Enfold

open Fallible

variable {rt : Runtime}

def Fact.clashes (f : Fact) (content : String) : Bool :=
  content = f.content || untypedContentsContradict content f.content

/-- An untyped party of a conflict of the scope that nobody has resolved. -/
structure Ledger.DisputedIn (l : Ledger) (scope : String) (f : Fact) : Prop where
  mem : f ∈ l.facts
  untyped : f.isState = false
  filed : ∃ row ∈ l.conflicts, row.resolvedAt = none ∧ row.scope = scope ∧ ⟨row.conflictId, f.factId⟩ ∈ l.members

/-- The fact is current and in no dispute, and was not so before. -/
structure Ledger.Opens (l l' : Ledger) (scope : String) (g : Fact) : Prop where
  mem : g ∈ l'.facts
  here : g.openIn scope = true
  fresh : ∀ f ∈ l.facts, f.factId = g.factId → f.openIn scope = false

/-- What was found leaves the claim a row of its own, current and in no dispute. -/
def UntypedMatch.leavesOpen (l : Ledger) (request : WriteRequest) (recordedAt : String) : UntypedMatch → Bool
  | .duplicate _ => false
  | .contradiction _ => false
  | .nearDuplicate near => (l.fact near.factId).all (!·.protectedFrom request) && near.outrankedBy request recordedAt
  | .fresh => true

/-- The write is new and untyped, and the lookups leave its claim open. -/
def leavesOpen (rt : Runtime) (svc : WriteService) (context : ConnectionContext) (clock : Clock) (s : Store)
    (request : WriteRequest) (extracted : Option ExtractedTypedFields) (query : Option (List Rat)) : Prop :=
  loadPrior s context.clientId request.idempotencyKey = none ∧
    verdict rt svc.policy context s.toLedger request none = .ok .untyped ∧
    (untypedMatch rt svc s request extracted query).leavesOpen s.toLedger request clock.recordedAt = true

section Step
variable {svc : WriteService} {context : ConnectionContext} {clock : Clock} {s t : Store} {l l' : Ledger}
  {request : WriteRequest} {extracted : Option ExtractedTypedFields} {query : Option (List Rat)}
  {outcome : WriteOutcome} {found : UntypedMatch} {result : FactWriteResult} {scope : String}

theorem opensNone {P : String → Prop} (l : Ledger) : ¬ ∃ g, l.Opens l scope g ∧ P g.content := by
  rintro ⟨g, opens, -⟩
  have closed := opens.fresh g opens.mem rfl
  rw [opens.here] at closed
  cases closed

theorem opensInserted {P : String → Prop} (keyed : l.Keyed) {g : Fact} {rows : List Fact}
    (next : g.factId = l.nextFactId) (facts : l'.facts = rows ++ [g])
    (closing : ∀ f ∈ rows, ∃ old ∈ l.facts, old.factId = f.factId ∧ (f.openIn scope = true → old.openIn scope = true)) :
    (∃ h, l.Opens l' scope h ∧ P h.content) ↔ g.openIn scope = true ∧ P g.content := by
  constructor
  · rintro ⟨h, opens, holds⟩
    have mem := opens.mem
    rw [facts] at mem
    rcases List.mem_append.mp mem with mem | mem
    · obtain ⟨old, hold, id, was⟩ := closing h mem
      have closed := opens.fresh old hold id
      rw [was opens.here] at closed
      cases closed
    · rw [← List.mem_singleton.mp mem]
      exact ⟨opens.here, holds⟩
  · rintro ⟨here, holds⟩
    refine ⟨g, ⟨?_, here, fun f hf id => ?_⟩, holds⟩
    · rw [facts]
      exact List.mem_append_right _ List.mem_cons_self
    · have below := keyed.factBound f hf
      rw [id, next] at below
      exact absurd below (Nat.lt_irrefl _)

theorem storedOpen {factId : Nat} {now : String} (kept : Text.strip request.scope = request.scope) :
    (request.stored extracted factId now).openIn request.scope = true := by
  cases extracted with
  | none => simp [WriteRequest.stored, Fact.openIn, Fact.current, WriteRequest.row, kept]
  | some fields => simp [WriteRequest.stored, Fact.persistExtracted, Fact.openIn, Fact.current, WriteRequest.row, kept]

theorem storedContent {factId : Nat} {now : String} :
    (request.stored extracted factId now).content = Text.strip request.content := by
  cases extracted with
  | none => rfl
  | some fields => rfl

theorem untypedOpens {P : String → Prop} (keyed : l.Keyed)
    (kept : Text.strip request.content = request.content ∧ Text.strip request.scope = request.scope)
    (effect : UntypedEffect l request extracted clock found l' result) :
    (∃ g, l.Opens l' request.scope g ∧ P g.content) ↔
      found.leavesOpen l request clock.recordedAt = true ∧ P request.content := by
  have same : ∀ f ∈ l.facts, ∃ old ∈ l.facts, old.factId = f.factId ∧
      (f.openIn request.scope = true → old.openIn request.scope = true) := fun f hf => ⟨f, hf, rfl, id⟩
  cases effect with
  | duplicate => exact iff_of_false (opensNone l) (by simp [UntypedMatch.leavesOpen])
  | fresh =>
    rw [opensInserted keyed (storedDates _ _ _ _).1 rfl same, storedOpen kept.2, storedContent, kept.1]
    simp [UntypedMatch.leavesOpen]
  | @dispute disputed _ opened =>
    obtain ⟨-, subject, predicate, detail, f, -, -, -, -, -, -, rfl⟩ := opened
    rw [opensInserted keyed rfl rfl fun f hf => ?_]
    · simp [UntypedMatch.leavesOpen, Fact.openIn, Fact.disputeAs]
    · obtain ⟨old, hold, rfl⟩ := Table.memAmend.mp hf
      refine ⟨old, hold, ?_⟩
      split
      · exact ⟨rfl, fun here => by simp [Fact.openIn, Fact.disputeAs] at here⟩
      · exact ⟨rfl, id⟩
  | @wins near f mem id here open' ahead =>
    rw [opensInserted keyed rfl rfl fun f hf => ?_]
    · rw [UntypedMatch.leavesOpen, ← id, keyed.find mem, Option.all_some, open', ahead]
      simp [WriteRequest.row, Fact.openIn, Fact.current, kept.1, kept.2]
    · obtain ⟨old, hold, rfl⟩ := Table.memAmend.mp hf
      refine ⟨old, hold, ?_⟩
      split
      · exact ⟨rfl, fun here => by simp [Fact.openIn, Fact.supersede, Fact.current] at here⟩
      · exact ⟨rfl, fun was => was⟩
  | @loses near f mem id here behind =>
    rw [opensInserted keyed rfl rfl same]
    refine iff_of_false (by simp [Fact.openIn, Fact.supersede, Fact.current]) ?_
    rw [UntypedMatch.leavesOpen, ← id, keyed.find mem, Option.all_some]
    rcases behind with guarded | outranking
    · simp [guarded]
    · simp [outranking]

theorem writeOpens {P : String → Prop} (keyed : s.toLedger.Keyed)
    (kept : Text.strip request.content = request.content ∧ Text.strip request.scope = request.scope)
    (unasked : request.supersedeFactId = none)
    (done : transact rt svc context clock s request none extracted query = .ok (t, outcome)) :
    (∃ g, s.toLedger.Opens t.toLedger request.scope g ∧ P g.content) ↔
      leavesOpen rt svc context clock s request extracted query ∧ P request.content := by
  have answer := transactAnswer keyed done
  generalize t.toLedger = l at answer ⊢
  cases answer with
  | replayed known =>
    refine iff_of_false (opensNone _) fun open' => ?_
    rw [open'.1.1] at known
    cases known
  | factless _ judged =>
    refine iff_of_false (opensNone _) fun open' => ?_
    rw [open'.1.2.1] at judged
    cases judged
  | @untyped _ l₁ _ _ _ free _ judged chosen effect superseded =>
    cases superseded with
    | unasked =>
      rw [untypedOpens keyed kept effect, leavesOpen, ← chosen]
      simp [free, judged]
    | retired asked =>
      rw [unasked] at asked
      cases asked
  | typed _ given => cases given

end Step

/-! ## Sequences of writes -/

section Runs
variable {s : Store} {ops ws : List (Operation rt)} {scope : String} {p : Fact}

/-- An untyped write into the scope that asks for no supersession, by a client that may not resolve. -/
def Operation.OrdinaryIn (scope : String) : Operation rt → Prop
  | .write svc context timed => timed.item.candidate = none ∧ timed.item.request.supersedeFactId = none ∧
      timed.item.request.scope = scope ∧ svc.policy.canResolveConflicts context.clientId = false
  | _ => False

/-- The operation leaves no claim open that clashes with the fact. -/
def Operation.HoldsBack (scope : String) (p : Fact) (s : Store) (o : Operation rt) : Prop :=
  ∀ t, o.perform s = .ok t → ¬ ∃ g, s.toLedger.Opens t.toLedger scope g ∧ p.clashes g.content = true

/-- No write that reaches the lookups with a claim that clashes with the fact is left open by them: they find a
duplicate, a contradiction, or a near duplicate that stays. -/
def Operation.Caught (p : Fact) (s : Store) : Operation rt → Prop
  | .write svc context timed => ∀ effective extracted query clients sessions,
      svc.policy.authorizeContext rt svc.legacyAuthorized context = .ok effective →
      extractedTypedFields rt timed.item.request none = .ok extracted →
      prepareNearDedupQuery rt svc effective s timed.item.request none = .ok query →
      (registerClient s effective timed.clock.recordedAt >>= fun s =>
        registerSession s effective timed.clock.recordedAt) = .ok { s with clients, sessions } →
      p.clashes timed.item.request.content = true →
        ¬ leavesOpen rt svc effective timed.clock s timed.item.request extracted query
  | _ => True

theorem openGoes {svc : WriteService} {context : ConnectionContext} {clock : Clock} {request : WriteRequest}
    {extracted : Option ExtractedTypedFields} {query : Option (List Rat)} {clients : List Client}
    {sessions : List Session} (keyed : s.toLedger.Keyed) (bound : s.toLedger.MembersBound)
    (built : request.postInit = .ok request) (unasked : request.supersedeFactId = none)
    (fields : extractedTypedFields rt request none = .ok extracted)
    (both : (registerClient s context clock.recordedAt >>= fun s => registerSession s context clock.recordedAt) =
      .ok { s with clients, sessions })
    (leaves : leavesOpen rt svc context clock s request extracted query) :
    ∃ t outcome, transact rt svc context clock s request none extracted query = .ok (t, outcome) := by
  obtain ⟨free, judged, here⟩ := leaves
  rw [transactFresh both free]
  have apart (found : UntypedContradiction) :
      untypedMatch rt svc { s with clients, sessions } request extracted query ≠ .contradiction found := by
    intro chosen
    have chosen' : untypedMatch rt svc s request extracted query = .contradiction found := chosen
    rw [chosen', UntypedMatch.leavesOpen] at here
    cases here
  refine (writeFreshGoes (s := { s with clients, sessions }) keyed bound built (nonstateExtraction fields)
    (fun found chosen => absurd chosen (apart found)) free (verdictUntyped judged).2).mpr ⟨fun met => ?_, ?_⟩
  · obtain ⟨near, f, search, mem, id, -, disputes⟩ := met.meets
    obtain ⟨found, disputes⟩ := Option.isSome_iff_exists.mp disputes
    have chosen : contradictionFromNearDuplicate s.toLedger request near = some found := by
      rw [contradictionFromNearDuplicate, ← id, keyed.find mem]
      exact disputes
    exact apart found (Matched.nearContradiction met.distinct met.plain met.agrees search chosen).found
  · rw [unasked]
    intro _ impossible
    cases impossible

theorem heldBackIff (keyed : s.toLedger.Keyed) (bound : s.toLedger.MembersBound) {o : Operation rt}
    (ordinary : o.OrdinaryIn scope) : o.HoldsBack scope p s ↔ o.Caught p s := by
  cases o with
  | write svc context timed =>
    obtain ⟨bare, unasked, inside, -⟩ := ordinary
    have built := timed.item.requestBuilt
    -- what a finished write opened is the claim its lookups left open
    have opens {effective extracted query} {t : Store} {outcome : WriteOutcome}
        (ran : transact rt svc effective timed.clock s timed.item.request none extracted query = .ok (t, outcome)) :
        (∃ g, s.toLedger.Opens t.toLedger scope g ∧ p.clashes g.content = true) ↔
          leavesOpen rt svc effective timed.clock s timed.item.request extracted query ∧
            p.clashes timed.item.request.content = true := by
      rw [← inside]
      exact writeOpens (P := fun content => p.clashes content = true) keyed (requestKept built) unasked ran
    constructor
    · intro held effective extracted query clients sessions granted fields prepared both clash leaves
      obtain ⟨t, outcome, ran⟩ := openGoes keyed bound built unasked fields both leaves
      refine held t ?_ ((opens ran).mpr ⟨leaves, clash⟩)
      simp only [Operation.perform, write, bare, granted, okBind, validateStateCandidate, fields, prepared, ran]
    · intro caught t done opened
      simp only [Operation.perform, bindOk, Prod.exists] at done
      obtain ⟨u, outcome, written, last⟩ := done
      cases last
      obtain ⟨effective, extracted, query, granted, -, fields, prepared, ran⟩ := writeSource written
      rw [bare] at fields prepared ran
      obtain ⟨leaves, clash⟩ := (opens ran).mp opened
      obtain ⟨clients, sessions, both, -⟩ := transactSource ran
      exact caught effective extracted query clients sessions granted fields prepared both clash leaves
  | writeBatch => cases ordinary
  | resolveConflict => cases ordinary
  | eraseFact => cases ordinary
  | mergeClusters => cases ordinary
  | storeEmbedding => cases ordinary

/-- No sequence of ordinary writes gets a claim past an open dispute just when each write that clashes with a
party of one is caught. -/
theorem disputesHeld (ordinary : ∀ o ∈ ws, o.OrdinaryIn scope) :
    (∀ p, (history ops).toLedger.DisputedIn scope p → ∀ pre o post, ws = pre ++ o :: post →
        o.HoldsBack scope p (history (ops ++ pre))) ↔
      ∀ p, (history ops).toLedger.DisputedIn scope p → ∀ pre o post, ws = pre ++ o :: post →
        o.Caught p (history (ops ++ pre)) := by
  refine forall_congr' fun p => forall_congr' fun _ => forall_congr' fun pre => forall_congr' fun o =>
    forall_congr' fun post => forall_congr' fun split => ?_
  refine heldBackIff historyKeyed historyMembersBound (ordinary o ?_)
  rw [split]
  exact List.mem_append_right _ List.mem_cons_self

end Runs

namespace Example

theorem vimDisputed : (WriteRequest.plain "k1" ("The editor is " ++ "vim") "user").postInit =
    .ok (WriteRequest.plain "k1" ("The editor is " ++ "vim") "user") := by
  decide +kernel

theorem emacsDisputed : (WriteRequest.plain "k2" ("The editor is " ++ "emacs") "user").postInit =
    .ok (WriteRequest.plain "k2" ("The editor is " ++ "emacs") "user") := by
  decide +kernel

def disputedEditors : List (Operation .plain) :=
  [.write trusted caller (editor "k1" "vim" vimDisputed),
    .write trusted caller (editor "k2" "emacs" emacsDisputed)]

def editorAgain : Operation .plain := .write trusted caller (editor "k3" "vim" (by decide +kernel))

theorem editorAgainOrdinary : ∀ o ∈ [editorAgain], o.OrdinaryIn "private" := by
  intro o only
  rw [List.mem_singleton.mp only]
  exact ⟨rfl, rfl, rfl, by decide +kernel⟩

/-- The claim of the first party stands beside the open dispute. -/
theorem disputeSidestepped : (∀ o ∈ [editorAgain], o.OrdinaryIn "private") ∧
    ¬ ∀ p, (history disputedEditors).toLedger.DisputedIn "private" p → ∀ pre o post, [editorAgain] = pre ++ o :: post →
      o.HoldsBack "private" p (history (disputedEditors ++ pre)) := by
  refine ⟨editorAgainOrdinary, fun held => ?_⟩
  have party : ∃ p ∈ (history disputedEditors).facts, p.isState = false ∧ p.clashes "The editor is vim" = true ∧
      ∃ row ∈ (history disputedEditors).conflicts, row.resolvedAt = none ∧ row.scope = "private" ∧
        ⟨row.conflictId, p.factId⟩ ∈ (history disputedEditors).members := by
    decide +kernel
  obtain ⟨p, mem, untyped, clash, filed⟩ := party
  have open' : ∃ g ∈ (history (disputedEditors ++ [editorAgain])).facts, g.openIn "private" = true ∧
      g.content = "The editor is vim" ∧
      ∀ f ∈ (history disputedEditors).facts, f.factId = g.factId → f.openIn "private" = false := by
    decide +kernel
  obtain ⟨g, hg, here, content, fresh⟩ := open'
  obtain ⟨outcome, wrote, -⟩ := historyWrite disputedEditors (editor "k3" "vim" (by decide +kernel)) .inserted
    (by decide +kernel)
  refine held p ⟨mem, untyped, filed⟩ [] editorAgain [] rfl _ ?_ ⟨g, ⟨hg, here, fresh⟩, content ▸ clash⟩
  exact bindOk.mpr ⟨_, wrote, rfl⟩

/-- Whether the dispute is held against that write. -/
theorem disputesHeldHere :
    (∀ p, (history disputedEditors).toLedger.DisputedIn "private" p → ∀ pre o post, [editorAgain] = pre ++ o :: post →
        o.HoldsBack "private" p (history (disputedEditors ++ pre))) ↔
      ∀ p, (history disputedEditors).toLedger.DisputedIn "private" p → ∀ pre o post, [editorAgain] = pre ++ o :: post →
        o.Caught p (history (disputedEditors ++ pre)) :=
  disputesHeld editorAgainOrdinary

end Example
end Enfold
