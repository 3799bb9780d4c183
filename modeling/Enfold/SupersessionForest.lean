import Enfold.Foundation.Succession
import Enfold.MergeProtection
import Enfold.PairwiseConsistency
import Enfold.TransactionTime
import Enfold.TypedAnswers

/-! What replaced what: the successors of retired facts form a forest. Whatever an operation retires it
retires for a fact that nothing has replaced yet, so that no chain is ever closed. -/
namespace Enfold

open Fallible

variable {rt : Runtime} {l l' : Ledger}

def Ledger.successor (l : Ledger) (factId : Nat) : Option Nat := (l.fact factId).bind Fact.supersededBy

theorem Ledger.Keyed.successor (keyed : l.Keyed) {f : Fact} (mem : f ∈ l.facts) :
    l.successor f.factId = f.supersededBy := by
  rw [Ledger.successor, keyed.find mem]
  rfl

theorem successorSource {factId k : Nat} (h : l.successor factId = some k) :
    ∃ f ∈ l.facts, f.factId = factId ∧ f.supersededBy = some k := by
  obtain ⟨f, found, replaced⟩ := Option.bind_eq_some_iff.mp h
  obtain ⟨mem, id⟩ := Ledger.factFind found
  exact ⟨f, mem, id, replaced⟩

/-- The fact is disputed in a conflict of its own scope. -/
def Fact.Grouped (conflicts : List Conflict) (f : Fact) : Prop :=
  ∀ c, f.conflictGroup = some c → ∃ row ∈ conflicts, row.conflictId = c ∧ row.scope = f.scope

structure Ledger.Forest (l : Ledger) : Prop extends l.Keyed where
  dated : ∀ f ∈ l.facts, f.supersededBy ≠ none → f.invalidAt ≠ none
  kin : ∀ f ∈ l.facts, ∀ k, f.supersededBy = some k → ∃ g ∈ l.facts, g.factId = k ∧ g.scope = f.scope
  ends : ∀ factId, Succession.Ends l.successor factId
  grouped : ∀ f ∈ l.facts, f.Grouped l.conflicts

inductive Placed (l l' : Ledger) (f : Fact) : Prop
  | root (current : f.supersededBy = none)
  | kept {old} (mem : old ∈ l.facts) (id : old.factId = f.factId) (same : f.supersededBy = old.supersededBy)
      (scope : f.scope = old.scope) (dead : old.invalidAt ≠ none → f.invalidAt ≠ none)
  | given {g} (mem : g ∈ l'.facts) (replaced : f.supersededBy = some g.factId) (scope : g.scope = f.scope)
      (dead : f.invalidAt ≠ none) (last : g.supersededBy = none)

namespace Ledger

theorem Forest.update (forest : l.Forest) (keyed : l'.Keyed)
    (stays : ∀ f ∈ l.facts, ∀ g ∈ l'.facts, g.supersededBy = some f.factId →
      ∃ f' ∈ l'.facts, f'.factId = f.factId ∧ f'.scope = f.scope)
    (placed : ∀ f ∈ l'.facts, Placed l l' f) (grouped : ∀ f ∈ l'.facts, f.Grouped l'.conflicts) :
    l'.Forest where
  toKeyed := keyed
  dated f hf replaced := by
    cases placed f hf with
    | root current => exact absurd current replaced
    | kept mem id same scope dead => exact dead (forest.dated _ mem (same ▸ replaced))
    | given mem replaced scope dead last => exact dead
  kin f hf k replaced := by
    cases placed f hf with
    | root current =>
      rw [current] at replaced
      cases replaced
    | @kept old mem id same scope dead =>
      obtain ⟨g, hg, gid, gscope⟩ := forest.kin old mem k (same ▸ replaced)
      obtain ⟨g', hg', gid', gscope'⟩ := stays g hg f hf (gid ▸ replaced)
      exact ⟨g', hg', gid'.trans gid, gscope'.trans (gscope.trans scope.symm)⟩
    | @given g mem replaced' scope dead last =>
      exact ⟨g, mem, Option.some.inj (replaced'.symm.trans replaced), scope⟩
  ends factId := by
    refine (forest.ends factId).redirect fun a b onward => ?_
    obtain ⟨f, hf, rfl, replaced⟩ := successorSource onward
    cases placed f hf with
    | root current =>
      rw [current] at replaced
      cases replaced
    | @kept old mem id same scope dead =>
      left
      rw [← id, forest.toKeyed.successor mem, ← same, replaced]
    | @given g mem replaced' scope dead last =>
      right
      rw [← Option.some.inj (replaced'.symm.trans replaced), keyed.successor mem, last]
  grouped := grouped

theorem Forest.join (forest : l.Forest) {m : Member} : (l.join m).Forest :=
  ⟨forest.toKeyed.join, forest.dated, forest.kin, forest.ends, forest.grouped⟩

theorem Forest.insert (forest : l.Forest) {g : Fact} (next : g.factId = l.nextFactId)
    (place : g.supersededBy = none ∨ g.invalidAt ≠ none ∧ ∃ w ∈ l.facts, g.supersededBy = some w.factId ∧
      w.scope = g.scope ∧ w.supersededBy = none) (grouped : g.Grouped l.conflicts) : (l.insert g).Forest := by
  refine forest.update (forest.toKeyed.insert next)
    (fun f hf _ _ _ => ⟨f, List.mem_append_left _ hf, rfl, rfl⟩) (fun f hf => ?_) fun f hf => ?_
  · rcases List.mem_append.mp hf with hf | hf
    · exact .kept hf rfl rfl rfl id
    · obtain rfl := List.mem_singleton.mp hf
      rcases place with current | ⟨dead, w, hw, replaced, scope, last⟩
      · exact .root current
      · exact .given (List.mem_append_left _ hw) replaced scope dead last
  · rcases List.mem_append.mp hf with hf | hf
    · exact forest.grouped f hf
    · obtain rfl := List.mem_singleton.mp hf
      exact grouped

theorem Forest.amend (forest : l.Forest) {m : Fact → Fact} (keyed : l'.Keyed) (facts : l'.facts = l.facts.map m)
    (ids : ∀ f, (m f).factId = f.factId) (scopes : ∀ f, (m f).scope = f.scope)
    (place : ∀ f ∈ l.facts, ((m f).supersededBy = f.supersededBy ∧ (f.invalidAt ≠ none → (m f).invalidAt ≠ none)) ∨
      ((m f).invalidAt ≠ none ∧ ∃ w ∈ l.facts, (m f).supersededBy = some w.factId ∧ w.scope = f.scope ∧
        (m w).supersededBy = none))
    (grouped : ∀ f ∈ l.facts, (m f).Grouped l'.conflicts) : l'.Forest := by
  refine forest.update keyed (fun f hf _ _ _ => ⟨m f, ?_, ids f, scopes f⟩) (fun f hf => ?_) fun f hf => ?_
  · rw [facts]
    exact List.mem_map_of_mem hf
  · rw [facts] at hf
    obtain ⟨old, hold, rfl⟩ := List.mem_map.mp hf
    rcases place old hold with ⟨same, dead⟩ | ⟨dead, w, hw, replaced, scope, last⟩
    · exact .kept hold (ids old).symm same (scopes old) dead
    · refine .given (g := m w) ?_ (replaced.trans (congrArg some (ids w).symm)) ?_ dead last
      · rw [facts]
        exact List.mem_map_of_mem hw
      · rw [scopes w, scopes old, scope]
  · rw [facts] at hf
    obtain ⟨old, hold, rfl⟩ := List.mem_map.mp hf
    exact grouped old hold

theorem Forest.retire (forest : l.Forest) {f w : Fact} {h : Fact → Fact} (mem : f ∈ l.facts) (there : w ∈ l.facts)
    (apart : w.factId ≠ f.factId) (last : w.supersededBy = none) (ids : ∀ f, (h f).factId = f.factId)
    (scopes : ∀ f, (h f).scope = f.scope) (groups : ∀ f, (h f).conflictGroup = f.conflictGroup)
    (dead : (h f).invalidAt ≠ none) (replaced : (h f).supersededBy = some w.factId)
    (scope : w.scope = f.scope) : (l.retire f.factId h).Forest := by
  refine forest.amend (m := fun g => if decide (g.factId = f.factId) = true then h g else g)
    (forest.toKeyed.amend ids) rfl (fun g => ?_) (fun g => ?_) (fun g hg => ?_) fun g hg => ?_
  · split
    · exact ids g
    · rfl
  · split
    · exact scopes g
    · rfl
  · split
    · rename_i same
      obtain rfl := Table.uniqueEq forest.factIds hg mem (of_decide_eq_true same)
      exact .inr ⟨dead, w, there, replaced, scope, by rw [if_neg (by simpa using apart)]; exact last⟩
    · exact .inl ⟨rfl, id⟩
  · have before := forest.grouped g hg
    unfold Fact.Grouped at before ⊢
    split
    · rw [groups, scopes]
      exact before
    · exact before

theorem Forest.openConflict (forest : l.Forest) (row : Conflict) (factIds : List Nat) {mark : Fact → Fact}
    (next : row.conflictId = l.nextConflictId)
    (marks : ∀ f, (mark f).factId = f.factId ∧ (mark f).scope = f.scope ∧ (mark f).supersededBy = f.supersededBy ∧
      (mark f).invalidAt = f.invalidAt ∧ (mark f).conflictGroup = some row.conflictId)
    (members : ∀ f ∈ l.facts, f.factId ∈ factIds → f.scope = row.scope) :
    (l.openConflict row factIds mark).Forest := by
  refine forest.amend (m := fun g => if factIds.contains g.factId = true then mark g else g)
    (forest.toKeyed.openConflict row factIds next fun f => (marks f).1) rfl (fun g => ?_) (fun g => ?_)
    (fun g hg => .inl ?_) fun g hg c group => ?_
  · split
    · exact (marks g).1
    · rfl
  · split
    · exact (marks g).2.1
    · rfl
  · split
    · exact ⟨(marks g).2.2.1, fun dead => (marks g).2.2.2.1 ▸ dead⟩
    · exact ⟨rfl, id⟩
  · split at group
    · rename_i listed
      obtain ⟨-, scope, -, -, filed⟩ := marks g
      refine ⟨row, List.mem_append_right _ List.mem_cons_self, Option.some.inj (filed.symm.trans group), ?_⟩
      rw [if_pos listed, scope, members g hg (by simpa using listed)]
    · obtain ⟨old, hold, id, scope⟩ := forest.grouped g hg c group
      rename_i unlisted
      refine ⟨old, List.mem_append_left _ hold, id, ?_⟩
      rw [if_neg unlisted]
      exact scope

theorem Forest.resolve (forest : l.Forest) {conflictId winner : Nat} {row : Conflict} {w : Fact}
    {validTo : Option String} {resolvedBy reason resolvedAt : String}
    (resolves : Resolves l conflictId winner row w) :
    (l.resolve conflictId winner validTo resolvedBy reason resolvedAt).Forest := by
  have rows : ∀ old ∈ l.conflicts, ∃ new ∈ (l.resolve conflictId winner validTo resolvedBy reason
      resolvedAt).conflicts, new.conflictId = old.conflictId ∧ new.scope = old.scope := by
    intro old hold
    refine ⟨_, Table.memAmend.mpr ⟨old, hold, rfl⟩, ?_⟩
    split
    · exact ⟨rfl, rfl⟩
    · exact ⟨rfl, rfl⟩
  obtain ⟨-, last⟩ := currentValid resolves.current
  refine forest.amend (resolveKeyed forest.toKeyed) rfl (fun _ => resolvedId) (fun f => ?_) (fun f hf => ?_)
    fun f hf c group => ?_
  · unfold Fact.resolved
    split
    · rfl
    · split
      · rfl
      · rfl
  · by_cases won : f.factId = winner
    · left
      rw [Fact.resolved, if_pos won]
      exact ⟨rfl, id⟩
    · rw [Fact.resolved, if_neg won]
      split
      · rename_i loses
        simp only [Fact.losesTo, Bool.and_eq_true, decide_eq_true_eq] at loses
        obtain ⟨a, ha, aid, ascope⟩ := forest.grouped f hf conflictId loses.1.2
        obtain ⟨b, hb, bid, bscope⟩ := forest.grouped w resolves.factMem conflictId resolves.group
        have same := Table.uniqueEq forest.conflictIds ha hb (aid.trans bid.symm)
        refine .inr ⟨Option.some_ne_none _, w, resolves.factMem, ?_, ?_, ?_⟩
        · rw [resolves.factId]
          rfl
        · rw [← bscope, ← ascope, same]
        · rw [Fact.resolved, if_pos resolves.factId]
          exact last
      · exact .inl ⟨rfl, id⟩
  · have before : f.conflictGroup = some c ∧ (f.resolved resolvedAt conflictId winner
        ((l.memberIds conflictId).filter (· ≠ winner)) validTo).scope = f.scope := by
      unfold Fact.resolved at group ⊢
      split at group
      · cases group
      · rename_i other
        rw [if_neg other]
        split at group
        · rename_i loses
          rw [if_pos loses]
          exact ⟨group, rfl⟩
        · rename_i spared
          rw [if_neg spared]
          exact ⟨group, rfl⟩
    obtain ⟨old, hold, id, scope⟩ := forest.grouped f hf c before.1
    obtain ⟨new, hnew, same, sameScope⟩ := rows old hold
    exact ⟨new, hnew, same.trans id, sameScope.trans (scope.trans before.2.symm)⟩

theorem Forest.erase (forest : l.Forest) {factId : Nat} {requestedBy erasedAt : String} {cited lonely : List Nat} :
    (l.erase factId requestedBy erasedAt cited lonely).Forest := by
  have facts (f : Fact) : (f.erased factId erasedAt cited).scope = f.scope ∧
      (f.invalidAt ≠ none → (f.erased factId erasedAt cited).invalidAt ≠ none) ∧
      ((f.erased factId erasedAt cited).conflictGroup = none ∨
        (f.erased factId erasedAt cited).conflictGroup = f.conflictGroup) := by
    unfold Fact.erased
    by_cases own : f.factId = factId
    · simp only [if_pos own]
      split
      · exact ⟨rfl, fun _ => Option.some_ne_none _, .inl rfl⟩
      · refine ⟨rfl, fun dead => ?_, .inl rfl⟩
        cases invalid : f.invalidAt with
        | none => exact absurd invalid dead
        | some at' => simp [Fact.scrub, invalid]
    · simp only [if_neg own]
      split
      · exact ⟨rfl, fun _ => Option.some_ne_none _, .inr rfl⟩
      · exact ⟨rfl, id, .inr rfl⟩
  refine forest.amend (eraseKeyed forest.toKeyed) rfl (fun f => (erasedDates f).factId) (fun f => (facts f).1)
    (fun f _ => .inl ⟨(erasedDates f).supersededBy, (facts f).2.1⟩) fun f hf c group => ?_
  obtain ⟨scope, -, gone | kept⟩ := facts f
  · rw [gone] at group
    cases group
  · obtain ⟨old, hold, id, there⟩ := forest.grouped f hf c (kept.symm.trans group)
    refine ⟨_, List.mem_map_of_mem hold, ?_⟩
    split
    · exact ⟨id, there.trans scope.symm⟩
    · exact ⟨id, there.trans scope.symm⟩

end Ledger

/-! ## Writes -/

section Writes
variable {svc : WriteService} {context : ConnectionContext} {request : WriteRequest} {clock : Clock}
  {extracted : Option ExtractedTypedFields} {found : UntypedMatch} {result : FactWriteResult}

theorem ungrouped {f : Fact} {conflicts : List Conflict} (calm : f.conflictGroup = none) :
    f.Grouped conflicts := by
  intro c group
  rw [calm] at group
  cases group

theorem openSource {f : Fact} {scope : String} (h : f.openIn scope = true) :
    f.scope = scope ∧ f.supersededBy = none ∧ f.conflictGroup = none := by
  simp only [Fact.openIn, Bool.and_eq_true, decide_eq_true_eq, Option.isNone_iff_eq_none] at h
  exact ⟨h.1.1, (currentValid h.1.2).2, h.2⟩

theorem storedRoot {factId : Nat} {now : String} :
    (request.stored extracted factId now).supersededBy = none ∧
      (request.stored extracted factId now).conflictGroup = none := by
  cases extracted with
  | none => exact ⟨rfl, rfl⟩
  | some fields => exact ⟨rfl, rfl⟩

theorem Ledger.Forest.untyped (forest : l.Forest) (kept : Text.strip request.scope = request.scope)
    (effect : UntypedEffect l request extracted clock found l' result) : l'.Forest := by
  cases effect with
  | duplicate => exact forest
  | fresh => exact forest.insert (storedDates _ _ _ _).1 (.inl storedRoot.1) (ungrouped storedRoot.2)
  | @dispute disputed _ opened =>
    obtain ⟨-, subject, predicate, detail, f, mem, id, scope, -, -, -, rfl⟩ := opened
    have marked : (l.openConflict (.detected l.nextConflictId request.scope subject predicate clock.recordedAt
        detail) [disputed.factId] (Fact.disputeAs l.nextConflictId subject predicate)).Forest := by
      refine forest.openConflict _ _ rfl (fun f => ⟨rfl, rfl, rfl, rfl, rfl⟩) fun g hg listed => ?_
      rw [Table.uniqueEq forest.factIds hg mem ((List.mem_singleton.mp listed).trans id.symm)]
      exact scope
    refine (marked.insert (g := (request.row l.nextFactId clock.insertedAt).disputeAs l.nextConflictId
      disputed.subjectKey disputed.predicateKey) rfl (.inl rfl) fun c group => ?_).join
    exact ⟨_, List.mem_append_right _ List.mem_cons_self, Option.some.inj group, kept.symm⟩
  | @wins candidate f mem id here =>
    have below := forest.factBound f mem
    have other : (request.row l.nextFactId clock.insertedAt).factId ≠ candidate.factId := by
      rw [← id]
      exact fun same => absurd same (Nat.ne_of_gt below)
    rw [← Ledger.retireInsert other, ← id]
    have inserted : (l.insert (request.row l.nextFactId clock.insertedAt)).Forest :=
      forest.insert rfl (.inl rfl) (ungrouped rfl)
    exact inserted.retire (w := request.row l.nextFactId clock.insertedAt) (List.mem_append_left _ mem) (List.mem_append_right _ List.mem_cons_self) (Nat.ne_of_gt below) rfl
      (fun _ => rfl) (fun _ => rfl) (fun _ => rfl) (Option.some_ne_none _) rfl
      (kept.trans (openSource here).1.symm)
  | @loses candidate f mem id here behind =>
    obtain ⟨scope, last, -⟩ := openSource here
    refine forest.insert rfl (.inr ⟨Option.some_ne_none _, f, mem, congrArg some id.symm, ?_, last⟩)
      (ungrouped rfl)
    exact scope.trans kept.symm

theorem survivorLast (forest : l.Forest) (known : found.Known l request)
    (effect : UntypedEffect l request extracted clock found l' result) :
    ∀ g ∈ l'.facts, g.factId = result.factId → g.supersededBy = none := by
  have inserted {l : Ledger} (bound : ∀ f ∈ l.facts, f.factId < l.nextFactId) {fresh : Fact}
      (root : fresh.supersededBy = none) :
      ∀ g ∈ (l.insert fresh).facts, g.factId = l.nextFactId → g.supersededBy = none := by
    intro g hg id
    rcases List.mem_append.mp hg with hg | hg
    · exact absurd id (Nat.ne_of_lt (bound g hg))
    · rw [List.mem_singleton.mp hg]
      exact root
  cases effect with
  | duplicate =>
    intro g hg id
    obtain ⟨f, mem, fid, here, -⟩ := known
    rw [Table.uniqueEq forest.factIds hg mem (id.trans fid.symm)]
    exact (openSource here).2.1
  | fresh => exact inserted forest.factBound storedRoot.1
  | dispute opened =>
    obtain ⟨-, subject, predicate, detail, f, -, -, -, -, -, -, rfl⟩ := opened
    exact inserted (forest.toKeyed.openConflict (.detected l.nextConflictId request.scope subject predicate
      clock.recordedAt detail) [_] rfl fun f => show (f.disputeAs l.nextConflictId subject predicate).factId =
        f.factId from rfl).factBound rfl
  | @wins candidate =>
    exact inserted (forest.toKeyed.amend (p := fun f => f.factId = candidate.factId)
      (h := Fact.supersede clock.recordedAt l.nextFactId) fun _ => rfl).factBound rfl
  | @loses candidate f mem id here behind =>
    intro g hg same
    rcases List.mem_append.mp hg with hg | hg
    · rw [Table.uniqueEq forest.factIds hg mem (same.trans id.symm)]
      exact (openSource here).2.1
    · have below := forest.factBound f mem
      rw [List.mem_singleton.mp hg] at same
      exact absurd (id.trans same.symm) (Nat.ne_of_lt below)

theorem Ledger.Forest.superseded (forest : l.Forest) {survivor : Nat} {now : String}
    (last : ∀ g ∈ l.facts, g.factId = survivor → g.supersededBy = none)
    (h : Superseded l request survivor now l') : l'.Forest := by
  cases h with
  | unasked => exact forest
  | @retired old f g asked apart mem id current kind calm other otherId scope =>
    rw [← id]
    exact forest.retire mem other (by rw [otherId, id]; exact apart.symm) (last g other otherId) (fun _ => rfl)
      (fun _ => rfl) (fun _ => rfl) (Option.some_ne_none _) (congrArg some otherId.symm) scope.symm

theorem Ledger.Forest.typed (forest : l.Forest) {slot : SlotDecision} {effective : StateCandidate}
    {confidence : Option Rat} (sameScope : slot.scope = effective.scope)
    (effect : StateEffect rt l context request slot effective confidence clock l') : l'.Forest := by
  have fresh {l : Ledger} (forest : l.Forest) : (l.insert (request.typed effective none confidence
      l.nextFactId clock)).Forest := forest.insert rfl (.inl rfl) (ungrouped rfl)
  have filed {l : Ledger} (forest : l.Forest) {row : Conflict} (mem : row ∈ l.conflicts) {conflictId : Nat}
      (id : row.conflictId = conflictId)
      (fits : (request.typed effective (some conflictId) confidence l.nextFactId clock).inSlot row.scope
        row.subjectKey row.predicateKey = true) :
      ((l.insert (request.typed effective (some conflictId) confidence l.nextFactId clock)).join
        ⟨conflictId, l.nextFactId⟩).Forest := by
    simp only [Fact.inSlot, Bool.and_eq_true, decide_eq_true_eq] at fits
    refine (forest.insert rfl (.inl rfl) fun c group => ?_).join
    exact ⟨row, mem, id.trans (Option.some.inj group), fits.1.1.symm⟩
  cases effect with
  | evidence => exact forest
  | add => exact fresh forest
  | @replace target f action aimed mem id inScope =>
    have below := forest.factBound f mem
    have other : (request.typed effective none confidence l.nextFactId clock).factId ≠ target := by
      rw [← id]
      exact fun same => absurd same (Nat.ne_of_gt below)
    rw [← Ledger.retireInsert other, ← id]
    exact (fresh forest).retire (w := request.typed effective none confidence l.nextFactId clock)
      (List.mem_append_left _ mem) (List.mem_append_right _ List.mem_cons_self) (Nat.ne_of_gt below) rfl
      (fun _ => rfl) (fun _ => rfl) (fun _ => rfl) (Option.some_ne_none _) rfl
      (sameScope.symm.trans inScope.symm)
  | @dispute detail _ _ _ _ _ members fits =>
    have opened : (l.openConflict (.detected l.nextConflictId (Text.strip slot.scope) (Text.strip slot.subjectKey)
        (Text.strip slot.predicateKey) clock.recordedAt detail) slot.currentFactIds
        (Fact.dispute l.nextConflictId)).Forest := by
      refine forest.openConflict _ _ rfl (fun f => ⟨rfl, rfl, rfl, rfl, rfl⟩) fun g hg listed => ?_
      obtain ⟨f, hf, id, -, inSlot, -⟩ := members g.factId listed
      simp only [Fact.inSlot, Bool.and_eq_true, decide_eq_true_eq] at inSlot
      rw [← Table.uniqueEq forest.factIds hf hg id]
      exact inSlot.1.1
    exact filed opened (List.mem_append_right _ List.mem_cons_self) rfl fits
  | join _ _ _ mem id _ fits => exact filed forest mem id fits
  | settle _ _ _ mem id _ fits _ _ resolved =>
    have joined := filed forest mem id fits
    obtain ⟨row, w, resolves, -, -, left, -⟩ := resolveStateConflictSource joined.toKeyed resolved
    rw [left]
    exact joined.resolve resolves

end Writes
/-! ## Merges -/

section Merges
variable {s t : Store} {plan : MergePlan}

/-- Nothing has replaced a survivor or what is dropped into it, and the two are of one scope. -/
def MergePlan.Rooted (plan : MergePlan) (l : Ledger) : Prop :=
  ∀ c ∈ plan.clusters, ∃ w ∈ l.facts, w.factId = c.survivorId ∧ w.supersededBy = none ∧
    ∀ loser ∈ c.loserIds, ∀ f ∈ l.facts, f.factId = loser → f.supersededBy = none ∧ f.scope = w.scope

def Fact.follow (loser survivor : Nat) (f : Fact) : Fact :=
  (f.rewriteSources loser survivor).redirectSuccessor loser survivor

theorem followSource (loser survivor : Nat) (f : Fact) :
    (f.follow loser survivor).factId = f.factId ∧ (f.follow loser survivor).scope = f.scope ∧
      (f.follow loser survivor).invalidAt = f.invalidAt ∧
      (f.follow loser survivor).conflictGroup = f.conflictGroup ∧
      (f.follow loser survivor).supersededBy =
        if f.supersededBy = some loser then (if f.factId = survivor then none else some survivor)
        else f.supersededBy := by
  have rewritten : (f.rewriteSources loser survivor).factId = f.factId ∧
      (f.rewriteSources loser survivor).scope = f.scope ∧
      (f.rewriteSources loser survivor).invalidAt = f.invalidAt ∧
      (f.rewriteSources loser survivor).conflictGroup = f.conflictGroup ∧
      (f.rewriteSources loser survivor).supersededBy = f.supersededBy := by
    unfold Fact.rewriteSources
    split
    · exact ⟨rfl, rfl, rfl, rfl, rfl⟩
    · exact ⟨rfl, rfl, rfl, rfl, rfl⟩
  obtain ⟨id, scope, invalid, group, pointer⟩ := rewritten
  unfold Fact.follow Fact.redirectSuccessor
  rw [pointer]
  split
  · refine ⟨id, scope, invalid, group, ?_⟩
    rw [id]
  · exact ⟨id, scope, invalid, group, pointer⟩

theorem followedFacts {survivor loser : Nat} {f : Fact} :
    f ∈ (mergeFactReferences t survivor loser).facts ↔
      ∃ old ∈ t.facts, old.factId ≠ loser ∧ f = old.follow loser survivor := by
  have same (old : Fact) := (followSource loser survivor old).1
  constructor
  · intro inside
    obtain ⟨inside, other⟩ := Table.memRemove.mp inside
    obtain ⟨old, hold, rfl⟩ := List.mem_map.mp inside
    exact ⟨old, hold, fun own => of_decide_eq_false other ((same old).trans own), rfl⟩
  · rintro ⟨old, hold, other, rfl⟩
    refine Table.memRemove.mpr ⟨List.mem_map_of_mem hold, decide_eq_false ?_⟩
    exact (same old).symm ▸ other

theorem rootedDrop {c : ClusterMerge} {loser : Nat} (inside : c ∈ plan.clusters) (dropped : loser ∈ c.loserIds)
    (rooted : plan.Rooted t.toLedger) : plan.Rooted (mergeFactReferences t c.survivorId loser).toLedger := by
  intro d hd
  obtain ⟨w, hw, id, last, losers⟩ := rooted d hd
  have other : w.factId ≠ loser := by
    rw [id]
    exact fun same => plan.apart d hd c inside (same ▸ dropped)
  obtain ⟨wid, wscope, -, -, wpointer⟩ := followSource loser c.survivorId w
  refine ⟨w.follow loser c.survivorId, followedFacts.mpr ⟨w, hw, other, rfl⟩, wid.trans id, ?_,
    fun k hk f hf fid => ?_⟩
  · rw [wpointer, last]
    rfl
  · obtain ⟨old, hold, -, rfl⟩ := followedFacts.mp hf
    obtain ⟨oid, oscope, -, -, opointer⟩ := followSource loser c.survivorId old
    obtain ⟨root, scope⟩ := losers k hk old hold (oid.symm.trans fid)
    refine ⟨?_, oscope.trans (scope.trans wscope.symm)⟩
    rw [opointer, root]
    rfl

theorem forestDrop {c : ClusterMerge} {loser : Nat} (inside : c ∈ plan.clusters) (dropped : loser ∈ c.loserIds)
    (rooted : plan.Rooted t.toLedger) (merging : Merging plan s t) (forest : t.toLedger.Forest) :
    (mergeFactReferences t c.survivorId loser).toLedger.Forest := by
  obtain ⟨w, hw, id, last, losers⟩ := rooted c inside
  have other : w.factId ≠ loser := by
    rw [id]
    exact fun same => plan.apart c inside c inside (same ▸ dropped)
  obtain ⟨wid, wscope, -, -, wpointer⟩ := followSource loser c.survivorId w
  have stays : ∀ f ∈ t.facts, f.factId ≠ loser → f.follow loser c.survivorId ∈
      (mergeFactReferences t c.survivorId loser).facts :=
    fun f hf apart => followedFacts.mpr ⟨f, hf, apart, rfl⟩
  refine forest.update (merging.drop inside dropped).keyed (fun f hf g hg replaced => ?_) (fun f hf => ?_)
    fun f hf d group => ?_
  · obtain ⟨old, hold, -, rfl⟩ := followedFacts.mp hg
    rw [(followSource _ _ old).2.2.2.2] at replaced
    have apart : f.factId ≠ loser := by
      rintro rfl
      split at replaced
      · split at replaced
        · cases replaced
        · exact plan.apart c inside c inside (Option.some.inj replaced ▸ dropped)
      · rename_i unaffected
        exact unaffected replaced
    exact ⟨_, stays f hf apart, (followSource _ _ f).1, (followSource _ _ f).2.1⟩
  · obtain ⟨old, hold, apart, rfl⟩ := followedFacts.mp hf
    obtain ⟨oid, oscope, oinvalid, -, opointer⟩ := followSource loser c.survivorId old
    by_cases hit : old.supersededBy = some loser
    · rw [if_pos hit] at opointer
      by_cases own : old.factId = c.survivorId
      · rw [if_pos own] at opointer
        exact .root opointer
      · rw [if_neg own] at opointer
        obtain ⟨g, hg, gid, gscope⟩ := forest.kin old hold loser hit
        have same := (losers loser dropped g hg gid).2
        refine .given (stays w hw other) (opointer.trans (congrArg some (id.symm.trans wid.symm))) ?_ ?_ ?_
        · rw [wscope, oscope, ← gscope, same]
        · rw [oinvalid]
          exact forest.dated old hold (hit ▸ Option.some_ne_none _)
        · rw [wpointer, last]
          rfl
    · rw [if_neg hit] at opointer
      exact .kept hold oid.symm opointer oscope fun dead => oinvalid ▸ dead
  · obtain ⟨old, hold, -, rfl⟩ := followedFacts.mp hf
    obtain ⟨-, oscope, -, ogroup, -⟩ := followSource loser c.survivorId old
    obtain ⟨row, hr, rid, rscope⟩ := forest.grouped old hold d (ogroup.symm.trans group)
    exact ⟨_, List.mem_map_of_mem hr, rid, rscope.trans oscope.symm⟩

structure ForestMerging (plan : MergePlan) (s t : Store) : Prop where
  merging : Merging plan s t
  rooted : plan.Rooted t.toLedger
  forest : t.toLedger.Forest

theorem ForestMerging.absorb (c : ClusterMerge) (passing : ForestMerging plan s t) :
    ForestMerging plan s { t with facts := Table.amend (·.factId = c.survivorId) c.absorb t.facts } where
  merging := passing.merging.absorb c fun _ => ⟨rfl, rfl, rfl, rfl, rfl⟩
  rooted d hd := by
    obtain ⟨w, hw, id, last, losers⟩ := passing.rooted d hd
    have same (f : Fact) : (if decide (f.factId = c.survivorId) = true then c.absorb f else f).factId = f.factId ∧
        (if decide (f.factId = c.survivorId) = true then c.absorb f else f).supersededBy = f.supersededBy ∧
        (if decide (f.factId = c.survivorId) = true then c.absorb f else f).scope = f.scope := by
      split <;> exact ⟨rfl, rfl, rfl⟩
    refine ⟨_, Table.memAmend.mpr ⟨w, hw, rfl⟩, (same w).1.trans id, (same w).2.1.trans last,
      fun k hk f hf fid => ?_⟩
    obtain ⟨old, hold, rfl⟩ := Table.memAmend.mp hf
    obtain ⟨root, scope⟩ := losers k hk old hold ((same old).1.symm.trans fid)
    exact ⟨(same old).2.1.trans root, (same old).2.2.trans (scope.trans (same w).2.2.symm)⟩
  forest := by
    refine passing.forest.amend (m := fun f => if decide (f.factId = c.survivorId) = true then c.absorb f else f)
      (passing.forest.toKeyed.amend fun _ => rfl) rfl (fun f => ?_) (fun f => ?_) (fun f hf => .inl ?_)
      fun f hf d group => ?_
    · split <;> rfl
    · split <;> rfl
    · split <;> exact ⟨rfl, id⟩
    · have before := passing.forest.grouped f hf d
      split at group
      · rename_i own
        rw [if_pos own]
        exact before group
      · rename_i other
        rw [if_neg other]
        exact before group

theorem mergedForest (rooted : plan.Rooted s.toLedger) (forest : s.toLedger.Forest) :
    (applyMerge s plan).toLedger.Forest := by
  have start : ForestMerging plan s s :=
    ⟨⟨forest.toKeyed, rfl, rfl, fun f hf => ⟨f, hf, rfl, rfl, rfl, rfl, .inl rfl⟩⟩, rooted, forest⟩
  have passed : ForestMerging plan s (applyMerge s plan) :=
    mergeKeeps (fun c _ _ passing => passing.absorb c)
      (fun c inside loser dropped _ passing => ⟨passing.merging.drop inside dropped,
        rootedDrop inside dropped passing.rooted,
        forestDrop inside dropped passing.rooted passing.merging passing.forest⟩) start
  exact passed.forest

variable {similarity : List Rat → List Rat → Rat} {threshold : Rat} {floodCutoff : String}
  {chosen : Option String}

theorem activeRows {rows : List Embedding} (read : activeEmbeddings rt s chosen = .ok rows) :
    ∀ k ∈ rows.map Embedding.factId, k ∈ activeFactIds s.toLedger := by
  simp only [activeEmbeddings, bindOk] at read
  obtain ⟨identity, -, read⟩ := read
  cases identity with
  | none =>
    cases read
    intro k hk
    cases hk
  | some identity =>
    simp only [bindOk] at read
    obtain ⟨dim, -, stored, -, last⟩ := read
    cases last
    intro k hk
    obtain ⟨e, he, rfl⟩ := List.mem_map.mp hk
    simpa using (List.mem_filter.mp he).2

theorem plannedRooted (unique : Table.Unique Fact.factId s.facts)
    (planned : planMerge rt similarity s threshold floodCutoff chosen = .ok plan) : plan.Rooted s.toLedger := by
  intro c hc
  obtain ⟨groups, outcomes, built, mapped, clusters⟩ := planMergeSource planned
  obtain ⟨rows, -, read, -, -⟩ := clustersSource built
  rw [clusters] at hc
  obtain ⟨members, listed, made⟩ := mapMSource mapped _ (List.reduceOption_mem_iff.mp hc)
  obtain ⟨part, chained⟩ := (clustersSpec read built).1 members listed
  obtain ⟨survivor, losers⟩ := plannedInside made
  have active : ∀ f ∈ s.facts, f.factId ∈ members → f.supersededBy = none := fun f hf inside =>
    (currentValid (activeFactSpec unique hf (activeRows read _ (part.subset inside))).1).2
  have stored : ∃ w ∈ s.facts, w.factId = c.survivorId := by
    obtain ⟨w, hw, id⟩ := List.mem_map.mp (activeRows read _ (part.subset survivor))
    exact ⟨w, (List.mem_filter.mp hw).1, id⟩
  obtain ⟨w, hw, id⟩ := stored
  refine ⟨w, hw, id, active w hw (id ▸ survivor), fun loser hl f hf fid => ?_⟩
  have inside : f.factId ∈ members := fid ▸ (losers loser hl).1
  refine ⟨active f hf inside, ?_⟩
  have link := chainedScope ((chained c.survivorId survivor f.factId).mp inside).2
  have found (f : Fact) (hf : f ∈ s.facts) : s.fact f.factId = some f := Table.findOfMem unique hf
  rw [← id, found w hw, found f hf] at link
  exact (Option.some.inj link).symm

end Merges

/-! ## Histories -/

/-- A merge runs the plan it makes of the store it is performed on. -/
def Operation.Planned (s : Store) : Operation rt → Prop
  | .mergeClusters plan _ _ _ => ∃ similarity threshold floodCutoff chosen,
      planMerge rt similarity s threshold floodCutoff chosen = .ok plan
  | _ => True

section Operations
variable {svc : WriteService} {effective : ConnectionContext} {s t : Store}

theorem stepForest {timed : TimedWrite rt} {query : Option (List Rat)} {outcome : WriteOutcome}
    (authorized : svc.policy.authorizeContext rt svc.legacyAuthorized effective = .ok effective)
    (h : batchStep rt svc effective s (timed, query) = .ok (t, outcome)) (forest : s.toLedger.Forest) :
    t.toLedger.Forest := by
  obtain ⟨extracted, valid, -, done⟩ := batchStepSource authorized h
  have kept := (requestKept timed.item.requestBuilt).2
  have effect := transactEffect forest.toKeyed done
  generalize t.toLedger = l at effect ⊢
  cases effect with
  | same => exact forest
  | untyped free bare judged chosen effect superseded =>
    exact (forest.untyped kept effect).superseded (survivorLast forest chosen.known effect) superseded
  | @typed c slot resolved l₁ free given judged effect =>
    have built := timed.item.candidateBuilt c given
    rw [given] at judged valid
    obtain ⟨-, -, -, -, -, sameScope, -⟩ := typedCase built valid judged
    exact forest.typed sameScope effect

theorem performForest {o : Operation rt} (planned : o.Planned s) (done : o.perform s = .ok t)
    (forest : s.toLedger.Forest) : t.toLedger.Forest := by
  cases o with
  | write svc context timed =>
    exact writeKeeps (P := fun s => s.toLedger.Forest) (fun authorized _ h => stepForest authorized h)
      meetsAlways done forest
  | writeBatch svc context writes rollbackIf completes =>
    exact batchKeeps (P := fun s => s.toLedger.Forest) (fun authorized _ h => stepForest authorized h) id
      meetsAlways done forest
  | resolveConflict svc context conflictId factId reason resolvedAt queuedAt =>
    simp only [Operation.perform, bindOk, Prod.exists] at done
    obtain ⟨effective, -, u, resolution, resolved, last⟩ := done
    cases last
    obtain ⟨clients, sessions, resolutions, jobs, l, settled, rfl⟩ := resolveConflictSource resolved
    obtain ⟨row, w, resolves, -, -, rfl, -⟩ := resolveStateConflictSource forest.toKeyed settled
    exact forest.resolve resolves
  | eraseFact factId requestedBy reason erasedAt =>
    simp only [Operation.perform, bindOk, Prod.exists] at done
    obtain ⟨u, report, erased, last⟩ := done
    cases last
    obtain ⟨insights, conflicts, linked, erased, -⟩ := eraseFactSource erased
    obtain ⟨cited, lonely, left, -, -⟩ := eraseLedgerSource forest.toKeyed erased
    rw [left]
    exact forest.erase
  | mergeClusters plan least most fraction =>
    simp only [Operation.perform, executeMerge, bindOk] at done
    obtain ⟨-, -, -, -, last⟩ := done
    cases last
    obtain ⟨similarity, threshold, floodCutoff, chosen, planned⟩ := planned
    exact mergedForest (plannedRooted forest.factIds planned) forest
  | storeEmbedding =>
    cases done
    exact forest

theorem forestEmpty : Store.empty.toLedger.Forest where
  toKeyed := soundEmpty.toKeyed
  dated _ hf := absurd hf List.not_mem_nil
  kin _ hf := absurd hf List.not_mem_nil
  ends _ := .last rfl
  grouped _ hf := absurd hf List.not_mem_nil

/-- In every store a history reaches, a superseded fact is invalid, its successor is another fact of its
scope, and its line of successors comes to an end. -/
theorem supersessionForest {ops : List (Operation rt)}
    (planned : Run.Meets Operation.perform Operation.Planned Store.empty ops) :
    ∀ f ∈ (history ops).facts, f.supersededBy ≠ some f.factId ∧
      (f.supersededBy ≠ none → f.invalidAt ≠ none) ∧
      (∀ k, f.supersededBy = some k → ∃ g ∈ (history ops).facts, g.factId = k ∧ g.scope = f.scope) ∧
      ∃ n, (fun o : Option Nat => o.bind (history ops).toLedger.successor)^[n] (some f.factId) = none := by
  intro f hf
  have forest : (history ops).toLedger.Forest := Run.invariantWhen (P := fun s : Store => s.toLedger.Forest)
    (fun _ _ _ planned done forest => performForest planned done forest) planned forestEmpty
  refine ⟨?_, forest.dated f hf, forest.kin f hf, (forest.ends f.factId).steps⟩
  rw [← forest.toKeyed.successor hf]
  exact (forest.ends f.factId).apart

end Operations
namespace Example

def retold : List (Operation .plain) :=
  [.write trusted caller (claim "k21" "dogs bark loudly" none (by decide +kernel)),
    .write trusted caller (claim "k22" "a cat sat on the mat" none (by decide +kernel)),
    .write trusted caller (claim "k23" "the cat sat on the mat" (some 1) (by decide +kernel)),
    .storeEmbedding ⟨2, [1], 1, "m"⟩, .storeEmbedding ⟨3, [1], 1, "m"⟩]

def joining : MergePlan := ⟨[⟨2, [3], 0, 0, ""⟩], by decide⟩

def joined : List (Operation .plain) := retold ++ [.mergeClusters joining 1 1 (1 / 2)]

theorem supersessionForestHere :
    (history retold).facts.map Fact.supersededBy = [some 3, none, none] ∧
    (history joined).facts.map Fact.supersededBy = [some 2, none] ∧
    ∀ f ∈ (history joined).facts, f.supersededBy ≠ some f.factId ∧
      (f.supersededBy ≠ none → f.invalidAt ≠ none) ∧
      (∀ k, f.supersededBy = some k → ∃ g ∈ (history joined).facts, g.factId = k ∧ g.scope = f.scope) ∧
      ∃ n, (fun o : Option Nat => o.bind (history joined).toLedger.successor)^[n] (some f.factId) = none := by
  have planned : planMerge .plain Runtime.plain.cosine (history retold) (97 / 100) "" none = .ok joining :=
    okOfOption (by decide +kernel)
  exact ⟨by decide +kernel, by decide +kernel,
    supersessionForest ⟨trivial, trivial, trivial, trivial, trivial, ⟨_, _, _, _, planned⟩, trivial⟩⟩

end Example
end Enfold
