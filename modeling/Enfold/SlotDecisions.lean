import Enfold.WriteSource

/-! How a slot decision comes about: the candidate it is made for, and the case of the slot it
answers. -/
namespace Enfold

open Fallible

variable {rt : Runtime}

/-! ## Built candidates -/

theorem subjectKeySpaceless {text : List Char} (h : isSubjectKey text = true) :
    ∀ c ∈ text, Text.isSpace c = false := by
  unfold isSubjectKey at h
  intro c inside
  have letter := Text.shapedAll (fun c word => by simp [word]) h c inside
  simp only [Bool.or_eq_true, decide_eq_true_eq] at letter
  rcases letter with ((((word | rfl) | rfl) | rfl) | rfl) | rfl
  · exact Text.wordSpace word
  all_goals decide

theorem predicateKeySpaceless {text : List Char} (h : isPredicateKey text = true) :
    ∀ c ∈ text, Text.isSpace c = false := by
  unfold isPredicateKey at h
  intro c inside
  have letter := Text.shapedAll (fun c word => by simp [word]) h c inside
  simp only [Bool.or_eq_true, decide_eq_true_eq] at letter
  rcases letter with ((word | rfl) | rfl) | rfl
  · exact Text.wordSpace word
  all_goals decide

theorem subjectKeyKept {value key : String} (h : normalizeSubjectKey value = .ok key) :
    Text.strip key = key := by
  unfold normalizeSubjectKey at h
  dsimp only at h
  split at h
  · rename_i shape
    rw [← Except.ok.inj h]
    exact Text.stripKept (subjectKeySpaceless shape)
  · exact nomatch h

theorem predicateKeyKept {value key : String} (h : normalizePredicateKey value = .ok key) :
    Text.strip key = key := by
  unfold normalizePredicateKey at h
  dsimp only at h
  split at h
  · rename_i shape
    rw [← Except.ok.inj h]
    exact Text.stripKept (predicateKeySpaceless shape)
  · exact nomatch h

structure StateCandidate.Built (rt : Runtime) (c : StateCandidate) : Prop where
  content : required c.content "content" = .ok c.content
  scope : required c.scope "scope" = .ok c.scope
  subject : required c.subjectKey "subject_key" = .ok c.subjectKey
  predicate : required c.predicateKey "predicate_key" = .ok c.predicateKey
  kind : required c.memoryKind "memory_kind" = .ok c.memoryKind
  subjectKey : normalizeSubjectKey c.subjectKey = .ok c.subjectKey
  predicateKey : normalizePredicateKey c.predicateKey = .ok c.predicateKey
  authority : (decide (0 ≤ c.sourceAuthority) && decide (c.sourceAuthority ≤ 1)) = true
  start : ∃ start, parseTimestamp rt c.validFrom = .ok start
  stop : ∃ stop, parseTimestamp rt c.validTo = .ok stop

theorem builtCandidate {c d : StateCandidate} (h : c.postInit rt = .ok d) :
    d.validFrom = c.validFrom ∧ d.validTo = c.validTo ∧
      (∃ start, parseTimestamp rt c.validFrom = .ok start) ∧
      (d = c → c.Built rt) := by
  simp only [StateCandidate.postInit, bindOk, ensureOk] at h
  obtain ⟨content, hc, scope, hs, subject, hj, predicate, hp, kind, hk, subject', hj', predicate', hp',
    -, authority, start, first, stop, last, done⟩ := h
  have shape : { c with
      content, scope, subjectKey := subject', predicateKey := predicate', memoryKind := kind } = d := by
    split at done
    · simp only [bindOk] at done
      obtain ⟨-, -, done⟩ := done
      exact Except.ok.inj done
    · simp only [bindOk] at done
      obtain ⟨-, -, done⟩ := done
      exact Except.ok.inj done
  refine ⟨by rw [← shape], by rw [← shape], ⟨start, first⟩, ?_⟩
  intro same
  rw [same] at shape
  have contentSame : content = c.content := congrArg StateCandidate.content shape
  have scopeSame : scope = c.scope := congrArg StateCandidate.scope shape
  have kindSame : kind = c.memoryKind := congrArg StateCandidate.memoryKind shape
  have subjectSame : subject' = c.subjectKey := congrArg StateCandidate.subjectKey shape
  have predicateSame : predicate' = c.predicateKey := congrArg StateCandidate.predicateKey shape
  subst contentSame scopeSame kindSame subjectSame predicateSame
  -- a stored key carries no space, so stripping it again finds the key itself
  have stripped : subject = c.subjectKey := (requiredSource hj).1.trans (subjectKeyKept hj')
  have stripped' : predicate = c.predicateKey := (requiredSource hp).1.trans (predicateKeyKept hp')
  subst stripped stripped'
  exact ⟨hc, hs, hj, hp, hk, hj', hp', authority, ⟨start, first⟩, ⟨stop, last⟩⟩

namespace StateCandidate.Built
variable {c : StateCandidate} (built : c.Built rt)
include built

theorem redated {validFrom : Option String} {d : StateCandidate}
    (h : StateCandidate.postInit rt { c with validFrom } = .ok d) :
    d = { c with validFrom } ∧ d.Built rt := by
  have dated := (builtCandidate h).2.2.1
  simp only [StateCandidate.postInit, built.content, built.scope, built.subject, built.predicate,
    built.kind, built.subjectKey, built.predicateKey, okBind, bindOk, ensureOk] at h
  obtain ⟨-, -, start, -, stop, -, done⟩ := h
  have same : d = { c with validFrom } := by
    split at done
    · simp only [bindOk] at done
      obtain ⟨-, -, done⟩ := done
      exact (Except.ok.inj done).symm
    · exact (Except.ok.inj done).symm
  rw [same]
  exact ⟨rfl, { built with start := dated }⟩

end StateCandidate.Built

theorem effectiveSource {request : WriteRequest} {c effective : StateCandidate}
    (given : c.postInit rt = .ok c) (h : effectiveCandidate rt request c = .ok effective) :
    effective = { c with validFrom := effective.validFrom } ∧ effective.Built rt := by
  have built := (builtCandidate given).2.2.2 rfl
  unfold effectiveCandidate at h
  split at h
  · obtain ⟨same, dated⟩ := built.redated h
    refine ⟨?_, dated⟩
    rw [same]
  · cases h
    exact ⟨rfl, built⟩

/-! ## Decisions -/

def Ledger.currentIn (l : Ledger) (c : StateCandidate) : List Fact :=
  l.facts.filter fun f => f.isState && f.inSlot c.scope c.subjectKey c.predicateKey && f.current &&
    f.validTo.isNone

def Ledger.overlapping (rt : Runtime) (l : Ledger) (c : StateCandidate) : List Fact :=
  (believedStateFacts l c.subjectKey c.predicateKey c.scope).filter
    (accepts fun f => intervalsOverlap rt f.validFrom f.validTo c.validFrom c.validTo)

def Ledger.contested (l : Ledger) (c : StateCandidate) : Bool :=
  1 < (l.currentIn c).length || (l.currentIn c).any (·.conflictGroup.isSome)

/-- The facts a candidate may merely restate. -/
def Ledger.peers (rt : Runtime) (l : Ledger) (c : StateCandidate) : List Fact :=
  if l.currentIn c = [] then l.overlapping rt c else l.currentIn c

inductive Decided (rt : Runtime) (l : Ledger) (c : StateCandidate) : SlotDecision → Prop
  | free (vacant : l.currentIn c = []) (clear : l.overlapping rt c = []) :
      Decided rt l c (c.decided .add [] none "slot has no current overlapping value")
  | contested {d} (dispute : l.contested c = true)
      (done : decideContested rt c (l.currentIn c) ((l.peers rt c).find? c.restates) = .ok d) :
      Decided rt l c d
  | restated {same} (calm : l.contested c = false)
      (known : (l.peers rt c).find? c.restates = some same) :
      Decided rt l c (c.decided .dedup ((l.peers rt c).map Fact.factId) same.factId
        "identical current content or structured value")
  | apart (calm : l.contested c = false) (held : l.currentIn c ≠ [])
      (novel : (l.peers rt c).find? c.restates = none) (clear : l.overlapping rt c = []) :
      Decided rt l c (c.decided .add ((l.currentIn c).map Fact.factId) none
        "valid intervals do not overlap")
  | against {existing rest d} (calm : l.contested c = false)
      (novel : (l.peers rt c).find? c.restates = none)
      (meets : l.overlapping rt c = existing :: rest)
      (done : decideAgainst rt c existing = .ok d) : Decided rt l c d

section Decisions
variable {l : Ledger} {c : StateCandidate} {d : SlotDecision}

theorem currentStateFactsBuilt (built : c.Built rt) :
    currentStateFacts l c.subjectKey c.predicateKey c.scope = .ok (l.currentIn c) := by
  simp only [currentStateFacts, built.subject, built.predicate, built.scope, okBind]
  rfl

theorem decideSource (built : c.Built rt) (kind : c.memoryKind = "state")
    (h : decideStateWrite rt l c = .ok d) : Decided rt l c d := by
  simp only [decideStateWrite, kind, ne_eq, not_true_eq_false, if_false,
    currentStateFactsBuilt built, okBind, bindOk] at h
  obtain ⟨overlapping, kept, h⟩ := h
  obtain ⟨rfl, -⟩ := keepSource kept
  change (if (l.currentIn c = [] && l.overlapping rt c = []) = true then _ else _) = _ at h
  split at h
  · rename_i empty
    simp only [Bool.and_eq_true, decide_eq_true_eq] at empty
    cases h
    exact .free empty.1 empty.2
  · rename_i some
    simp only [Bool.and_eq_true, decide_eq_true_eq, not_and] at some
    split at h
    · rename_i dispute
      exact .contested dispute h
    · rename_i calm
      have calm : l.contested c = false := by simpa [Ledger.contested] using calm
      split at h
      · rename_i same known
        cases h
        exact .restated calm known
      · rename_i novel clear
        cases h
        refine .apart calm (fun vacant => some vacant clear) novel clear
      · rename_i existing rest novel meets
        exact .against calm novel meets h

theorem decideContestedSource {current : List Fact} {exact : Option Fact}
    (h : decideContested rt c current exact = .ok d) :
    d.scope = c.scope ∧ d.currentFactIds = current.map Fact.factId ∧
      ((d.action = .supersede ∧ d.targetFactId = none) ∨
        (d.action = .conflict ∧ d.targetFactId = exact.map Fact.factId)) := by
  simp only [decideContested, bindOk] at h
  obtain ⟨time, -, times, -, h⟩ := h
  rcases branchOk h with ⟨-, last⟩ | ⟨-, h⟩
  · cases last
    exact ⟨rfl, rfl, .inl ⟨rfl, rfl⟩⟩
  · rcases branchOk h with ⟨-, last⟩ | ⟨-, last⟩
    · cases last
      exact ⟨rfl, rfl, .inl ⟨rfl, rfl⟩⟩
    · cases last
      exact ⟨rfl, rfl, .inr ⟨rfl, rfl⟩⟩

theorem decideAgainstSource {existing : Fact} (h : decideAgainst rt c existing = .ok d) :
    d.scope = c.scope ∧ d.currentFactIds = [existing.factId] ∧
      ((d.action = .supersede ∧ d.targetFactId = some existing.factId) ∨
        (d.action = .conflict ∧ d.targetFactId = none)) := by
  simp only [decideAgainst, bindOk] at h
  obtain ⟨time, -, other, -, h⟩ := h
  rcases branchOk h with ⟨-, last⟩ | ⟨-, h⟩
  · cases last
    exact ⟨rfl, rfl, .inl ⟨rfl, rfl⟩⟩
  · rcases branchOk h with ⟨-, last⟩ | ⟨-, last⟩
    · cases last
      exact ⟨rfl, rfl, .inl ⟨rfl, rfl⟩⟩
    · cases last
      exact ⟨rfl, rfl, .inr ⟨rfl, rfl⟩⟩

inductive SlotCase (rt : Runtime) (l : Ledger) (c : StateCandidate) (d : SlotDecision) : Prop
  | add (calm : l.contested c = false) (action : d.action = .add) (aimless : d.targetFactId = none)
  | dedup {same} (calm : l.contested c = false) (action : d.action = .dedup)
      (known : (l.peers rt c).find? c.restates = some same) (aimed : d.targetFactId = some same.factId)
  | contested (dispute : l.contested c = true) (ids : d.currentFactIds = (l.currentIn c).map Fact.factId)
      (action : (d.action = .supersede ∧ d.targetFactId = none) ∨ d.action = .conflict)
      (restates : d.targetFactId = none ∨
        d.targetFactId = ((l.peers rt c).find? c.restates).map Fact.factId)
  | against {existing rest} (calm : l.contested c = false)
      (novel : (l.peers rt c).find? c.restates = none)
      (meets : l.overlapping rt c = existing :: rest) (ids : d.currentFactIds = [existing.factId])
      (action : (d.action = .supersede ∧ d.targetFactId = some existing.factId) ∨
        (d.action = .conflict ∧ d.targetFactId = none) ∨
        (d.action = .supersede ∧ d.targetFactId = none ∧ (l.groupsOf [existing.factId]).length = 1))

theorem contestedHolds (vacant : l.currentIn c = []) : l.contested c = false := by
  simp [Ledger.contested, vacant]

theorem decidedCase (h : Decided rt l c d) :
    d.scope = c.scope ∧ SlotCase rt l c d := by
  cases h with
  | free vacant clear => exact ⟨rfl, .add (contestedHolds vacant) rfl rfl⟩
  | contested dispute done =>
    obtain ⟨scope, ids, action⟩ := decideContestedSource done
    refine ⟨scope, .contested dispute ids ?_ ?_⟩
    · rcases action with supersede | ⟨conflict, -⟩
      · exact .inl supersede
      · exact .inr conflict
    · rcases action with ⟨-, wide⟩ | ⟨-, aimed⟩
      · exact .inl wide
      · exact .inr aimed
  | restated calm known => exact ⟨rfl, .dedup calm rfl known rfl⟩
  | apart calm => exact ⟨rfl, .add calm rfl rfl⟩
  | against calm novel meets done =>
    obtain ⟨scope, ids, action⟩ := decideAgainstSource done
    refine ⟨scope, .against calm novel meets ids ?_⟩
    rcases action with supersede | conflict
    · exact .inl supersede
    · exact .inr (.inl conflict)

theorem resolutionAuthoritySource (policy : MemoryPolicy) (context : ConnectionContext)
    (request : WriteRequest) (h : SlotCase rt l c d) :
    SlotCase rt l c (resolutionAuthority policy context l request d) ∧
      (resolutionAuthority policy context l request d).scope = d.scope := by
  unfold resolutionAuthority
  dsimp only
  split
  · rename_i resolves
    simp only [Bool.and_eq_true, decide_eq_true_eq] at resolves
    obtain ⟨⟨⟨conflict, claims⟩, allowed⟩, one⟩ := resolves
    simp only [allowed, Bool.not_true, Bool.and_false, Bool.false_eq_true, if_false]
    refine ⟨?_, trivial⟩
    cases h with
    | add calm action => simp [action] at conflict
    | dedup calm action => simp [action] at conflict
    | contested dispute ids => exact .contested dispute ids (.inl ⟨rfl, rfl⟩) (.inl rfl)
    | against calm novel meets ids =>
      rw [ids] at one
      exact .against calm novel meets ids (.inr (.inr ⟨rfl, rfl, one⟩))
  · split
    · rename_i joins
      simp only [Bool.and_eq_true, decide_eq_true_eq, Option.isNone_iff_eq_none] at joins
      obtain ⟨⟨supersede, wide⟩, -⟩ := joins
      refine ⟨?_, rfl⟩
      cases h with
      | add calm action => simp [action] at supersede
      | dedup calm action => simp [action] at supersede
      | contested dispute ids => exact .contested dispute ids (.inr rfl) (.inl wide)
      | against calm novel meets ids => exact .against calm novel meets ids (.inr (.inl ⟨rfl, wide⟩))
    · exact ⟨h, rfl⟩

end Decisions

theorem typedCase {policy : MemoryPolicy} {context : ConnectionContext} {l : Ledger}
    {request : WriteRequest} {c effective : StateCandidate} {slot : SlotDecision}
    (given : c.postInit rt = .ok c) (valid : validateStateCandidate request (some c) = .ok ())
    (h : verdict rt policy context l request (some c) = .ok (.typed slot effective)) :
    effective = { c with validFrom := effective.validFrom } ∧ effective.Built rt ∧
      effective.scope = request.scope ∧ effective.content = request.content ∧
      effective.sourceAuthority = request.sourceAuthority ∧ slot.scope = effective.scope ∧
      SlotCase rt l effective slot := by
  obtain ⟨c', decided, same, dated, -, slotted, rfl, -⟩ := verdictTyped h
  cases same
  obtain ⟨shape, built⟩ := effectiveSource given dated
  simp only [validateStateCandidate, bindOk, ensureOk, decide_eq_true_eq] at valid
  obtain ⟨-, kind, -, content, -, scope, -, authority, -⟩ := valid
  have kind' : effective.memoryKind = "state" := by
    rw [shape]
    exact kind
  obtain ⟨sameScope, cases'⟩ := decidedCase (decideSource built kind' slotted)
  obtain ⟨final, kept⟩ := resolutionAuthoritySource policy context request cases'
  refine ⟨shape, built, ?_, ?_, ?_, kept.trans sameScope, final⟩
  · rw [shape]
    exact scope
  · rw [shape]
    exact content
  · rw [shape]
    exact authority

end Enfold
