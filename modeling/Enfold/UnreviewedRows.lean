import Enfold.UntypedTotality
import Mathlib.Data.List.Find
import Mathlib.Data.Multiset.Basic

/-! The rows of two ledgers in pairs: unreviewed rows of the first are left over, every other row has
a row of the second beside it. The lookups of an untyped write and its effect follow the pairs. -/
namespace Enfold

open Fallible

variable {rt : Runtime} {l l' : Ledger} {request : WriteRequest} {n : Nat} {f g : Fact}
  {pairs : List (Fact × Fact)}

/-- A row default recall may return. -/
def Fact.recallable (f : Fact) : Bool := f.active && f.correctionStatus ≠ some "unreviewed"

/-- The scopes and contents of default recall, as often as they occur. -/
def Ledger.recalled (l : Ledger) : Multiset (String × String) :=
  ((l.facts.filter Fact.recallable).map fun f => (f.scope, f.content) : List (String × String))

/-- An unreviewed row stored when `n` was the next id, or later. -/
def Fact.leftOver (n : Nat) (f : Fact) : Bool :=
  n ≤ f.factId && f.correctionStatus = some "unreviewed"

structure Alike (f g : Fact) : Prop where
  content : f.content = g.content
  scope : f.scope = g.scope
  current : f.current = g.current
  calm : f.conflictGroup.isNone = g.conflictGroup.isNone
  isState : f.isState = g.isState
  correctionStatus : f.correctionStatus = g.correctionStatus
  sourceAuthority : f.sourceAuthority = g.sourceAuthority

theorem Alike.openIn (alike : Alike f g) (scope : String) : f.openIn scope = g.openIn scope := by
  simp only [Fact.openIn, alike.scope, alike.current, alike.calm]

theorem Alike.recallable (alike : Alike f g) : f.recallable = g.recallable := by
  simp only [Fact.recallable, Fact.active, alike.current, alike.calm, alike.correctionStatus]

theorem Alike.protectedFrom (alike : Alike f g) : f.protectedFrom request = g.protectedFrom request := by
  simp only [Fact.protectedFrom, alike.isState, alike.correctionStatus, alike.sourceAuthority]

theorem Alike.supersede (alike : Alike f g) (now : String) (survivor survivor' : Nat) :
    Alike (f.supersede now survivor) (g.supersede now survivor') :=
  { alike with current := rfl }

theorem Alike.disputeAs (alike : Alike f g) {conflictId conflictId' : Nat}
    {subject subject' predicate predicate' : String} :
    Alike (f.disputeAs conflictId subject predicate) (g.disputeAs conflictId' subject' predicate') :=
  { alike with calm := rfl }

theorem belowOrder : (∀ a b, UntypedContradiction.below request a b = true →
      UntypedContradiction.below request b a = false) ∧
    ∀ a b c, UntypedContradiction.below request a c = true →
      UntypedContradiction.below request a b = true ∨ UntypedContradiction.below request b c = true := by
  constructor
  · intro a b
    simp only [UntypedContradiction.below, Bool.or_eq_true, Bool.and_eq_true, decide_eq_true_eq,
      Bool.or_eq_false_iff, Bool.and_eq_false_iff, decide_eq_false_iff_not]
    omega
  · intro a b c
    simp only [UntypedContradiction.below, Bool.or_eq_true, Bool.and_eq_true, decide_eq_true_eq]
    omega

def contradictionOf (request : WriteRequest) (f : Fact) : Option UntypedContradiction :=
  if f.openIn request.scope && !f.isState && f.content ≠ request.content then
    contradictionWith request f.factId f.content
  else none

theorem findContradiction : findUntypedContradiction l request =
    greatest (UntypedContradiction.below request) (l.facts.filterMap (contradictionOf request)) := by
  unfold findUntypedContradiction loadUntypedCurrentFacts
  rw [List.filterMap_filter]
  refine congrArg _ (List.filterMap_congr fun f _ => ?_)
  simp only [contradictionOf]
  by_cases here : f.openIn request.scope && !f.isState
  · by_cases same : f.content = request.content
    · simp [same]
    · simp only [here, same, if_true, if_false, ne_eq, not_false_eq_true, decide_true, Bool.and_self]
  · simp only [Bool.not_eq_true] at here
    simp [here]

theorem Alike.contradiction (alike : Alike f g) : contradictionOf request g =
    (contradictionOf request f).map fun found => { found with factId := g.factId } := by
  unfold contradictionOf
  rw [alike.openIn, alike.isState, alike.content]
  split
  · unfold contradictionWith
    split
    · split <;> rfl
    · rfl
  · rfl

theorem contradictionOfId {found : UntypedContradiction} (h : contradictionOf request f = some found) :
    found.factId = f.factId := by
  unfold contradictionOf at h
  split at h
  · exact (contradictionWithId h).1
  · cases h

/-- The rows of two ledgers in pairs; rows older than `n` are in both under one id, and ids stand in
one order. -/
structure Ledger.Beside (n : Nat) (l l' : Ledger) (pairs : List (Fact × Fact)) : Prop where
  whole : pairs.map Prod.fst = l.facts.filter fun f => !f.leftOver n
  rest : pairs.map Prod.snd = l'.facts
  alike : ∀ p ∈ pairs, Alike p.1 p.2
  shared : ∀ p ∈ pairs, p.1.factId < n → p.2.factId = p.1.factId
  ordered : ∀ p ∈ pairs, ∀ q ∈ pairs, p.1.factId < q.1.factId ↔ p.2.factId < q.2.factId
  since : n ≤ l.nextFactId

namespace Ledger.Beside

theorem refl (keyed : l.Keyed) : l.Beside l.nextFactId l (l.facts.map fun f => (f, f)) where
  whole := by
    rw [List.map_map]
    refine (List.map_id _).trans (List.filter_eq_self.mpr fun f hf => ?_).symm
    have below := keyed.factBound f hf
    simp [Fact.leftOver, below]
  rest := by
    rw [List.map_map]
    exact List.map_id _
  alike := by
    intro p hp
    obtain ⟨f, -, rfl⟩ := List.mem_map.mp hp
    exact ⟨rfl, rfl, rfl, rfl, rfl, rfl, rfl⟩
  shared := by
    intro p hp _
    obtain ⟨f, -, rfl⟩ := List.mem_map.mp hp
    rfl
  ordered := by
    intro p hp q hq
    obtain ⟨f, -, rfl⟩ := List.mem_map.mp hp
    obtain ⟨g, -, rfl⟩ := List.mem_map.mp hq
    exact Iff.rfl
  since := le_rfl

variable (beside : l.Beside n l' pairs)
include beside

theorem recalled : l.recalled = l'.recalled := by
  have hidden : l.facts.filter Fact.recallable =
      (l.facts.filter fun f => !f.leftOver n).filter Fact.recallable := by
    rw [List.filter_filter]
    refine List.filter_congr fun f _ => ?_
    cases seen : f.recallable with
    | false => rfl
    | true =>
      simp only [Fact.recallable, Bool.and_eq_true, decide_eq_true_eq] at seen
      simp [Fact.leftOver, seen.2]
  have same : (pairs.filter fun p => p.1.recallable) = pairs.filter fun p => p.2.recallable :=
    List.filter_congr fun p hp => (beside.alike p hp).recallable
  unfold Ledger.recalled
  rw [hidden, ← beside.whole, ← beside.rest, List.filter_map, List.filter_map, List.map_map, List.map_map]
  refine congrArg _ ?_
  show (pairs.filter fun p => p.1.recallable).map _ = (pairs.filter fun p => p.2.recallable).map _
  rw [same]
  refine List.map_congr_left fun p hp => ?_
  have alike := beside.alike p (List.mem_filter.mp hp).1
  simp only [Function.comp_apply, alike.scope, alike.content]

theorem memLeft {p : Fact × Fact} (hp : p ∈ pairs) : p.1 ∈ l.facts ∧ p.1.leftOver n = false := by
  have mem : p.1 ∈ l.facts.filter fun f => !f.leftOver n := beside.whole ▸ List.mem_map_of_mem hp
  simpa using List.mem_filter.mp mem

theorem memRight {p : Fact × Fact} (hp : p ∈ pairs) : p.2 ∈ l'.facts :=
  beside.rest ▸ List.mem_map_of_mem hp

theorem pairLeft (hf : f ∈ l.facts) (kept : f.leftOver n = false) : ∃ p ∈ pairs, p.1 = f := by
  have mem : f ∈ pairs.map Prod.fst := beside.whole ▸ List.mem_filter.mpr ⟨hf, by simp [kept]⟩
  exact List.mem_map.mp mem

theorem pairRight (hg : g ∈ l'.facts) : ∃ p ∈ pairs, p.2 = g :=
  List.mem_map.mp (beside.rest ▸ hg)

theorem sameId {p q : Fact × Fact} (hp : p ∈ pairs) (hq : q ∈ pairs) :
    q.1.factId = p.1.factId ↔ q.2.factId = p.2.factId := by
  have one := beside.ordered p hp q hq
  have two := beside.ordered q hq p hp
  omega

/-! ## Lookups -/

theorem exactNone (none' : findUntypedExactDuplicate l request = none) :
    findUntypedExactDuplicate l' request = none := by
  refine Option.map_eq_none_iff.mpr (List.find?_eq_none.mpr fun g hg hit => ?_)
  obtain ⟨p, hp, rfl⟩ := beside.pairRight hg
  have alike := beside.alike p hp
  rw [← alike.openIn, ← alike.content] at hit
  exact List.find?_eq_none.mp (Option.map_eq_none_iff.mp none') p.1 (beside.memLeft hp).1 hit

theorem exactSame {factId : Nat} (found : findUntypedExactDuplicate l request = some factId)
    (seen : ∀ f ∈ l.facts, f.factId = factId → f.leftOver n = false) :
    ∃ p ∈ pairs, p.1.factId = factId ∧ findUntypedExactDuplicate l' request = some p.2.factId := by
  obtain ⟨f, stored, rfl⟩ := Option.map_eq_some_iff.mp found
  have kept := seen f (List.mem_of_find?_eq_some stored) rfl
  obtain ⟨hit, pre, post, split, missed⟩ := List.find?_eq_some_iff_append.mp stored
  have inner : (pairs.map Prod.fst).find? (fun f => f.openIn request.scope && f.content = request.content) =
      some f := by
    rw [beside.whole, split, List.filter_append, List.filter_cons, if_pos (by simp [kept])]
    exact List.find?_eq_some_iff_append.mpr ⟨hit, _, _, rfl, fun g hg => missed g (List.mem_filter.mp hg).1⟩
  rw [List.find?_map] at inner
  obtain ⟨p, here, rfl⟩ := Option.map_eq_some_iff.mp inner
  refine ⟨p, List.mem_of_find?_eq_some here, rfl, ?_⟩
  have alike : pairs.find? ((fun f : Fact => f.openIn request.scope && f.content = request.content) ∘ Prod.snd) =
      some p := by
    rw [← here]
    refine List.find?_congr fun q hq => ?_
    have alike := beside.alike q hq
    simp only [Function.comp_apply, alike.openIn, alike.content]
  rw [findUntypedExactDuplicate, ← beside.rest, List.find?_map, alike]
  rfl

theorem agreesNone (none' : findUntypedContradiction l request = none) :
    findUntypedContradiction l' request = none := by
  rw [findContradiction, greatestNone, List.filterMap_eq_nil_iff] at none' ⊢
  intro g hg
  obtain ⟨p, hp, rfl⟩ := beside.pairRight hg
  rw [(beside.alike p hp).contradiction, none' p.1 (beside.memLeft hp).1]
  rfl

theorem disputesSame (keyed : l.Keyed) {found : UntypedContradiction}
    (disputes : findUntypedContradiction l request = some found)
    (seen : ∀ f ∈ l.facts, f.factId = found.factId → f.leftOver n = false) :
    ∃ p ∈ pairs, p.1.factId = found.factId ∧
      findUntypedContradiction l' request = some { found with factId := p.2.factId } := by
  rw [findContradiction] at disputes ⊢
  obtain ⟨f, hf, made⟩ := List.mem_filterMap.mp (greatestMem disputes)
  have id := contradictionOfId made
  obtain ⟨p, hp, rfl⟩ := beside.pairLeft hf (seen f hf id.symm)
  have made' : contradictionOf request p.2 = some { found with factId := p.2.factId } := by
    rw [(beside.alike p hp).contradiction, made]
    rfl
  have mem' := List.mem_filterMap.mpr ⟨p.2, beside.memRight hp, made'⟩
  refine ⟨p, hp, id.symm, ?_⟩
  cases best : greatest (UntypedContradiction.below request) (l'.facts.filterMap (contradictionOf request)) with
  | none =>
    rw [greatestNone.mp best] at mem'
    exact absurd mem' List.not_mem_nil
  | some top =>
    obtain ⟨g, hg, madeTop⟩ := List.mem_filterMap.mp (greatestMem best)
    obtain ⟨q, hq, rfl⟩ := beside.pairRight hg
    rw [(beside.alike q hq).contradiction] at madeTop
    obtain ⟨c, madeC, rfl⟩ := Option.map_eq_some_iff.mp madeTop
    -- neither row is above the other, so they are the same one
    have up := greatestTop belowOrder.1 belowOrder.2 disputes c
      (List.mem_filterMap.mpr ⟨q.1, (beside.memLeft hq).1, madeC⟩)
    have down := greatestTop belowOrder.1 belowOrder.2 best _ mem'
    have idC := contradictionOfId madeC
    have order := beside.ordered p hp q hq
    have order' := beside.ordered q hq p hp
    have one : q.1.factId = p.1.factId := by
      simp only [UntypedContradiction.below, Bool.or_eq_false_iff, Bool.and_eq_false_iff,
        decide_eq_false_iff_not] at up down
      omega
    have row : q.1 = p.1 := Table.uniqueEq keyed.factIds (beside.memLeft hq).1 hf one
    rw [row, made] at madeC
    cases madeC
    rw [(beside.sameId hp hq).mp one]

/-! ## Effects -/

theorem amended {k m : Ledger} {hit hit' : Fact → Bool} {h h' : Fact → Fact}
    (facts : k.facts = Table.amend hit h l.facts) (facts' : m.facts = Table.amend hit' h' l'.facts)
    (next : l.nextFactId ≤ k.nextFactId) (together : ∀ p ∈ pairs, hit p.1 = hit' p.2)
    (id : ∀ f, (h f).factId = f.factId) (id' : ∀ f, (h' f).factId = f.factId)
    (status : ∀ f, (h f).correctionStatus = f.correctionStatus)
    (alike : ∀ f g, Alike f g → Alike (h f) (h' g)) : ∃ pairs', k.Beside n m pairs' := by
  have once (f) : (if hit f then h f else f).factId = f.factId ∧
      (if hit f then h f else f).correctionStatus = f.correctionStatus := by
    split
    · exact ⟨id f, status f⟩
    · exact ⟨rfl, rfl⟩
  have once' (f) : (if hit' f then h' f else f).factId = f.factId := by
    split
    · exact id' f
    · rfl
  refine ⟨pairs.map fun p => (if hit p.1 then h p.1 else p.1, if hit' p.2 then h' p.2 else p.2), ?_, ?_, ?_,
    ?_, ?_, beside.since.trans next⟩
  · rw [facts, Table.amend, List.filter_map, List.map_map]
    have same : ((fun f => !Fact.leftOver n f) ∘ fun f => if hit f then h f else f) =
        fun f => !Fact.leftOver n f := by
      funext f
      simp only [Function.comp_apply, Fact.leftOver, once]
    rw [same, ← beside.whole, List.map_map]
    rfl
  · rw [facts', Table.amend, List.map_map, ← beside.rest, List.map_map]
    rfl
  · intro q hq
    obtain ⟨p, hp, rfl⟩ := List.mem_map.mp hq
    have hits := together p hp
    cases here : hit p.1 with
    | true =>
      rw [here] at hits
      simp only [← hits, if_true]
      exact alike p.1 p.2 (beside.alike p hp)
    | false =>
      rw [here] at hits
      simp only [← hits, Bool.false_eq_true, if_false]
      exact beside.alike p hp
  · intro q hq
    obtain ⟨p, hp, rfl⟩ := List.mem_map.mp hq
    dsimp only
    rw [(once p.1).1, once']
    exact beside.shared p hp
  · intro q hq r hr
    obtain ⟨p, hp, rfl⟩ := List.mem_map.mp hq
    obtain ⟨o, ho, rfl⟩ := List.mem_map.mp hr
    dsimp only
    rw [(once p.1).1, once', (once o.1).1, once']
    exact beside.ordered p hp o ho

theorem amendedLeftOver {k : Ledger} {hit : Fact → Bool} {h : Fact → Fact}
    (facts : k.facts = Table.amend hit h l.facts) (next : l.nextFactId ≤ k.nextFactId)
    (hidden : ∀ f ∈ l.facts, hit f = true → f.leftOver n = true ∧ (h f).leftOver n = true) :
    k.Beside n l' pairs := by
  refine { beside with whole := ?_, since := beside.since.trans next }
  rw [beside.whole, facts, Table.amend]
  generalize l.facts = rows at hidden
  induction rows with
  | nil => rfl
  | cons f rows ih =>
    have tail := ih fun g hg => hidden g (List.mem_cons_of_mem _ hg)
    rw [List.map_cons, List.filter_cons, List.filter_cons, tail]
    cases here : hit f with
    | true => simp [hidden f List.mem_cons_self here]
    | false => simp

theorem inserted (keyed : l.Keyed) (keyed' : l'.Keyed) {k k' : Ledger} {f g : Fact}
    (facts : k.facts = l.facts ++ [f]) (facts' : k'.facts = l'.facts ++ [g]) (next : l.nextFactId ≤ k.nextFactId)
    (id : f.factId = l.nextFactId) (id' : g.factId = l'.nextFactId) (kept : f.leftOver n = false)
    (alike : Alike f g) : k.Beside n k' (pairs ++ [(f, g)]) := by
  have since := beside.since
  have below (p) (hp : p ∈ pairs) : p.1.factId < f.factId ∧ p.2.factId < g.factId := by
    rw [id, id']
    exact ⟨keyed.factBound p.1 (beside.memLeft hp).1, keyed'.factBound p.2 (beside.memRight hp)⟩
  refine ⟨?_, ?_, ?_, ?_, ?_, since.trans next⟩
  · rw [facts, List.map_append, beside.whole, List.filter_append]
    simp [kept]
  · rw [facts', List.map_append, beside.rest]
    rfl
  · intro p hp
    rcases List.mem_append.mp hp with hp | hp
    · exact beside.alike p hp
    · rw [List.mem_singleton.mp hp]
      exact alike
  · intro p hp old
    rcases List.mem_append.mp hp with hp | hp
    · exact beside.shared p hp old
    · rw [List.mem_singleton.mp hp] at old
      dsimp only at old
      omega
  · intro p hp q hq
    rcases List.mem_append.mp hp with hp | hp
    · rcases List.mem_append.mp hq with hq | hq
      · exact beside.ordered p hp q hq
      · rw [List.mem_singleton.mp hq]
        exact iff_of_true (below p hp).1 (below p hp).2
    · rw [List.mem_singleton.mp hp]
      rcases List.mem_append.mp hq with hq | hq
      · exact iff_of_false (below q hq).1.asymm (below q hq).2.asymm
      · rw [List.mem_singleton.mp hq]
        exact iff_of_false (lt_irrefl _) (lt_irrefl _)

theorem insertedLeftOver {k : Ledger} {f : Fact} (facts : k.facts = l.facts ++ [f])
    (next : l.nextFactId ≤ k.nextFactId) (hidden : f.leftOver n = true) : k.Beside n l' pairs := by
  refine { beside with whole := ?_, since := beside.since.trans next }
  rw [beside.whole, facts, List.filter_append]
  simp [hidden]

end Ledger.Beside

/-! ## Matches -/

section Match
variable {svc : WriteService} {effective : ConnectionContext} {s s' : Store}
  {extracted : Option ExtractedTypedFields} {query : Option (List Rat)} {clock : Clock}

inductive MatchBeside (pairs : List (Fact × Fact)) : UntypedMatch → UntypedMatch → Prop
  | duplicate {p} (mem : p ∈ pairs) : MatchBeside pairs (.duplicate p.1.factId) (.duplicate p.2.factId)
  | contradiction {p found} (mem : p ∈ pairs) (id : p.1.factId = found.factId) :
      MatchBeside pairs (.contradiction found) (.contradiction { found with factId := p.2.factId })
  | nearDuplicate {p candidate} (mem : p ∈ pairs) (id : p.1.factId = candidate.factId)
      (id' : p.2.factId = candidate.factId) :
      MatchBeside pairs (.nearDuplicate candidate) (.nearDuplicate candidate)
  | fresh : MatchBeside pairs .fresh .fresh

def Ledger.shows (l : Ledger) (n factId : Nat) : Prop :=
  ∀ f ∈ l.facts, f.factId = factId → f.leftOver n = false

/-- No lookup of a reviewed write answers with an unreviewed row stored since, and its near-duplicate
search answers as it does on the other store, with an older row. -/
structure LooksPast (rt : Runtime) (svc : WriteService) (effective : ConnectionContext) (n : Nat)
    (s s' : Store) (request : WriteRequest) (extracted : Option ExtractedTypedFields) : Prop where
  exact : ∀ factId, findUntypedExactDuplicate s.toLedger request = some factId → s.shows n factId
  disputes : findUntypedExactDuplicate s.toLedger request = none → extracted = none →
    ∀ found, findUntypedContradiction s.toLedger request = some found → s.shows n found.factId
  near : findUntypedExactDuplicate s.toLedger request = none → extracted = none →
    findUntypedContradiction s.toLedger request = none →
    ∀ query, prepareNearDedupQuery rt svc effective s request none = .ok query →
    findUntypedNearDuplicate rt svc s request query = findUntypedNearDuplicate rt svc s' request query ∧
      ∀ candidate, findUntypedNearDuplicate rt svc s request query = some candidate → candidate.factId < n

theorem Ledger.Beside.nearSame (beside : s.Beside n s'.toLedger pairs) (keyed : s.toLedger.Keyed)
    (keyed' : s'.toLedger.Keyed) {candidate : NearDuplicateCandidate} (old : candidate.factId < n)
    (near : findUntypedNearDuplicate rt svc s request query = some candidate) :
    ∃ p ∈ pairs, p.1.factId = candidate.factId ∧ p.2.factId = candidate.factId ∧
      (∀ found, contradictionFromNearDuplicate s.toLedger request candidate = some found →
        found.factId = candidate.factId) ∧
      contradictionFromNearDuplicate s'.toLedger request candidate =
        contradictionFromNearDuplicate s.toLedger request candidate := by
  obtain ⟨f, hf, id, -⟩ := nearDuplicateMatch near
  have kept : f.leftOver n = false := by
    rw [Fact.leftOver, id, decide_eq_false (Nat.not_le_of_lt old), Bool.false_and]
  obtain ⟨p, hp, rfl⟩ := beside.pairLeft hf kept
  have id' : p.2.factId = candidate.factId := (beside.shared p hp (id ▸ old)).trans id
  have here : s.fact candidate.factId = some p.1 := id ▸ keyed.find hf
  have there : s'.fact candidate.factId = some p.2 := id' ▸ keyed'.find (beside.memRight hp)
  refine ⟨p, hp, id, id', fun found h => ?_, ?_⟩
  · rw [contradictionFromNearDuplicate, here, Option.bind_some] at h
    exact (contradictionWithId h).1
  · unfold contradictionFromNearDuplicate
    rw [here, there, Option.bind_some, Option.bind_some, (beside.alike p hp).content]

theorem Ledger.Beside.matched (beside : s.Beside n s'.toLedger pairs) (keyed : s.toLedger.Keyed)
    (keyed' : s'.toLedger.Keyed) (looks : LooksPast rt svc effective n s s' request extracted)
    (prepared : prepareNearDedupQuery rt svc effective s request none = .ok query) :
    MatchBeside pairs (untypedMatch rt svc s request extracted query)
      (untypedMatch rt svc s' request extracted query) := by
  have matched : Matched rt svc s request extracted query _ := untypedMatchSource
  generalize untypedMatch rt svc s request extracted query = choice at matched ⊢
  cases matched with
  | duplicate exact' =>
    obtain ⟨p, hp, rfl, there⟩ := beside.exactSame exact' (looks.exact _ exact')
    rw [Matched.found (.duplicate there)]
    exact .duplicate hp
  | bypass distinct special =>
    rw [Matched.found (.bypass (beside.exactNone distinct) special)]
    exact .fresh
  | contradiction distinct plain disputes =>
    obtain ⟨p, hp, id, there⟩ := beside.disputesSame keyed disputes (looks.disputes distinct plain.1 _ disputes)
    rw [Matched.found (.contradiction (beside.exactNone distinct) plain there)]
    exact .contradiction hp id
  | unmatched distinct plain agrees apart =>
    obtain ⟨same, -⟩ := looks.near distinct plain.1 agrees query prepared
    rw [Matched.found (.unmatched (beside.exactNone distinct) plain (beside.agreesNone agrees)
      (same.symm.trans apart))]
    exact .fresh
  | nearContradiction distinct plain agrees near disputes =>
    obtain ⟨same, old⟩ := looks.near distinct plain.1 agrees query prepared
    obtain ⟨p, hp, id, id', named, there⟩ := beside.nearSame keyed keyed' (old _ near) near
    rw [Matched.found (.nearContradiction (beside.exactNone distinct) plain (beside.agreesNone agrees)
      (same.symm.trans near) (there.trans disputes))]
    have both := MatchBeside.contradiction hp (id.trans (named _ disputes).symm)
    rwa [id', ← named _ disputes] at both
  | nearDuplicate distinct plain agrees near joins =>
    obtain ⟨same, old⟩ := looks.near distinct plain.1 agrees query prepared
    obtain ⟨p, hp, id, id', -, there⟩ := beside.nearSame keyed keyed' (old _ near) near
    rw [Matched.found (.nearDuplicate (beside.exactNone distinct) plain (beside.agreesNone agrees)
      (same.symm.trans near) (there.trans joins))]
    exact .nearDuplicate hp id id'

theorem reviewedKept (reviewed : request.correctionStatus ≠ some "unreviewed")
    (status : f.correctionStatus = request.correctionStatus) : f.leftOver n = false := by
  simp [Fact.leftOver, status, reviewed]

theorem storedAlike {now : String} {factId factId' : Nat} :
    Alike (request.stored extracted factId now) (request.stored extracted factId' now) := by
  unfold WriteRequest.stored
  split
  · exact ⟨rfl, rfl, rfl, rfl, rfl, rfl, rfl⟩
  · exact ⟨rfl, rfl, rfl, rfl, rfl, rfl, rfl⟩

theorem Ledger.Beside.effect (beside : l.Beside n l' pairs) (keyed : l.Keyed) (keyed' : l'.Keyed)
    (reviewed : request.correctionStatus ≠ some "unreviewed") {choice choice' : UntypedMatch} {k k' : Ledger}
    {result result' : FactWriteResult} (matched : MatchBeside pairs choice choice')
    (effect : UntypedEffect l request extracted clock choice k result)
    (effect' : UntypedEffect l' request extracted clock choice' k' result') :
    ∃ pairs', k.Beside n k' pairs' := by
  have row : Alike (request.row l.nextFactId clock.insertedAt) (request.row l'.nextFactId clock.insertedAt) :=
    ⟨rfl, rfl, rfl, rfl, rfl, rfl, rfl⟩
  cases matched with
  | duplicate =>
    cases effect
    cases effect'
    exact ⟨pairs, beside⟩
  | fresh =>
    cases effect with
    | fresh kind =>
      cases effect'
      have stored : request.Stores l (request.stored _ l.nextFactId clock.insertedAt) := (storedRow kind).1
      have stored' : request.Stores l' (request.stored _ l'.nextFactId clock.insertedAt) :=
        (storedRow kind).1
      exact ⟨_, beside.inserted keyed keyed' rfl rfl (Nat.le_succ _) stored.factId stored'.factId
        (reviewedKept reviewed stored.correctionStatus) storedAlike⟩
  | @contradiction p found mem id =>
    cases effect with
    | dispute opened =>
      cases effect' with
      | dispute opened' =>
        obtain ⟨-, subject, predicate, detail, -, -, -, -, -, -, -, rfl⟩ := opened
        obtain ⟨-, subject', predicate', detail', -, -, -, -, -, -, -, rfl⟩ := opened'
        have open₁ := keyed.openConflict (.detected l.nextConflictId request.scope subject predicate
          clock.recordedAt detail) [found.factId] rfl
          fun f => show (f.disputeAs l.nextConflictId subject predicate).factId = f.factId from rfl
        have open₂ := keyed'.openConflict (.detected l'.nextConflictId request.scope subject' predicate'
          clock.recordedAt detail') [p.2.factId] rfl
          fun f => show (f.disputeAs l'.nextConflictId subject' predicate').factId = f.factId from rfl
        obtain ⟨pairs', marked⟩ := beside.amended (k := l.openConflict (.detected l.nextConflictId
            request.scope subject predicate clock.recordedAt detail) [found.factId]
            (Fact.disputeAs l.nextConflictId subject predicate))
          (m := l'.openConflict (.detected l'.nextConflictId request.scope subject' predicate'
            clock.recordedAt detail') [p.2.factId] (Fact.disputeAs l'.nextConflictId subject' predicate'))
          rfl rfl le_rfl
          (fun q hq => by
            have same := beside.sameId mem hq
            rw [id] at same
            simp only [List.contains_eq_mem, List.mem_singleton, same])
          (fun _ => rfl) (fun _ => rfl) (fun _ => rfl) fun _ _ alike => alike.disputeAs
        exact ⟨_, marked.inserted open₁ open₂ rfl rfl (Nat.le_succ _) rfl rfl (reviewedKept reviewed rfl)
          row.disputeAs⟩
  | @nearDuplicate p candidate mem id id' =>
    have shield {f g : Fact} (hf : f ∈ l.facts) (fid : f.factId = candidate.factId) (hg : g ∈ l'.facts)
        (gid : g.factId = candidate.factId) : f.protectedFrom request = g.protectedFrom request := by
      rw [Table.uniqueEq keyed.factIds hf (beside.memLeft mem).1 (fid.trans id.symm),
        Table.uniqueEq keyed'.factIds hg (beside.memRight mem) (gid.trans id'.symm)]
      exact (beside.alike p mem).protectedFrom
    cases effect with
    | wins hf fid here open' ahead =>
      cases effect' with
      | wins =>
        obtain ⟨pairs', retired⟩ := beside.amended
          (k := l.retire candidate.factId (Fact.supersede clock.recordedAt l.nextFactId))
          (m := l'.retire candidate.factId (Fact.supersede clock.recordedAt l'.nextFactId))
          rfl rfl le_rfl
          (fun q hq => by
            have same := beside.sameId mem hq
            rw [id, id'] at same
            simp only [same])
          (fun _ => rfl) (fun _ => rfl) (fun _ => rfl) fun _ _ alike => alike.supersede _ _ _
        exact ⟨_, retired.inserted (keyed.amend fun _ => rfl) (keyed'.amend fun _ => rfl) rfl rfl
          (Nat.le_succ _) rfl rfl (reviewedKept reviewed rfl) row⟩
      | loses hg gid _ behind =>
        rw [shield hf fid hg gid] at open'
        rcases behind with shut | late
        · exact absurd (open'.symm.trans shut) Bool.noConfusion
        · exact absurd (ahead.symm.trans late) Bool.noConfusion
    | loses hf fid here behind =>
      cases effect' with
      | wins hg gid _ open' ahead =>
        rw [← shield hf fid hg gid] at open'
        rcases behind with shut | late
        · exact absurd (open'.symm.trans shut) Bool.noConfusion
        · exact absurd (ahead.symm.trans late) Bool.noConfusion
      | loses =>
        exact ⟨_, beside.inserted keyed keyed' rfl rfl (Nat.le_succ _) rfl rfl (reviewedKept reviewed rfl)
          (row.supersede _ _ _)⟩

theorem Ledger.Beside.effectLeftOver (beside : l.Beside n l' pairs)
    (unreviewed : request.correctionStatus = some "unreviewed") {choice : UntypedMatch} {k : Ledger}
    {result : FactWriteResult} (effect : UntypedEffect l request extracted clock choice k result)
    (apart : ∀ candidate, choice ≠ .nearDuplicate candidate)
    (disputes : ∀ found, choice = .contradiction found →
      ∀ f ∈ l.facts, f.factId = found.factId → f.leftOver n = true) : k.Beside n l' pairs := by
  have since := beside.since
  cases effect with
  | duplicate => exact beside
  | fresh kind =>
    have stored : request.Stores l (request.stored _ l.nextFactId clock.insertedAt) := (storedRow kind).1
    refine beside.insertedLeftOver rfl (Nat.le_succ _) ?_
    simp [Fact.leftOver, stored.factId, stored.correctionStatus, unreviewed, since]
  | @dispute found _ opened =>
    obtain ⟨-, subject, predicate, detail, -, -, -, -, -, -, -, rfl⟩ := opened
    have marked := beside.amendedLeftOver (k := l.openConflict (.detected l.nextConflictId request.scope
        subject predicate clock.recordedAt detail) [found.factId]
        (Fact.disputeAs l.nextConflictId subject predicate)) rfl le_rfl fun f hf hit => by
      have hidden := disputes found rfl f hf (by simpa using hit)
      exact ⟨hidden, hidden⟩
    refine marked.insertedLeftOver rfl (Nat.le_succ _) ?_
    have status : (request.row l.nextFactId clock.insertedAt).correctionStatus = some "unreviewed" := unreviewed
    have id : (request.row l.nextFactId clock.insertedAt).factId = l.nextFactId := rfl
    simp [Fact.leftOver, Fact.disputeAs, status, id, since]
  | wins => exact absurd rfl (apart _)
  | loses => exact absurd rfl (apart _)

end Match

end Enfold
