import Enfold.SlotKeys
import Enfold.TypedAnswers
import Enfold.ClaimRows
import Enfold.ContradictionOrder

/-! Untyped memory stays free of contradictions while resolutions do: a write never stores a current
claim beside one it contradicts, and only a resolution brings a disputed claim back. -/
namespace Enfold

open Fallible Words Text

variable {rt : Runtime} {svc : WriteService} {context effective : ConnectionContext} {clock : Clock}
  {s t : Store} {l l' : Ledger} {request : WriteRequest}

/-! ## Every contradiction has a label -/

def IsWord (token : String) : Prop := token.toList ≠ [] ∧ ∀ c ∈ token.toList, isWordChar c = true

theorem runsWord {member : Char → Bool} {text : List Char} :
    ∀ run ∈ runs member text, run ≠ [] ∧ ∀ c ∈ run, member c = true := by
  induction text with
  | nil => exact fun run inside => absurd inside List.not_mem_nil
  | cons c rest ih =>
    intro run inside
    unfold runs at inside
    split at inside
    · rename_i hit
      split at inside
      · split at inside
        · rename_i head tail parts
          rcases List.mem_cons.mp inside with rfl | inside
          · refine ⟨List.cons_ne_nil _ _, List.forall_mem_cons.mpr ⟨hit, ?_⟩⟩
            exact (ih head (parts ▸ List.mem_cons_self)).2
          · exact ih run (parts ▸ List.mem_cons_of_mem _ inside)
        · rw [List.mem_singleton.mp inside]
          exact ⟨List.cons_ne_nil _ _, by simpa using hit⟩
      · rcases List.mem_cons.mp inside with rfl | inside
        · exact ⟨List.cons_ne_nil _ _, by simpa using hit⟩
        · exact ih run inside
    · exact ih run inside

theorem tokenWord {text token : String} (h : token ∈ normTokenSequence text) : IsWord token := by
  obtain ⟨run, inside, rfl⟩ := List.mem_map.mp h
  rw [IsWord, String.toList_ofList]
  exact runsWord run inside

theorem stemWord {token suffix short : String} (word : IsWord token) (h : stem token suffix = some short) :
    IsWord short := by
  unfold stem at h
  split at h
  · rename_i rest behind
    split at h
    · rename_i long
      cases h
      rw [IsWord, String.toList_ofList]
      refine ⟨fun empty => ?_, fun c inside => word.2 c ?_⟩
      · rw [List.reverse_eq_nil_iff.mp empty] at long
        cases long
      · have shape := afterSource behind
        rw [← List.mem_reverse, shape]
        exact List.mem_append_right _ (List.mem_reverse.mp inside)
    · cases h
  · cases h

theorem subjectishWord {text token : String} (h : token ∈ subjectishTokens text) : IsWord token := by
  have plain {token : String} (inside : token ∈ minus (contentTokens text) stateWordGroups.flatten) :
      IsWord token :=
    tokenWord (List.mem_filter.mp (List.mem_filter.mp inside).1).1
  rcases List.mem_append.mp h with inside | inside
  · exact plain inside
  · obtain ⟨whole, there, stemmed⟩ := List.mem_flatMap.mp inside
    obtain ⟨suffix, -, short⟩ := List.mem_filterMap.mp stemmed
    exact stemWord (plain there) short

theorem sharedWord {left right token : String}
    (h : token ∈ (normTokenSequence left).filterMap (canonicalSharedToken · (subjectishTokens right))) :
    IsWord token := by
  obtain ⟨whole, -, canonical⟩ := List.mem_filterMap.mp h
  unfold canonicalSharedToken at canonical
  split at canonical
  · rename_i listed
    cases canonical
    exact subjectishWord (List.contains_iff_mem.mp listed)
  · exact subjectishWord (List.contains_iff_mem.mp (List.find?_some canonical))

theorem shapedTake {first rest : Char → Bool} {limit : Nat} {text : List Char} (room : 0 < limit)
    (head : ∃ c tail, text = c :: tail ∧ first c = true) (all : ∀ c ∈ text, rest c = true) :
    shaped first rest limit (text.take limit) = true := by
  obtain ⟨c, tail, rfl, lead⟩ := head
  obtain ⟨steps, rfl⟩ := Nat.exists_eq_succ_of_ne_zero (Nat.pos_iff_ne_zero.mp room)
  rw [List.take_succ_cons, shaped]
  simp only [lead, Bool.true_and, Bool.and_eq_true, List.all_eq_true, decide_eq_true_eq]
  refine ⟨fun d inside => all d (List.mem_cons_of_mem _ (List.mem_of_mem_take inside)), ?_⟩
  have := List.length_take_le steps tail
  omega

theorem wordHead {token : String} (word : IsWord token) :
    ∃ c tail, token.toList = c :: tail ∧ isWordChar c = true := by
  obtain ⟨some, letters⟩ := word
  cases shape : token.toList with
  | nil => exact absurd shape some
  | cons c tail => exact ⟨c, tail, rfl, letters c (shape ▸ List.mem_cons_self)⟩

theorem joinedWords {tokens : List String} (some : tokens ≠ []) (words : ∀ token ∈ tokens, IsWord token) :
    (∃ c tail, (".".intercalate tokens).toList = c :: tail ∧ isWordChar c = true) ∧
      ∀ c ∈ (".".intercalate tokens).toList, (isWordChar c || c = '.') = true := by
  induction tokens with
  | nil => exact absurd rfl some
  | cons token rest ih =>
    have first := words token List.mem_cons_self
    obtain ⟨c, tail, shape, lead⟩ := wordHead first
    cases rest with
    | nil =>
      rw [String.intercalate_singleton]
      exact ⟨⟨c, tail, shape, lead⟩, fun d inside => by simp [first.2 d inside]⟩
    | cons next rest =>
      obtain ⟨-, marks⟩ := ih (List.cons_ne_nil _ _) fun token inside => words token (List.mem_cons_of_mem _ inside)
      rw [String.intercalate_cons_cons, String.toList_append, String.toList_append]
      refine ⟨⟨c, _, by rw [shape]; rfl, lead⟩, fun d inside => ?_⟩
      rcases List.mem_append.mp inside with inside | inside
      · rcases List.mem_append.mp inside with inside | inside
        · simp [first.2 d inside]
        · simpa using .inr (List.mem_singleton.mp inside)
      · exact marks d inside

theorem subjectLabelled {subject : String}
    (head : ∃ c tail, subject.toList = c :: tail ∧ isWordChar c = true)
    (marks : ∀ c ∈ subject.toList, (isWordChar c || c = '.') = true) :
    normalizeSubjectKey (String.ofList (subject.toList.take 128)) =
      .ok (String.ofList (subject.toList.take 128)) := by
  refine subjectKeyStays ?_
  rw [String.toList_ofList]
  refine shapedTake (by omega) head fun c inside => ?_
  have mark := marks c inside
  simp only [Bool.or_eq_true, decide_eq_true_eq] at mark ⊢
  tauto

theorem predicateLabelled {predicate : String} (word : IsWord predicate) :
    normalizePredicateKey (String.ofList (predicate.toList.take 64)) =
      .ok (String.ofList (predicate.toList.take 64)) := by
  refine predicateKeyStays ?_ fun c inside => ?_
  · rw [String.toList_ofList]
    exact shapedTake (by omega) (wordHead word) fun c inside => by simp [word.2 c inside]
  · rw [String.toList_ofList] at inside
    rintro rfl
    have := word.2 '-' (List.mem_of_mem_take inside)
    revert this
    decide

theorem guessLabelled (left right : String) : ∃ label, guessUntypedConflictSlot left right = .ok label := by
  have words : ∀ token ∈ (((normTokenSequence left).filterMap (canonicalSharedToken ·
      (subjectishTokens right))).reverse |>.dedup |>.reverse), IsWord token := fun token inside =>
    sharedWord (List.mem_reverse.mp (List.mem_dedup.mp (List.mem_reverse.mp inside)))
  have named : IsWord "untyped" := ⟨by decide, List.all_eq_true.mp (by decide)⟩
  have claimed : IsWord "claim" := ⟨by decide, List.all_eq_true.mp (by decide)⟩
  have single {token : String} (word : IsWord token) : ∃ label,
      (normalizeSubjectKey (String.ofList (token.toList.take 128)) >>= fun subject =>
        normalizePredicateKey (String.ofList ("claim".toList.take 64)) >>= fun predicate =>
          (.ok (subject, predicate) : Except Raised (String × String))) = .ok label := by
    have subject := subjectLabelled (wordHead word) fun c inside => by simp [word.2 c inside]
    exact ⟨_, bindOk.mpr ⟨_, subject, bindOk.mpr ⟨_, predicateLabelled claimed, rfl⟩⟩⟩
  unfold guessUntypedConflictSlot
  dsimp only
  generalize (((normTokenSequence left).filterMap (canonicalSharedToken · (subjectishTokens right))).reverse
    |>.dedup |>.reverse) = shared at words ⊢
  split
  · exact single named
  · exact single (words _ List.mem_cons_self)
  · rename_i several distinct
    have some : shared ≠ [] := several
    have many : shared.dropLast ≠ [] := by
      intro empty
      have : shared.dropLast.length = shared.length - 1 := List.length_dropLast
      rw [empty] at this
      obtain ⟨only, rfl⟩ := List.length_eq_one_iff.mp (show shared.length = 1 by
        have := List.length_pos_iff.mpr some
        simp only [List.length_nil] at *
        omega)
      exact distinct only rfl
    obtain ⟨head, marks⟩ := joinedWords many fun token inside => words token (List.dropLast_subset _ inside)
    have last : IsWord (shared.getLast?.getD "") := by
      rw [List.getLast?_eq_some_getLast some]
      exact words _ (List.getLast_mem some)
    exact ⟨_, bindOk.mpr ⟨_, subjectLabelled head marks, bindOk.mpr ⟨_, predicateLabelled last, rfl⟩⟩⟩

theorem contradictionWithNone {factId : Nat} {content : String} :
    contradictionWith request factId content = none ↔
      untypedContentsContradict request.content content = false := by
  unfold contradictionWith
  obtain ⟨⟨subject, predicate⟩, guessed⟩ := guessLabelled request.content content
  rw [guessed]
  split
  · rename_i contradict
    simp [contradict]
  · rename_i agree
    simp [agree]

/-! ## Runs -/

/-- No two current, undisputed untyped facts of one scope contradict each other. -/
def Ledger.AtPeace (l : Ledger) : Prop :=
  ∀ f ∈ l.facts, ∀ g ∈ l.facts, f.active = true → g.active = true → f.isState = false →
    g.isState = false → f.scope = g.scope → untypedContentsContradict f.content g.content = false

-- an untyped write of its own: no target, no extracted typing, no search
structure TimedWrite.Plain (svc : WriteService) (timed : TimedWrite rt) : Prop where
  unsearched : svc.nearDedup.enabled = false
  bare : timed.item.candidate = none
  additive : timed.item.request.supersedeFactId = none
  unextracted : ∀ fields, extractedTypedFields rt timed.item.request timed.item.candidate ≠
    .ok (some fields)

def Operation.PlainUntyped : Operation rt → Prop
  | .write svc _ timed => timed.Plain svc
  | .writeBatch svc _ writes _ _ => ∀ timed ∈ writes, timed.Plain svc
  | .resolveConflict .. => True
  | _ => False

/-- A resolution restores no untyped fact that contradicts one current by now. -/
def Operation.RestoresPeace (s : Store) : Operation rt → Prop
  | .resolveConflict _ _ _ factId _ _ _ => ∀ w ∈ s.facts, w.factId = factId → w.isState = false →
      ∀ f ∈ s.facts, f.active = true → f.isState = false → f.scope = w.scope →
        untypedContentsContradict w.content f.content = false
  | _ => True

theorem freshAgrees {f : Fact} (mem : f ∈ l.facts) (active : f.active = true) (untyped : f.isState = false)
    (scope : f.scope = request.scope) (distinct : findUntypedExactDuplicate l request = none)
    (agrees : findUntypedContradiction l request = none) :
    untypedContentsContradict request.content f.content = false := by
  have here : f.openIn request.scope = true := by
    simp only [Fact.active, Bool.and_eq_true] at active
    simp [Fact.openIn, scope, active]
  have other : f.content ≠ request.content := by
    intro same
    have missed := List.find?_eq_none.mp (Option.map_eq_none_iff.mp distinct) f mem
    simp [here, same] at missed
  have listed : f ∈ loadUntypedCurrentFacts l request.scope :=
    List.mem_filter.mpr ⟨mem, by simp [here, untyped]⟩
  have missed := List.filterMap_eq_nil_iff.mp (greatestNone.mp agrees) f listed
  rw [if_neg other] at missed
  exact contradictionWithNone.mp missed

theorem requestKept (built : request.postInit = .ok request) :
    Text.strip request.content = request.content ∧ Text.strip request.scope = request.scope := by
  simp only [WriteRequest.postInit, bindOk] at built
  obtain ⟨_, -, content, contentHere, _, -, _, -, scope, scopeHere, _, -, _, -, _, -, -, -, -, -, -, -, last⟩ :=
    built
  have same := Except.ok.inj last
  have contentSame : content = request.content := congrArg WriteRequest.content same
  have scopeSame : scope = request.scope := congrArg WriteRequest.scope same
  exact ⟨(requiredSource contentHere).1.symm.trans contentSame, (requiredSource scopeHere).1.symm.trans scopeSame⟩

theorem untypedPeace {found : UntypedMatch} {result : FactWriteResult} (peace : l.AtPeace)
    (built : request.postInit = .ok request)
    (effect : UntypedEffect l request none clock found l' result)
    (unsearched : ∀ near, found ≠ .nearDuplicate near)
    (agrees : found = .fresh → findUntypedExactDuplicate l request = none ∧
      findUntypedContradiction l request = none) : l'.AtPeace := by
  obtain ⟨content, scope⟩ := requestKept built
  -- an active row is an earlier active one, or the fresh claim
  have source {f : Fact} (hf : f ∈ l'.facts) (active : f.active = true) :
      (∃ g ∈ l.facts, g.SameClaim f ∧ g.active = true) ∨
        (f.content = request.content ∧ f.scope = request.scope ∧ found = .fresh) := by
    rcases effect.rows f hf with ⟨g, hg, same, was⟩ | row
    · exact .inl ⟨g, hg, same, was active⟩
    · rcases row.active active with fresh | ⟨near, nearby, -⟩
      · exact .inr ⟨row.stores.content.trans content, row.stores.scope.trans scope, fresh⟩
      · exact absurd nearby (unsearched near)
  have beside {f g : Fact} (hg : g ∈ l.facts) (same : g.SameClaim f) (active : g.active = true)
      (untyped : f.isState = false) (inScope : f.scope = request.scope) (fresh : found = .fresh) :
      untypedContentsContradict request.content f.content = false := by
    obtain ⟨distinct, calm⟩ := agrees fresh
    rw [same.content]
    exact freshAgrees hg active (same.isState ▸ untyped) (same.scope ▸ inScope) distinct calm
  intro f hf g hg factive gactive funtyped guntyped inScope
  rcases source hf factive with ⟨f', hf', fsame, factive'⟩ | ⟨fcontent, fscope, fresh⟩
  · rcases source hg gactive with ⟨g', hg', gsame, gactive'⟩ | ⟨gcontent, gscope, fresh⟩
    · rw [fsame.content, gsame.content]
      exact peace f' hf' g' hg' factive' gactive' (fsame.isState ▸ funtyped) (gsame.isState ▸ guntyped)
        (fsame.scope.symm.trans (inScope.trans gsame.scope))
    · rw [gcontent, contradictComm]
      exact beside hf' fsame factive' funtyped (inScope.trans gscope) fresh
  · rcases source hg gactive with ⟨g', hg', gsame, gactive'⟩ | ⟨gcontent, -, -⟩
    · rw [fcontent]
      exact beside hg' gsame gactive' guntyped (inScope.symm.trans fscope) fresh
    · rw [fcontent, gcontent]
      exact contradictNever rfl

theorem plainPeace {svc : WriteService} {query : Option (List Rat)} {timed : TimedWrite rt}
    {outcome : WriteOutcome} (plain : timed.Plain svc)
    (authorized : svc.policy.authorizeContext rt svc.legacyAuthorized effective = .ok effective)
    (h : batchStep rt svc effective s (timed, query) = .ok (t, outcome))
    (before : s.toLedger.Keyed ∧ s.toLedger.AtPeace) : t.toLedger.Keyed ∧ t.toLedger.AtPeace := by
  obtain ⟨keyed, peace⟩ := before
  obtain ⟨extracted, -, fields, done⟩ := batchStepSource authorized h
  have effect := transactEffect keyed done
  refine ⟨effect.keyed keyed, ?_⟩
  have unextracted : extracted = none := by
    cases extracted with
    | none => rfl
    | some found => exact absurd fields (plain.unextracted found)
  subst unextracted
  have unsearched : findUntypedNearDuplicate rt svc s timed.item.request query = none := by
    unfold findUntypedNearDuplicate
    split
    · rw [plain.unsearched]
      rfl
    · rfl
  generalize t.toLedger = l at effect ⊢
  cases effect with
  | same => exact peace
  | typed _ given => rw [plain.bare] at given; cases given
  | @untyped found l₁ result l₂ _ _ judged chosen effect superseded =>
    have unasked : l = l₁ := by
      cases superseded with
      | unasked => rfl
      | retired asked => rw [plain.additive] at asked; cases asked
    subst unasked
    refine untypedPeace peace timed.item.requestBuilt effect ?_ ?_
    · rintro near rfl
      cases chosen with
      | nearDuplicate _ _ _ found => rw [unsearched] at found; cases found
    · rintro rfl
      cases chosen with
      | bypass _ special =>
        rw [plain.additive] at special
        rcases special with special | special <;> cases special
      | unmatched distinct _ agrees => exact ⟨distinct, agrees⟩

theorem resolutionPeace {conflictId winner : Nat} {validTo : Option String} {by' reason now : String}
    (keyed : l.Keyed) (peace : l.AtPeace)
    (restores : ∀ w ∈ l.facts, w.factId = winner → w.isState = false → ∀ f ∈ l.facts, f.active = true →
      f.isState = false → f.scope = w.scope → untypedContentsContradict w.content f.content = false) :
    (l.resolve conflictId winner validTo by' reason now).AtPeace := by
  -- an active row is the winner, or one that was active
  have source {f : Fact} (hf : f ∈ (l.resolve conflictId winner validTo by' reason now).facts)
      (active : f.active = true) : ∃ g ∈ l.facts, g.SameClaim f ∧ (g.active = true ∨ g.factId = winner) := by
    obtain ⟨g, hg, rfl⟩ := List.mem_map.mp hf
    unfold Fact.resolved at active ⊢
    split
    · rename_i won
      exact ⟨g, hg, ⟨rfl, rfl, rfl, rfl, rfl, rfl⟩, .inr won⟩
    · rename_i other
      rw [if_neg other] at active
      split
      · rename_i loses
        rw [if_pos loses] at active
        simp [Fact.lose, Fact.active, Fact.current] at active
      · rename_i spared
        rw [if_neg spared] at active
        exact ⟨g, hg, sameClaim g, .inl active⟩
  intro f hf g hg factive gactive funtyped guntyped inScope
  obtain ⟨f', hf', fsame, fkind⟩ := source hf factive
  obtain ⟨g', hg', gsame, gkind⟩ := source hg gactive
  rw [fsame.content, gsame.content]
  have scope : f'.scope = g'.scope := fsame.scope.symm.trans (inScope.trans gsame.scope)
  have funtyped : f'.isState = false := fsame.isState ▸ funtyped
  have guntyped : g'.isState = false := gsame.isState ▸ guntyped
  rcases fkind with factive | fwon
  · rcases gkind with gactive | gwon
    · exact peace f' hf' g' hg' factive gactive funtyped guntyped scope
    · rw [contradictComm]
      exact restores g' hg' gwon guntyped f' hf' factive funtyped scope
  · rcases gkind with gactive | gwon
    · exact restores f' hf' fwon funtyped g' hg' gactive guntyped scope.symm
    · rw [Table.uniqueEq keyed.factIds hf' hg' (fwon.trans gwon.symm)]
      exact contradictNever rfl

theorem performPeace {o : Operation rt} (plain : o.PlainUntyped) (restores : o.RestoresPeace s)
    (done : o.perform s = .ok t) (before : s.toLedger.Keyed ∧ s.toLedger.AtPeace) :
    t.toLedger.Keyed ∧ t.toLedger.AtPeace := by
  cases o with
  | write svc context timed =>
    exact writeKeeps (P := fun s => s.toLedger.Keyed ∧ s.toLedger.AtPeace)
      (C := fun svc _ _ timed _ => timed.Plain svc) (fun authorized plain h => plainPeace plain authorized h)
      (fun _ _ _ _ => plain) done before
  | writeBatch svc context writes rollbackIf completes =>
    refine batchKeeps (P := fun s => s.toLedger.Keyed ∧ s.toLedger.AtPeace)
      (C := fun svc _ _ timed _ => timed.Plain svc) (fun authorized plain h => plainPeace plain authorized h)
      id ?_ done before
    intro _ prepared pre item post _ _ _ ready shape _
    obtain ⟨timed, inside, asked⟩ := mapMSource ready item (by rw [shape]; simp)
    obtain ⟨query, -, last⟩ := bindOk.mp asked
    cases last
    exact plain timed inside
  | resolveConflict svc context conflictId factId reason resolvedAt queuedAt =>
    simp only [Operation.perform, bindOk, Prod.exists] at done
    obtain ⟨effective, -, u, resolution, resolved, last⟩ := done
    cases last
    obtain ⟨clients, sessions, resolutions, jobs, l, settled, rfl⟩ := resolveConflictSource resolved
    obtain ⟨row, w, -, -, -, rfl, -⟩ := resolveStateConflictSource before.1 settled
    exact ⟨Ledger.resolveKeyed before.1, resolutionPeace before.1 before.2 restores⟩
  | eraseFact => cases plain
  | mergeClusters => cases plain
  | storeEmbedding => cases plain

/-- Untyped memory written plainly is free of contradictions while every resolution restores peace. -/
theorem pairwiseConsistent {ops : List (Operation rt)} (plain : ∀ o ∈ ops, o.PlainUntyped)
    (restores : Run.Meets Operation.perform Operation.RestoresPeace Store.empty ops) :
    (history ops).toLedger.AtPeace :=
  (Run.invariantWhen (P := fun s : Store => s.toLedger.Keyed ∧ s.toLedger.AtPeace)
    (fun _ _ _ meets done before => performPeace meets.1 meets.2 done before)
    (Run.meetsKind plain restores)
    ⟨soundEmpty.toKeyed, fun _ inside => absurd inside List.not_mem_nil⟩).2

namespace Example

def editor (key name : String)
    (built : (WriteRequest.plain key ("The editor is " ++ name) "user").postInit =
      .ok (WriteRequest.plain key ("The editor is " ++ name) "user")) : TimedWrite .plain where
  clock := .at "2026-01-03"
  item := {
    request := WriteRequest.plain key ("The editor is " ++ name) "user"
    candidate := none
    requestBuilt := built
    candidateBuilt := WriteItem.unslotted }

def arbiter : WriteService :=
  { WriteService.ofPolicy ⟨[("host", ["private"])], [], [], ["host"]⟩ with
    nearDedup := { NearDedupConfig.standard none with enabled := false } }

def reinstated : List (Operation .plain) :=
  [.write arbiter caller (editor "k1" "vim" (by decide +kernel)),
    .write arbiter caller (editor "k2" "emacs" (by decide +kernel)),
    .write arbiter caller (editor "k3" "nano" (by decide +kernel)),
    .resolveConflict arbiter caller 1 1 "vim it is" "2026-01-04" "2026-01-04"]

theorem editorPlain {key name : String}
    {built : (WriteRequest.plain key ("The editor is " ++ name) "user").postInit =
      .ok (WriteRequest.plain key ("The editor is " ++ name) "user")} :
    (editor key name built).Plain arbiter :=
  ⟨rfl, rfl, rfl, fun _ => nofun⟩

theorem reinstatedContradicts : (∀ o ∈ reinstated, o.PlainUntyped) ∧
    ¬ (history reinstated).toLedger.AtPeace := by
  refine ⟨?_, fun peace => ?_⟩
  · intro o inside
    simp only [reinstated, List.mem_cons, List.not_mem_nil, or_false] at inside
    rcases inside with rfl | rfl | rfl | rfl
    · exact editorPlain
    · exact editorPlain
    · exact editorPlain
    · trivial
  · have both : (history reinstated).facts.any fun f => (history reinstated).facts.any fun g =>
        f.active && g.active && !f.isState && !g.isState && decide (f.scope = g.scope) &&
          untypedContentsContradict f.content g.content := by
      decide +kernel
    obtain ⟨f, hf, met⟩ := List.any_eq_true.mp both
    obtain ⟨g, hg, met⟩ := List.any_eq_true.mp met
    simp only [Bool.and_eq_true, Bool.not_eq_true', decide_eq_true_eq] at met
    obtain ⟨⟨⟨⟨⟨factive, gactive⟩, funtyped⟩, guntyped⟩, scope⟩, contradict⟩ := met
    rw [peace f hf g hg factive gactive funtyped guntyped scope] at contradict
    cases contradict

def settledEditors : List (Operation .plain) :=
  [.write arbiter caller (editor "k1" "vim" (by decide +kernel)),
    .write arbiter caller (editor "k2" "emacs" (by decide +kernel)),
    .resolveConflict arbiter caller 1 1 "vim it is" "2026-01-04" "2026-01-04"]

theorem pairwiseConsistentHere :
    (history settledEditors).facts.map (fun f => (f.active, f.supersededBy)) = [(true, none), (false, some 1)] ∧
    (history settledEditors).toLedger.AtPeace := by
  have plain : ∀ o ∈ settledEditors, o.PlainUntyped := by
    intro o inside
    simp only [settledEditors, List.mem_cons, List.not_mem_nil, or_false] at inside
    rcases inside with rfl | rfl | rfl
    · exact editorPlain
    · exact editorPlain
    · trivial
  have calm : Operation.RestoresPeace (history (settledEditors.take 2)) (.resolveConflict arbiter caller 1 1
      "vim it is" "2026-01-04" "2026-01-04" : Operation .plain) := by
    unfold Operation.RestoresPeace
    decide +kernel
  exact ⟨by decide +kernel, pairwiseConsistent plain ⟨trivial, trivial, calm, trivial⟩⟩

end Example

end Enfold
