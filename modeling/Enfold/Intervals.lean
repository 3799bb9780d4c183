import Enfold.ClaimFreshness
import Enfold.SupersessionForest
import Enfold.ValidTime

/-! World-time intervals. A typed write, a resolution, the plugin's supersession and the backfill of a
legacy store all end one fact where another starts; whether that leaves an interval that ends before it
starts is a matter of which of the two starts first. -/
namespace Enfold

open Fallible

/-- `_protected_from_heuristic_supersede`. -/
def Ledger.heuristicProtected (l : Ledger) (factId : Nat) : Bool :=
  (l.fact factId).any fun f => f.isState || f.conflictGroup.isSome

/-- `temporal.supersede`, and whether it invalidated the old row. -/
def supersede (l : Ledger) (oldFactId newFactId : Nat) (now : String) : Ledger × Bool :=
  if l.heuristicProtected oldFactId then (l, false)
  else
    let successorFrom := (l.fact newFactId).bind Fact.validFrom
    let old (f : Fact) : Bool := f.factId = oldFactId && f.invalidAt.isNone
    ({ l with facts := Table.amend old (Fact.outdate now successorFrom newFactId) l.facts },
      Table.matching old l.facts = 1)

def Fact.successorFrom (facts : List Fact) (f : Fact) : Option String :=
  (f.supersededBy.bind fun k => Table.find Fact.factId k facts).bind Fact.validFrom

/-- `_backfill_bitemporal_axes`: the two updates, which read only the starts of other rows. -/
def backfillBitemporalAxes (facts : List Fact) : List Fact :=
  let unexpired (f : Fact) : Bool := f.supersededBy.isSome && f.expiredAt.isNone && f.invalidAt.isSome
  let endless (f : Fact) : Bool :=
    f.supersededBy.isSome && f.validTo.isNone && (f.successorFrom facts).isSome
  Table.amend endless (fun f => { f with validTo := f.successorFrom facts })
    (Table.amend unexpired (fun f => { f with expiredAt := f.invalidAt }) facts)

variable (rt : Runtime)

def Fact.Interval (f : Fact) : Prop :=
  ∀ start stop, parseClock rt f.validFrom = some start → parseClock rt f.validTo = some stop → start ≤ stop

def Fact.StartsBy (f : Fact) (bound : Option String) : Prop :=
  ∀ start stop, parseClock rt f.validFrom = some start → parseClock rt bound = some stop → start ≤ stop

def Ledger.Intervals (l : Ledger) : Prop := ∀ f ∈ l.facts, f.Interval rt

variable {rt}

/-- What a fact that has an end or a successor is known to be: invalid. -/
structure Ledger.Dated (l : Ledger) : Prop extends l.Keyed where
  ended : ∀ f ∈ l.facts, f.validTo.isSome = true → f.invalidAt.isSome = true
  replaced : ∀ f ∈ l.facts, f.supersededBy.isSome = true → f.invalidAt.isSome = true

/-- Every stored end is kept, and a new fact has a new id. -/
structure Ledger.KeepsEnds (l l' : Ledger) : Prop where
  next : l.nextFactId ≤ l'.nextFactId
  traced : ∀ g ∈ l'.facts, (∃ f ∈ l.facts, g.factId = f.factId ∧ (f.validTo ≠ none → g.validTo = f.validTo)) ∨
    l.nextFactId ≤ g.factId

namespace Ledger.KeepsEnds
variable {l l' l'' : Ledger}

theorem refl : l.KeepsEnds l := ⟨le_rfl, fun g hg => .inl ⟨g, hg, rfl, fun _ => rfl⟩⟩

theorem trans (first : l.KeepsEnds l') (second : l'.KeepsEnds l'') : l.KeepsEnds l'' where
  next := first.next.trans second.next
  traced g hg := by
    rcases second.traced g hg with ⟨h, hh, id, kept⟩ | fresh
    · rcases first.traced h hh with ⟨f, hf, id', kept'⟩ | fresh
      · refine .inl ⟨f, hf, id.trans id', fun some => ?_⟩
        have middle := kept' some
        exact (kept (middle ▸ some)).trans middle
      · exact .inr (id ▸ fresh)
    · exact .inr (first.next.trans fresh)

theorem ends (kept : l.KeepsEnds l') (keyed : l.Keyed) {f g : Fact} (hf : f ∈ l.facts) (some : f.validTo ≠ none)
    (hg : g ∈ l'.facts) (id : g.factId = f.factId) : g.validTo = f.validTo := by
  rcases kept.traced g hg with ⟨h, hh, same, stays⟩ | fresh
  · have equal := Table.uniqueEq keyed.factIds hh hf (same.symm.trans id)
    subst equal
    exact stays some
  · have := keyed.factBound f hf
    omega

end Ledger.KeepsEnds

structure Moves (rt : Runtime) (ordered : Prop) (l l' : Ledger) : Prop where
  dated : l'.Dated
  keeps : l.KeepsEnds l'
  intervals : ordered → l.Intervals rt → l'.Intervals rt

namespace Moves
variable {rt : Runtime} {ordered other : Prop} {l l' l'' : Ledger}

theorem refl (dated : l.Dated) : Moves rt ordered l l := ⟨dated, .refl, fun _ => id⟩

theorem trans (first : Moves rt ordered l l') (second : Moves rt ordered l' l'') : Moves rt ordered l l'' :=
  ⟨second.dated, first.keeps.trans second.keeps,
    fun holds before => second.intervals holds (first.intervals holds before)⟩

theorem weaken (moves : Moves rt other l l') (implied : ordered → other) : Moves rt ordered l l' :=
  ⟨moves.dated, moves.keeps, fun holds => moves.intervals (implied holds)⟩

theorem insert (dated : l.Dated) {g : Fact} (next : g.factId = l.nextFactId)
    (ended : g.validTo.isSome = true → g.invalidAt.isSome = true)
    (replaced : g.supersededBy.isSome = true → g.invalidAt.isSome = true) (interval : g.Interval rt) :
    Moves rt ordered l (l.insert g) where
  dated := {
    toKeyed := dated.toKeyed.insert next
    ended f hf := by
      rcases List.mem_append.mp hf with hf | hf
      · exact dated.ended f hf
      · exact List.mem_singleton.mp hf ▸ ended
    replaced f hf := by
      rcases List.mem_append.mp hf with hf | hf
      · exact dated.replaced f hf
      · exact List.mem_singleton.mp hf ▸ replaced }
  keeps := by
    refine ⟨Nat.le_succ _, fun f hf => ?_⟩
    rcases List.mem_append.mp hf with hf | hf
    · exact .inl ⟨f, hf, rfl, fun _ => rfl⟩
    · rw [List.mem_singleton.mp hf, next]
      exact .inr le_rfl
  intervals _ before f hf := by
    rcases List.mem_append.mp hf with hf | hf
    · exact before f hf
    · exact List.mem_singleton.mp hf ▸ interval

theorem update {m : Fact → Fact} (keyed : l'.Keyed) (facts : l'.facts = l.facts.map m)
    (next : l'.nextFactId = l.nextFactId) (ids : ∀ f, (m f).factId = f.factId)
    (starts : ∀ f, (m f).validFrom = f.validFrom)
    (ended : ∀ f ∈ l.facts, (m f).validTo.isSome = true → (m f).invalidAt.isSome = true)
    (replaced : ∀ f ∈ l.facts, (m f).supersededBy.isSome = true → (m f).invalidAt.isSome = true)
    (ends : ∀ f ∈ l.facts, (m f).validTo = f.validTo ∨
      f.validTo = none ∧ (ordered → f.StartsBy rt (m f).validTo)) : Moves rt ordered l l' where
  dated := {
    toKeyed := keyed
    ended g hg := by
      rw [facts] at hg
      obtain ⟨f, hf, rfl⟩ := List.mem_map.mp hg
      exact ended f hf
    replaced g hg := by
      rw [facts] at hg
      obtain ⟨f, hf, rfl⟩ := List.mem_map.mp hg
      exact replaced f hf }
  keeps := by
    refine ⟨next.ge, fun g hg => ?_⟩
    rw [facts] at hg
    obtain ⟨f, hf, rfl⟩ := List.mem_map.mp hg
    refine .inl ⟨f, hf, ids f, fun some => ?_⟩
    rcases ends f hf with same | ⟨endless, -⟩
    · exact same
    · exact absurd endless some
  intervals holds before g hg := by
    rw [facts] at hg
    obtain ⟨f, hf, rfl⟩ := List.mem_map.mp hg
    intro start stop began stopped
    rw [starts] at began
    rcases ends f hf with same | ⟨-, late⟩
    · exact before f hf start stop began (same ▸ stopped)
    · exact late holds start stop began stopped

theorem join (moves : Moves rt ordered l l') {m : Member} : Moves rt ordered l (l'.join m) :=
  ⟨⟨moves.dated.toKeyed.join, moves.dated.ended, moves.dated.replaced⟩,
    ⟨moves.keeps.next, moves.keeps.traced⟩, moves.intervals⟩

theorem retire (dated : l.Dated) {f : Fact} {h : Fact → Fact} (mem : f ∈ l.facts)
    (ids : ∀ f, (h f).factId = f.factId) (starts : ∀ f, (h f).validFrom = f.validFrom)
    (gone : (h f).invalidAt.isSome = true)
    (ends : (h f).validTo = f.validTo ∨ f.validTo = none ∧ (ordered → f.StartsBy rt (h f).validTo)) :
    Moves rt ordered l (l.retire f.factId h) := by
  have here {g : Fact} (hg : g ∈ l.facts) (same : decide (g.factId = f.factId) = true) : g = f :=
    Table.uniqueEq dated.factIds hg mem (of_decide_eq_true same)
  refine update (m := fun g => if decide (g.factId = f.factId) = true then h g else g)
    (dated.toKeyed.amend ids) rfl rfl (fun g => ?_) (fun g => ?_) (fun g hg => ?_) (fun g hg => ?_)
    fun g hg => ?_
  · split
    · exact ids g
    · rfl
  · split
    · exact starts g
    · rfl
  · split
    · rename_i same
      rw [here hg same]
      exact fun _ => gone
    · exact dated.ended g hg
  · split
    · rename_i same
      rw [here hg same]
      exact fun _ => gone
    · exact dated.replaced g hg
  · split
    · rename_i same
      rw [here hg same]
      exact ends
    · exact .inl rfl

theorem openConflict (dated : l.Dated) (row : Conflict) (factIds : List Nat) {mark : Fact → Fact}
    (next : row.conflictId = l.nextConflictId) (marks : ∀ f, SameDates f (mark f))
    (valid : ∀ f, (mark f).invalidAt = f.invalidAt) :
    Moves rt ordered l (l.openConflict row factIds mark) := by
  have whole (f : Fact) : SameDates f (if factIds.contains f.factId = true then mark f else f) ∧
      (if factIds.contains f.factId = true then mark f else f).invalidAt = f.invalidAt := by
    split
    · exact ⟨marks f, valid f⟩
    · exact ⟨⟨rfl, rfl, rfl, rfl, rfl⟩, rfl⟩
  refine update (m := fun g => if factIds.contains g.factId = true then mark g else g)
    (dated.toKeyed.openConflict row factIds next fun f => (marks f).factId) rfl rfl
    (fun g => (whole g).1.factId) (fun g => (whole g).1.validFrom) (fun g hg => ?_) (fun g hg => ?_)
    fun g _ => .inl (whole g).1.validTo
  · rw [(whole g).2, (whole g).1.validTo]
    exact dated.ended g hg
  · rw [(whole g).2, (whole g).1.supersededBy]
    exact dated.replaced g hg

theorem resolve (dated : l.Dated) {conflictId winner : Nat} {begins : Option String}
    {resolvedBy reason resolvedAt : String}
    (late : ordered → ∀ f ∈ l.facts, f.invalidAt = none → f.conflictGroup = some conflictId →
      f.StartsBy rt begins) :
    Moves rt ordered l (l.resolve conflictId winner begins resolvedBy reason resolvedAt) := by
  refine update (Ledger.resolveKeyed dated.toKeyed) rfl rfl (fun _ => resolvedId) (fun f => ?_)
    (fun f hf => ?_) (fun f hf => ?_) fun f hf => ?_
  · unfold Fact.resolved
    split
    · rfl
    · split
      · rfl
      · rfl
  · unfold Fact.resolved
    split
    · exact dated.ended f hf
    · split
      · exact fun _ => rfl
      · exact dated.ended f hf
  · unfold Fact.resolved
    split
    · exact dated.replaced f hf
    · split
      · exact fun _ => rfl
      · exact dated.replaced f hf
  · unfold Fact.resolved
    split
    · exact .inl rfl
    · split
      · rename_i loses
        simp only [Fact.losesTo, Bool.and_eq_true, decide_eq_true_eq, Option.isNone_iff_eq_none] at loses
        refine .inr ⟨?_, fun holds => late holds f hf loses.2 loses.1.2⟩
        cases ends : f.validTo with
        | none => rfl
        | some stop =>
          have gone := dated.ended f hf (by rw [ends]; rfl)
          rw [loses.2] at gone
          cases gone
      · exact .inl rfl

end Moves

/-! ## Writes -/

section Writes
variable {ordered : Prop} {l l' : Ledger} {request : WriteRequest} {clock : Clock}

theorem endlessInterval {f : Fact} (endless : f.validTo = none) : f.Interval rt := by
  intro start stop _ stopped
  rw [endless] at stopped
  cases stopped

theorem Moves.untyped (dated : l.Dated) {extracted : Option ExtractedTypedFields} {found : UntypedMatch}
    {result : FactWriteResult} (effect : UntypedEffect l request extracted clock found l' result) :
    Moves rt ordered l l' := by
  cases effect with
  | duplicate => exact .refl dated
  | fresh =>
    obtain ⟨id, unreplaced, endless, -⟩ := storedDates request extracted l.nextFactId clock.insertedAt
    refine .insert dated id (fun ended => ?_) (fun replaced => ?_) (endlessInterval endless)
    · rw [endless] at ended
      cases ended
    · rw [unreplaced] at replaced
      cases replaced
  | @dispute rival _ opened =>
    obtain ⟨-, subject, predicate, detail, f, -, -, -, -, -, -, rfl⟩ := opened
    have opens : Moves rt ordered l (l.openConflict (.detected l.nextConflictId request.scope subject
        predicate clock.recordedAt detail) [rival.factId] (Fact.disputeAs l.nextConflictId subject predicate)) :=
      .openConflict dated _ _ rfl (fun _ => ⟨rfl, rfl, rfl, rfl, rfl⟩) fun _ => rfl
    exact (opens.trans (.insert opens.dated rfl (fun ended => by cases ended)
      (fun replaced => by cases replaced) (endlessInterval rfl))).join
  | @wins candidate f mem id =>
    rw [← id]
    have retires : Moves rt ordered l (l.retire f.factId (Fact.supersede clock.recordedAt l.nextFactId)) :=
      .retire dated mem (fun _ => rfl) (fun _ => rfl) rfl (.inl rfl)
    exact retires.trans (.insert retires.dated rfl nofun nofun (endlessInterval rfl))
  | loses => exact .insert dated rfl nofun (fun _ => rfl) (endlessInterval rfl)

theorem Moves.superseded (dated : l.Dated) {survivor : Nat} {now : String}
    (effect : Superseded l request survivor now l') : Moves rt ordered l l' := by
  cases effect with
  | unasked => exact .refl dated
  | @retired old f g asked apart mem id =>
    rw [← id]
    exact .retire dated mem (fun _ => rfl) (fun _ => rfl) rfl (.inl rfl)

theorem builtOrdered {c d : StateCandidate} (h : c.postInit rt = .ok d) {start stop : Int}
    (began : parseClock rt c.validFrom = some start) (ends : parseClock rt c.validTo = some stop) :
    start < stop := by
  simp only [StateCandidate.postInit, bindOk, ensureOk] at h
  obtain ⟨_, -, _, -, _, -, _, -, _, -, _, -, _, -, -, -, from', first, to', last, done⟩ := h
  rw [parseClockOf first] at began
  rw [parseClockOf last] at ends
  subst began ends
  simp only [bindOk, ensureOk, decide_eq_true_eq] at done
  obtain ⟨-, ordered, -⟩ := done
  exact ordered

theorem effectiveOrdered {c effective : StateCandidate} (given : c.postInit rt = .ok c)
    (h : effectiveCandidate rt request c = .ok effective) {start stop : Int}
    (began : parseClock rt effective.validFrom = some start)
    (ends : parseClock rt effective.validTo = some stop) : start < stop := by
  unfold effectiveCandidate at h
  split at h
  · obtain ⟨from', to', -, -⟩ := builtCandidate h
    rw [from'] at began
    rw [to'] at ends
    exact builtOrdered h began ends
  · cases h
    exact builtOrdered given began ends

/-- A typed write that settles a dispute starts no earlier than any party still standing. -/
def SettlesInOrder (rt : Runtime) (policy : MemoryPolicy) (context : ConnectionContext) (l : Ledger)
    (request : WriteRequest) (candidate : Option StateCandidate) : Prop :=
  ∀ slot effective, verdict rt policy context l request candidate = .ok (.typed slot effective) →
    slot.action = .supersede → slot.targetFactId = none →
    ∀ f ∈ l.facts, f.invalidAt = none → (∃ k ∈ l.groupsOf slot.currentFactIds, f.conflictGroup = some k) →
      f.StartsBy rt effective.validFrom

theorem aimedDecision {policy : MemoryPolicy} {context : ConnectionContext} {decided slot : SlotDecision}
    {target : Nat} (h : slot = resolutionAuthority policy context l request decided)
    (action : slot.action = .supersede) (aimed : slot.targetFactId = some target) : slot = decided := by
  unfold resolutionAuthority at h
  dsimp only at h
  split at h
  · -- an authorized correction settles the whole dispute
    split at h
    · rw [h] at action
      cases action
    · rw [h] at aimed
      cases aimed
  · split at h
    · rw [h] at action
      cases action
    · exact h

theorem replacedStarts {policy : MemoryPolicy} {context : ConnectionContext} {c effective : StateCandidate}
    {slot : SlotDecision} {f : Fact} (dated : l.Dated) (given : c.postInit rt = .ok c)
    (valid : validateStateCandidate request (some c) = .ok ())
    (judged : verdict rt policy context l request (some c) = .ok (.typed slot effective))
    (action : slot.action = .supersede) (aimed : slot.targetFactId = some f.factId) (mem : f ∈ l.facts) :
    f.StartsBy rt effective.validFrom := by
  obtain ⟨c', decided, same, made, -, slotted, final, -⟩ := verdictTyped judged
  cases same
  have direct := aimedDecision final action aimed
  subst direct
  obtain ⟨shape, built⟩ := effectiveSource given made
  have kind : effective.memoryKind = "state" := by
    simp only [validateStateCandidate, bindOk, ensureOk, decide_eq_true_eq] at valid
    obtain ⟨-, kind, -⟩ := valid
    rw [shape]
    exact kind
  cases decideSource built kind slotted with
  | free => cases action
  | contested _ done =>
    rcases (decideContestedSource done).2.2 with ⟨-, wide⟩ | ⟨other, -⟩
    · rw [aimed] at wide
      cases wide
    · rw [action] at other
      cases other
  | restated => cases action
  | apart => cases action
  | @against existing rest _ _ _ meets done =>
    have target : some f.factId = some existing.factId := by
      rcases (decideAgainstSource done).2.2 with ⟨-, here⟩ | ⟨other, -⟩
      · exact aimed.symm.trans here
      · rw [action] at other
        cases other
    have equal := Table.uniqueEq dated.factIds mem (overlappingSource meets).1 (Option.some.inj target)
    subst equal
    have notOlder := (againstAge done action).1
    simp only [decideAgainst, bindOk] at done
    obtain ⟨time, parsed, held, parsed', -⟩ := done
    intro start stop began begins
    rw [parseClockOf parsed'] at began
    rw [parseClockOf parsed] at begins
    obtain ⟨new, same, later⟩ := notOlder start (began ▸ boundParsed parsed')
    rw [boundParsed parsed, begins] at same
    exact Option.some.inj same ▸ later

theorem Moves.typed {policy : MemoryPolicy} {context : ConnectionContext} {c effective : StateCandidate}
    {slot : SlotDecision} {confidence : Option Rat} (dated : l.Dated) (given : c.postInit rt = .ok c)
    (valid : validateStateCandidate request (some c) = .ok ())
    (judged : verdict rt policy context l request (some c) = .ok (.typed slot effective))
    (effect : StateEffect rt l context request slot effective confidence clock l') :
    Moves rt (SettlesInOrder rt policy context l request (some c)) l l' := by
  have made : effectiveCandidate rt request c = .ok effective := by
    obtain ⟨c', decided, same, made, -⟩ := verdictTyped judged
    cases same
    exact made
  -- the new fact: a bounded window closes it at once
  have added {ordered : Prop} {m : Ledger} (before : m.Dated) {group : Option Nat} (next : m.nextFactId = l.nextFactId) :
      Moves rt ordered m (m.insert (request.typed effective group confidence l.nextFactId clock)) := by
    refine .insert before next.symm (fun ended => ?_) (fun replaced => ?_) fun start stop began ends =>
      (effectiveOrdered given made began ends).le
    · simp only [WriteRequest.typed, Fact.persistState] at ended ⊢
      rw [ended]
      rfl
    · cases replaced
  cases effect with
  | evidence => exact .refl dated
  | add => exact added dated rfl
  | @replace target f action aimed mem id =>
    rw [← id] at aimed ⊢
    have starts := replacedStarts dated given valid judged action aimed mem
    have retires : Moves rt (SettlesInOrder rt policy context l request (some c)) l (l.retire f.factId
        (Fact.outdate clock.recordedAt effective.validFrom l.nextFactId)) := by
      refine .retire dated mem (fun _ => rfl) (fun _ => rfl) rfl ?_
      simp only [Fact.outdate, Fact.close]
      cases own : f.validTo with
      | none => exact .inr ⟨rfl, fun _ => starts⟩
      | some stop => exact .inl rfl
    exact retires.trans (added retires.dated rfl)
  | @dispute detail =>
    have opens : Moves rt (SettlesInOrder rt policy context l request (some c)) l (l.openConflict
        (.detected l.nextConflictId (Text.strip slot.scope) (Text.strip slot.subjectKey)
          (Text.strip slot.predicateKey) clock.recordedAt detail) slot.currentFactIds
        (Fact.dispute l.nextConflictId)) :=
      .openConflict dated _ _ rfl (fun _ => ⟨rfl, rfl, rfl, rfl, rfl⟩) fun _ => rfl
    exact (opens.trans (added opens.dated rfl)).join
  | join => exact (added dated rfl).join
  | @settle conflictId _ _ _ action group wide _ _ _ _ _ _ resolved =>
    have joins : Moves rt (SettlesInOrder rt policy context l request (some c)) l
        ((l.insert (request.typed effective (some conflictId) confidence l.nextFactId clock)).join
          ⟨conflictId, l.nextFactId⟩) := (added dated rfl).join
    obtain ⟨row, w, resolves, -, -, rfl, -⟩ := resolveStateConflictSource joins.dated.toKeyed resolved
    have own := freshMember dated.toKeyed resolves.factMem resolves.factId
    refine joins.trans (.resolve joins.dated fun ordered f hf valid disputed => ?_)
    rw [own]
    rcases List.mem_append.mp hf with hf | hf
    · exact ordered slot effective judged action wide f hf valid
        ⟨conflictId, group ▸ List.mem_cons_self, disputed⟩
    · rw [List.mem_singleton.mp hf]
      intro start stop began begins
      exact (Option.some.inj (began.symm.trans begins)).le

theorem WriteEffect.moves {svc : WriteService} {context : ConnectionContext} {s : Store}
    {candidate : Option StateCandidate} {extracted : Option ExtractedTypedFields}
    {query : Option (List Rat)} (dated : s.toLedger.Dated) (built : ∀ c ∈ candidate, c.postInit rt = .ok c)
    (valid : validateStateCandidate request candidate = .ok ())
    (effect : WriteEffect rt svc context clock s request candidate extracted query l) :
    Moves rt (SettlesInOrder rt svc.policy context s.toLedger request candidate) s.toLedger l := by
  cases effect with
  | same => exact .refl dated
  | @untyped _ l₁ _ _ _ _ _ _ effect superseded =>
    have written : Moves rt (SettlesInOrder rt svc.policy context s.toLedger request candidate) s.toLedger l₁ :=
      .untyped dated effect
    exact written.trans (.superseded written.dated superseded)
  | @typed c _ _ _ _ given judged effect =>
    subst given
    exact .typed dated (built c (Option.mem_some_self c)) valid judged effect

end Writes

/-! ## Operations -/

section Operations
variable {svc : WriteService} {effective : ConnectionContext} {s t : Store}

theorem stepMoves {timed : TimedWrite rt} {query : Option (List Rat)} {outcome : WriteOutcome}
    (authorized : svc.policy.authorizeContext rt svc.legacyAuthorized effective = .ok effective)
    (h : batchStep rt svc effective s (timed, query) = .ok (t, outcome)) (dated : s.toLedger.Dated) :
    Moves rt (SettlesInOrder rt svc.policy effective s.toLedger timed.item.request timed.item.candidate)
      s.toLedger t.toLedger := by
  obtain ⟨extracted, valid, -, done⟩ := batchStepSource authorized h
  exact (transactEffect dated.toKeyed done).moves dated timed.item.candidateBuilt valid

/-- The winner of a dispute starts no earlier than any other party still standing. -/
def Ledger.ResolvesInOrder (rt : Runtime) (l : Ledger) (conflictId factId : Nat) : Prop :=
  ∀ w ∈ l.facts, w.factId = factId → ∀ f ∈ l.facts, f.invalidAt = none →
    f.conflictGroup = some conflictId → f.StartsBy rt w.validFrom

def Operation.InOrder (s : Store) (o : Operation rt) : Prop :=
  o.WritesMeet (fun svc context s timed _ =>
    SettlesInOrder rt svc.policy context s.toLedger timed.item.request timed.item.candidate) s ∧
  match o with
  | .resolveConflict _ _ conflictId factId _ _ _ => s.toLedger.ResolvesInOrder rt conflictId factId
  | _ => True

theorem eraseMoves {ordered : Prop} {l : Ledger} (dated : l.Dated) {factId : Nat}
    {requestedBy erasedAt : String} {cited lonely : List Nat} :
    Moves rt ordered l (l.erase factId requestedBy erasedAt cited lonely) := by
  have valid (f : Fact) (gone : f.invalidAt.isSome = true) :
      (f.erased factId erasedAt cited).invalidAt.isSome = true := by
    unfold Fact.erased
    dsimp only
    split
    · rfl
    · split
      · simp [Fact.scrub]
      · exact gone
  refine .update (Ledger.eraseKeyed dated.toKeyed) rfl rfl (fun f => (erasedDates f).factId)
    (fun f => (erasedDates f).validFrom) (fun f hf => ?_) (fun f hf => ?_)
    fun f _ => .inl (erasedDates f).validTo
  · rw [(erasedDates f).validTo]
    exact fun some => valid f (dated.ended f hf some)
  · rw [(erasedDates f).supersededBy]
    exact fun some => valid f (dated.replaced f hf some)

structure DatedAs (f g : Fact) : Prop where
  factId : g.factId = f.factId
  validFrom : g.validFrom = f.validFrom
  validTo : g.validTo = f.validTo
  invalidAt : g.invalidAt = f.invalidAt
  replaced : g.supersededBy.isSome = true → f.supersededBy.isSome = true

theorem followDated (loser survivor : Nat) {f g : Fact} (same : DatedAs f g) :
    DatedAs f (g.follow loser survivor) := by
  have rewritten := rewriteSourcesDates loser survivor g
  obtain ⟨-, start, stop, -, -⟩ := redirectSource loser survivor (g.rewriteSources loser survivor)
  obtain ⟨id, -, invalid, -, successor⟩ := followSource loser survivor g
  refine ⟨id.trans same.factId, start.trans (rewritten.validFrom.trans same.validFrom),
    stop.trans (rewritten.validTo.trans same.validTo), invalid.trans same.invalidAt, fun some => ?_⟩
  rw [successor] at some
  split at some
  · rename_i pointed
    exact same.replaced (by rw [pointed]; rfl)
  · exact same.replaced some

theorem mergeTraced {plan : MergePlan} : ∀ g ∈ (applyMerge s plan).facts, ∃ f ∈ s.facts, DatedAs f g := by
  refine mergeKeeps (P := fun t => ∀ g ∈ t.facts, ∃ f ∈ s.facts, DatedAs f g) (fun c _ t before g hg => ?_)
    (fun c _ loser _ t before g hg => ?_) fun f hf => ⟨f, hf, rfl, rfl, rfl, rfl, id⟩
  · obtain ⟨old, hold, rfl⟩ := Table.memAmend.mp hg
    obtain ⟨f, hf, same⟩ := before old hold
    refine ⟨f, hf, ?_⟩
    split
    · exact ⟨same.factId, same.validFrom, same.validTo, same.invalidAt, same.replaced⟩
    · exact same
  · obtain ⟨old, hold, -, rfl⟩ := followedFacts.mp hg
    obtain ⟨f, hf, same⟩ := before old hold
    exact ⟨f, hf, followDated loser c.survivorId same⟩

theorem mergeMoves {ordered : Prop} {plan : MergePlan} (dated : s.toLedger.Dated) :
    Moves rt ordered s.toLedger (applyMerge s plan).toLedger where
  dated := {
    toKeyed := (mergingApplied plan dated.toKeyed).keyed
    ended g hg some := by
      obtain ⟨f, hf, same⟩ := mergeTraced g hg
      rw [same.invalidAt]
      exact dated.ended f hf (same.validTo ▸ some)
    replaced g hg some := by
      obtain ⟨f, hf, same⟩ := mergeTraced g hg
      rw [same.invalidAt]
      exact dated.replaced f hf (same.replaced some) }
  keeps := by
    refine ⟨(mergingApplied plan dated.toKeyed).next.ge, fun g hg => ?_⟩
    obtain ⟨f, hf, same⟩ := mergeTraced g hg
    exact .inl ⟨f, hf, same.factId, fun _ => same.validTo⟩
  intervals _ before g hg := by
    obtain ⟨f, hf, same⟩ := mergeTraced g hg
    intro start stop began ends
    exact before f hf start stop (same.validFrom ▸ began) (same.validTo ▸ ends)

theorem performMoves {o : Operation rt} (done : o.perform s = .ok t) (dated : s.toLedger.Dated) :
    Moves rt (o.InOrder s) s.toLedger t.toLedger := by
  cases o with
  | write svc context timed =>
    simp only [Operation.perform, bindOk, Prod.exists] at done
    obtain ⟨u, outcome, written, last⟩ := done
    cases last
    obtain ⟨effective, query, granted, prepared, stepped⟩ := writeStep written
    exact (stepMoves (authorizeTwice granted).2 stepped dated).weaken
      fun meets => meets.1 effective query granted prepared
  | writeBatch svc context writes rollbackIf completes =>
    have whole : Moves rt False s.toLedger t.toLedger :=
      batchKeeps (P := fun u => Moves rt False s.toLedger u.toLedger) (C := fun _ _ _ _ _ => True)
        (fun authorized _ h before => before.trans ((stepMoves authorized h before.dated).weaken False.elim))
        id meetsAlways done (.refl dated)
    refine ⟨whole.dated, whole.keeps, fun meets formed => ?_⟩
    exact (batchKeeps (P := fun u => u.toLedger.Dated ∧ u.toLedger.Intervals rt)
      (fun authorized ordered h before => by
        have moves := stepMoves authorized h before.1
        exact ⟨moves.dated, moves.intervals ordered before.2⟩)
      id meets.1 done ⟨dated, formed⟩).2
  | resolveConflict svc context conflictId factId reason resolvedAt queuedAt =>
    simp only [Operation.perform, bindOk, Prod.exists] at done
    obtain ⟨effective, -, u, resolution, resolved, last⟩ := done
    cases last
    obtain ⟨clients, sessions, resolutions, jobs, l, settled, rfl⟩ := resolveConflictSource resolved
    obtain ⟨row, w, resolves, -, -, rfl, -⟩ := resolveStateConflictSource dated.toKeyed settled
    exact .resolve dated fun meets f hf => meets.2 w resolves.factMem resolves.factId f hf
  | eraseFact factId requestedBy reason erasedAt =>
    simp only [Operation.perform, bindOk, Prod.exists] at done
    obtain ⟨u, report, erased, last⟩ := done
    cases last
    obtain ⟨insights, conflicts, linked, erased, -⟩ := eraseFactSource erased
    obtain ⟨cited, lonely, left, -, -⟩ := eraseLedgerSource dated.toKeyed erased
    rw [left]
    exact eraseMoves dated
  | mergeClusters plan least most fraction =>
    simp only [Operation.perform, executeMerge, bindOk] at done
    obtain ⟨-, -, -, -, last⟩ := done
    cases last
    exact mergeMoves dated
  | storeEmbedding =>
    cases done
    exact .refl dated

end Operations

/-! ## The plugin and the migration -/

/-- The replacement starts no earlier than a fact it ends. -/
def Ledger.SupersedesInOrder (rt : Runtime) (l : Ledger) (old new : Nat) : Prop :=
  l.heuristicProtected old = false → ∀ f ∈ l.facts, f.factId = old → f.invalidAt = none → f.validTo = none →
    f.StartsBy rt ((l.fact new).bind Fact.validFrom)

/-- No successor of an open-ended fact starts before it. -/
def SucceedsInOrder (rt : Runtime) (facts : List Fact) : Prop :=
  ∀ f ∈ facts, f.supersededBy.isSome = true → f.validTo = none → f.StartsBy rt (f.successorFrom facts)

section Dates
variable {l : Ledger}

theorem endlessCurrent (dated : l.Dated) {f : Fact} (hf : f ∈ l.facts) (valid : f.invalidAt = none) :
    f.validTo = none := by
  cases ends : f.validTo with
  | none => rfl
  | some stop =>
    have gone := dated.ended f hf (by rw [ends]; rfl)
    rw [valid] at gone
    cases gone

theorem supersedeMoves (dated : l.Dated) {old new : Nat} {now : String} :
    Moves rt (l.SupersedesInOrder rt old new) l (supersede l old new now).1 := by
  unfold supersede
  split
  · exact .refl dated
  · rename_i open'
    have whole (f : Fact) : (if (decide (f.factId = old) && f.invalidAt.isNone) = true
        then f.outdate now ((l.fact new).bind Fact.validFrom) new else f).factId = f.factId ∧
      (if (decide (f.factId = old) && f.invalidAt.isNone) = true
        then f.outdate now ((l.fact new).bind Fact.validFrom) new else f).validFrom = f.validFrom := by
      split
      · exact ⟨rfl, rfl⟩
      · exact ⟨rfl, rfl⟩
    refine .update (m := fun f => if (decide (f.factId = old) && f.invalidAt.isNone) = true
      then f.outdate now ((l.fact new).bind Fact.validFrom) new else f)
      (dated.toKeyed.amend fun _ => rfl) rfl rfl (fun f => (whole f).1) (fun f => (whole f).2)
      (fun f hf => ?_) (fun f hf => ?_) fun f hf => ?_
    · split
      · exact fun _ => rfl
      · exact dated.ended f hf
    · split
      · exact fun _ => rfl
      · exact dated.replaced f hf
    · split
      · rename_i hit
        simp only [Bool.and_eq_true, decide_eq_true_eq, Option.isNone_iff_eq_none] at hit
        have endless := endlessCurrent dated hf hit.2
        refine .inr ⟨endless, fun ordered => ?_⟩
        simp only [Fact.outdate, Fact.close, endless]
        exact ordered (by simpa using open') f hf hit.1 hit.2 endless
      · exact .inl rfl

def Fact.backfilled (facts : List Fact) (f : Fact) : Fact :=
  let f := if (f.supersededBy.isSome && f.expiredAt.isNone && f.invalidAt.isSome) = true
    then { f with expiredAt := f.invalidAt } else f
  if (f.supersededBy.isSome && f.validTo.isNone && (f.successorFrom facts).isSome) = true
    then { f with validTo := f.successorFrom facts } else f

theorem backfillMap {facts : List Fact} :
    backfillBitemporalAxes facts = facts.map (Fact.backfilled facts) := Table.amendAmend

theorem backfilledSource (facts : List Fact) (f : Fact) :
    (f.backfilled facts).factId = f.factId ∧ (f.backfilled facts).validFrom = f.validFrom ∧
      (f.backfilled facts).invalidAt = f.invalidAt ∧ (f.backfilled facts).supersededBy = f.supersededBy ∧
      ((f.backfilled facts).validTo = f.validTo ∨ f.supersededBy.isSome = true ∧ f.validTo = none ∧
        (f.backfilled facts).validTo = f.successorFrom facts) := by
  obtain ⟨expired, same⟩ : ∃ expired, (if (f.supersededBy.isSome && f.expiredAt.isNone && f.invalidAt.isSome) = true
      then { f with expiredAt := f.invalidAt } else f) = { f with expiredAt := expired } := by
    split
    · exact ⟨_, rfl⟩
    · exact ⟨f.expiredAt, rfl⟩
  unfold Fact.backfilled
  rw [same]
  dsimp only
  split
  · rename_i hit
    simp only [Bool.and_eq_true, Option.isNone_iff_eq_none] at hit
    exact ⟨rfl, rfl, rfl, rfl, .inr ⟨hit.1.1, hit.1.2, rfl⟩⟩
  · exact ⟨rfl, rfl, rfl, rfl, .inl rfl⟩

theorem backfillMoves (dated : l.Dated) :
    Moves rt (SucceedsInOrder rt l.facts) l { l with facts := backfillBitemporalAxes l.facts } := by
  have ids (f : Fact) : (f.backfilled l.facts).factId = f.factId := (backfilledSource l.facts f).1
  have keyed : ({ l with facts := backfillBitemporalAxes l.facts } : Ledger).Keyed := by
    have all : Table.Unique Fact.factId (l.facts.map (Fact.backfilled l.facts)) := by
      simpa only [Table.Unique, List.map_map, Function.comp_def, ids] using dated.factIds
    rw [← backfillMap] at all
    refine ⟨all, fun g hg => ?_, dated.conflictIds, dated.conflictBound⟩
    rw [backfillMap] at hg
    obtain ⟨f, hf, rfl⟩ := List.mem_map.mp hg
    rw [ids]
    exact dated.factBound f hf
  refine .update (m := Fact.backfilled l.facts) keyed backfillMap rfl ids
    (fun f => (backfilledSource l.facts f).2.1) (fun f hf => ?_) (fun f hf => ?_) fun f hf => ?_
  · obtain ⟨-, -, valid, -, same | ⟨replaced, -, -⟩⟩ := backfilledSource l.facts f
    · rw [valid, same]
      exact dated.ended f hf
    · rw [valid]
      exact fun _ => dated.replaced f hf replaced
  · obtain ⟨-, -, valid, successor, -⟩ := backfilledSource l.facts f
    rw [valid, successor]
    exact dated.replaced f hf
  · obtain ⟨-, -, -, -, same | ⟨replaced, endless, ends⟩⟩ := backfilledSource l.facts f
    · exact .inl same
    · rw [ends]
      exact .inr ⟨endless, fun ordered => ordered f hf replaced endless⟩

end Dates

/-! ## Runs -/

/-- What may happen to a store: an operation of the service, a supersession of the plugin, or a
migration. -/
inductive DatedStep (rt : Runtime) where
  | operation (o : Operation rt)
  | supersede (oldFactId newFactId : Nat) (now : String)
  | backfill

namespace DatedStep

def perform (s : Store) : DatedStep rt → Except Raised Store
  | .operation o => o.perform s
  | .supersede old new now => .ok { s with toLedger := (Enfold.supersede s.toLedger old new now).1 }
  | .backfill => .ok { s with facts := backfillBitemporalAxes s.facts }

/-- No fact the step ends is ended where an earlier one starts. -/
def InOrder (s : Store) : DatedStep rt → Prop
  | .operation o => o.InOrder s
  | .supersede old new _ => s.toLedger.SupersedesInOrder rt old new
  | .backfill => SucceedsInOrder rt s.facts

end DatedStep

/-- A store from before the world-time ends: no fact has one, and what was superseded is invalid. -/
structure Store.Legacy (s : Store) : Prop extends s.toLedger.Keyed where
  endless : ∀ f ∈ s.facts, f.validTo = none
  replaced : ∀ f ∈ s.facts, f.supersededBy.isSome = true → f.invalidAt.isSome = true

theorem emptyLegacy : Store.empty.Legacy :=
  ⟨soundEmpty.toKeyed, fun _ hf => absurd hf List.not_mem_nil, fun _ hf => absurd hf List.not_mem_nil⟩

section Runs
variable {s t start : Store}

theorem Store.Legacy.dated (legacy : s.Legacy) : s.toLedger.Dated where
  toKeyed := legacy.toKeyed
  ended f hf some := by
    rw [legacy.endless f hf] at some
    cases some
  replaced := legacy.replaced

theorem datedStepMoves {step : DatedStep rt} (done : step.perform s = .ok t) (dated : s.toLedger.Dated) :
    Moves rt (step.InOrder s) s.toLedger t.toLedger := by
  cases step with
  | operation o => exact performMoves done dated
  | supersede old new now =>
    cases done
    exact supersedeMoves dated
  | backfill =>
    cases done
    exact backfillMoves dated

theorem attemptMoves (step : DatedStep rt) (dated : s.toLedger.Dated) :
    Moves rt (step.InOrder s) s.toLedger (Run.attempt DatedStep.perform s step).toLedger :=
  Run.attemptInvariant (P := fun t => Moves rt (step.InOrder s) s.toLedger t.toLedger)
    (fun _ done => datedStepMoves done dated) (.refl dated)

theorem runDated {steps : List (DatedStep rt)} (dated : start.toLedger.Dated) :
    (Run.run DatedStep.perform start steps).toLedger.Dated :=
  Run.invariant (P := fun s : Store => s.toLedger.Dated)
    (fun _ _ _ done dated => (datedStepMoves done dated).dated) dated

/-- A run from a legacy store never overwrites a stored end; and as long as none of its steps ends a fact
where an earlier one starts, no interval ends before it starts. -/
theorem intervalsKept (legacy : start.Legacy) (pre : List (DatedStep rt)) (step : DatedStep rt) :
    (∀ f ∈ (Run.run DatedStep.perform start pre).facts, f.validTo ≠ none →
      ∀ g ∈ (Run.run DatedStep.perform start (pre ++ [step])).facts, g.factId = f.factId →
        g.validTo = f.validTo) ∧
    (Run.Meets DatedStep.perform DatedStep.InOrder start (pre ++ [step]) →
      ∀ f ∈ (Run.run DatedStep.perform start (pre ++ [step])).facts, f.Interval rt) := by
  have dated : (Run.run DatedStep.perform start pre).toLedger.Dated := runDated legacy.dated
  refine ⟨fun f hf some g hg id => ?_, fun meets => ?_⟩
  · rw [Run.runAppend] at hg
    exact (attemptMoves step dated).keeps.ends dated.toKeyed hf some hg id
  · have formed := Run.invariantWhen (P := fun s : Store => s.toLedger.Dated ∧ s.toLedger.Intervals rt)
      (fun _ _ _ ordered done before => by
        have moves := datedStepMoves done before.1
        exact ⟨moves.dated, moves.intervals ordered before.2⟩)
      meets ⟨legacy.dated, fun f hf => endlessInterval (legacy.endless f hf)⟩
    exact formed.2

end Runs
namespace Example

def earlierWins : List (DatedStep .plain) :=
  [.operation (.write arbiter caller lima), .operation (.write arbiter caller oslo),
    .operation (.resolveConflict arbiter caller 1 1 "Lima it is" "2026-01-04" "2026-01-04")]

theorem turnedAround : ∃ f ∈ (Run.run DatedStep.perform Store.empty earlierWins).facts, ¬ f.Interval .plain := by
  have turned : (Run.run DatedStep.perform Store.empty earlierWins).facts.any (fun f =>
      (parseClock .plain f.validFrom).any fun start => (parseClock .plain f.validTo).any (· < start)) = true := by
    decide +kernel
  obtain ⟨f, hf, turned⟩ := List.any_eq_true.mp turned
  obtain ⟨start, began, turned⟩ := (Option.any_eq_true _ _).mp turned
  obtain ⟨stop, ends, turned⟩ := (Option.any_eq_true _ _).mp turned
  exact ⟨f, hf, fun formed => absurd (formed start stop began ends) (not_le.mpr (of_decide_eq_true turned))⟩

theorem unsettled {timed : TimedWrite .plain} {s : Store}
    (calm : (trusted.policy.authorizeContext .plain trusted.legacyAuthorized caller).toOption.all (fun effective =>
      (verdict .plain trusted.policy effective s.toLedger timed.item.request timed.item.candidate).toOption.all
        fun judged => match judged with
          | .typed slot _ => slot.action ≠ .supersede || slot.targetFactId.isSome
          | _ => true) = true) : (Operation.write trusted caller timed).InOrder s := by
  refine ⟨fun effective query granted _ slot candidate judged action wide => ?_, trivial⟩
  simp [granted, judged, Except.toOption, action, wide] at calm

def moveIn : List (DatedStep .plain) := [.operation (.write trusted caller lima)]
def moveOut : DatedStep .plain := .operation (.write trusted caller moved)

theorem intervalsKeptHere : ∃ f ∈ (Run.run DatedStep.perform Store.empty (moveIn ++ [moveOut])).facts,
    f.validTo = some "2026-01-02" ∧ f.Interval .plain := by
  have ended : ∃ f ∈ (Run.run DatedStep.perform Store.empty (moveIn ++ [moveOut])).facts,
      f.validTo = some "2026-01-02" := by
    decide +kernel
  obtain ⟨f, hf, ends⟩ := ended
  exact ⟨f, hf, ends, (intervalsKept emptyLegacy moveIn moveOut).2
    ⟨unsettled (by decide +kernel), unsettled (by decide +kernel), trivial⟩ f hf⟩

end Example
end Enfold
