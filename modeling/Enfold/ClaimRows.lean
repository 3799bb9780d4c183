import Enfold.WriteEffects

/-! Where the fact rows behind a write come from. What a row claims never changes: a row is an
earlier one, perhaps retired or disputed since, or the one row the write stored. -/
namespace Enfold

open Fallible

variable {rt : Runtime} {l l' l'' : Ledger} {request : WriteRequest} {clock : Clock}

/-- The columns no write changes. -/
structure Fact.SameClaim (g f : Fact) : Prop where
  factId : f.factId = g.factId
  content : f.content = g.content
  scope : f.scope = g.scope
  sensitivity : f.sensitivity = g.sensitivity
  correctionStatus : f.correctionStatus = g.correctionStatus
  isState : f.isState = g.isState

theorem sameClaim (f : Fact) : f.SameClaim f := ⟨rfl, rfl, rfl, rfl, rfl, rfl⟩

theorem Fact.SameClaim.trans {f g h : Fact} (first : f.SameClaim g) (second : g.SameClaim h) :
    f.SameClaim h where
  factId := second.factId.trans first.factId
  content := second.content.trans first.content
  scope := second.scope.trans first.scope
  sensitivity := second.sensitivity.trans first.sensitivity
  correctionStatus := second.correctionStatus.trans first.correctionStatus
  isState := second.isState.trans first.isState

/-- Every later row is an earlier one, active only if it was, or a new one. -/
def Rows (l l' : Ledger) (new : Fact → Prop) : Prop :=
  ∀ f ∈ l'.facts,
    (∃ g ∈ l.facts, g.SameClaim f ∧ (f.active = true → g.active = true)) ∨ new f

variable {new : Fact → Prop}

theorem rowsSame (facts : l'.facts = l.facts) : Rows l l' new :=
  fun f hf => .inl ⟨f, facts ▸ hf, sameClaim f, id⟩

theorem rowsInsert {g : Fact} (stored : new g) : Rows l (l.insert g) new := by
  intro f hf
  rcases List.mem_append.mp hf with hf | hf
  · exact .inl ⟨f, hf, sameClaim f, id⟩
  · exact .inr (List.mem_singleton.mp hf ▸ stored)

theorem rowsMap {m : Fact → Fact} (facts : l'.facts = l.facts.map m) (claims : ∀ f : Fact, f.SameClaim (m f))
    (active : ∀ f ∈ l.facts, (m f).active = true → f.active = true ∨ new (m f)) : Rows l l' new := by
  intro f hf
  rw [facts] at hf
  obtain ⟨g, hg, rfl⟩ := List.mem_map.mp hf
  by_cases now : (m g).active = true
  · rcases active g hg now with was | stored
    · exact .inl ⟨g, hg, claims g, fun _ => was⟩
    · exact .inr stored
  · exact .inl ⟨g, hg, claims g, fun active => absurd active now⟩

theorem rowsAmend {p : Fact → Bool} {m : Fact → Fact} (facts : l'.facts = Table.amend p m l.facts)
    (claims : ∀ f : Fact, f.SameClaim (m f)) (active : ∀ f, (m f).active = true → f.active = true) :
    Rows l l' new := by
  refine rowsMap (m := fun f => if p f then m f else f) facts (fun f => ?_) fun f _ now => .inl ?_
  · split
    · exact claims f
    · exact sameClaim f
  · split at now
    · exact active f now
    · exact now

theorem Rows.trans (first : Rows l l' new) (second : Rows l' l'' new)
    (kept : ∀ g f, new g → g.SameClaim f → (f.active = true → g.active = true) → new f) :
    Rows l l'' new := by
  intro h hh
  rcases second h hh with ⟨g, hg, claim, active⟩ | stored
  · rcases first g hg with ⟨f, hf, claim', active'⟩ | stored
    · exact .inl ⟨f, hf, claim'.trans claim, fun now => active' (active now)⟩
    · exact .inr (kept g h stored claim active)
  · exact .inr stored

structure WriteRequest.Stores (request : WriteRequest) (l : Ledger) (f : Fact) : Prop where
  factId : f.factId = l.nextFactId
  content : f.content = Text.strip request.content
  scope : f.scope = Text.strip request.scope
  sensitivity : f.sensitivity = Text.strip request.sensitivity
  correctionStatus : f.correctionStatus = request.correctionStatus

theorem WriteRequest.Stores.follow {g f : Fact} (stores : request.Stores l g) (same : g.SameClaim f) :
    request.Stores l f where
  factId := same.factId.trans stores.factId
  content := same.content.trans stores.content
  scope := same.scope.trans stores.scope
  sensitivity := same.sensitivity.trans stores.sensitivity
  correctionStatus := same.correctionStatus.trans stores.correctionStatus

theorem storedRow {extracted : Option ExtractedTypedFields} {now : String}
    (kind : ∀ fields ∈ extracted, fields.kind ≠ .state) :
    request.Stores l (request.stored extracted l.nextFactId now) ∧
      (request.stored extracted l.nextFactId now).isState = false := by
  cases extracted with
  | none => exact ⟨⟨rfl, rfl, rfl, rfl, rfl⟩, rfl⟩
  | some fields =>
    have other := kind fields rfl
    refine ⟨⟨rfl, rfl, rfl, rfl, rfl⟩, ?_⟩
    simp [WriteRequest.stored, Fact.persistExtracted, Fact.isState, other]

section Effects
variable {extracted : Option ExtractedTypedFields} {found : UntypedMatch} {result : FactWriteResult}
  {context : ConnectionContext} {slot : SlotDecision} {effective : StateCandidate}
  {confidence : Option Rat}

/-- The row an untyped write stores, if it stores one: active only when nothing disputes it, and
answered with unless a near duplicate was kept instead. -/
structure UntypedRow (l : Ledger) (request : WriteRequest) (found : UntypedMatch)
    (result : FactWriteResult) (f : Fact) : Prop where
  stores : request.Stores l f
  untyped : f.isState = false
  active : f.active = true →
    found = .fresh ∨ ∃ candidate, found = .nearDuplicate candidate ∧ result.factId = l.nextFactId
  answered : (result.factId = l.nextFactId ∧ ∀ factId, result.existingFactId = some factId →
      ∃ g ∈ l.facts, g.factId = factId) ∨
    ∃ candidate, found = .nearDuplicate candidate ∧ result.factId = candidate.factId

theorem UntypedRow.follow {g f : Fact} (row : UntypedRow l request found result g) (same : g.SameClaim f)
    (active : f.active = true → g.active = true) : UntypedRow l request found result f where
  stores := row.stores.follow same
  untyped := same.isState.trans row.untyped
  active now := row.active (active now)
  answered := row.answered

theorem UntypedEffect.rows (h : UntypedEffect l request extracted clock found l' result) :
    Rows l l' (UntypedRow l request found result) := by
  cases h with
  | duplicate => exact rowsSame rfl
  | fresh kind =>
    obtain ⟨stores, untyped⟩ := @storedRow l request extracted clock.insertedAt kind
    exact rowsInsert ⟨stores, untyped, fun _ => .inl rfl, .inl ⟨rfl, nofun⟩⟩
  | @dispute found l' opened =>
    obtain ⟨-, subject, predicate, detail, f, mem, id, -, -, -, -, rfl⟩ := opened
    have marked : Rows l (l.openConflict (.detected l.nextConflictId request.scope subject predicate
        clock.recordedAt detail) [found.factId] (Fact.disputeAs l.nextConflictId subject predicate))
        (UntypedRow l request (.contradiction found) ⟨l.nextFactId, .conflict, some found.factId⟩) :=
      rowsAmend rfl (fun _ => ⟨rfl, rfl, rfl, rfl, rfl, rfl⟩) fun _ now => by simp [Fact.disputeAs, Fact.active] at now
    have stored : UntypedRow l request (.contradiction found) ⟨l.nextFactId, .conflict, some found.factId⟩
        ((request.row l.nextFactId clock.insertedAt).disputeAs l.nextConflictId found.subjectKey
          found.predicateKey) :=
      { stores := ⟨rfl, rfl, rfl, rfl, rfl⟩
        untyped := rfl
        active := fun now => by simp [Fact.disputeAs, Fact.active] at now
        answered := .inl ⟨rfl, fun factId same => ⟨f, mem, id.trans (Option.some.inj same)⟩⟩ }
    intro g hg
    rcases List.mem_append.mp hg with hg | hg
    · exact marked g hg
    · exact .inr (List.mem_singleton.mp hg ▸ stored)
  | @wins candidate f mem id =>
    have retired : Rows l (l.retire candidate.factId (Fact.supersede clock.recordedAt l.nextFactId))
        (UntypedRow l request (.nearDuplicate candidate)
          ⟨l.nextFactId, .nearDedup, some candidate.factId⟩) :=
      rowsAmend rfl (fun _ => ⟨rfl, rfl, rfl, rfl, rfl, rfl⟩) fun _ now => by simp [Fact.supersede, Fact.active, Fact.current] at now
    intro g hg
    rcases List.mem_append.mp hg with hg | hg
    · exact retired g hg
    · refine .inr (List.mem_singleton.mp hg ▸ ⟨⟨rfl, rfl, rfl, rfl, rfl⟩, rfl,
        fun _ => .inr ⟨candidate, rfl, rfl⟩, .inl ⟨rfl, fun factId same => ?_⟩⟩)
      exact ⟨f, mem, id.trans (Option.some.inj same)⟩
  | @loses candidate =>
    exact rowsInsert ⟨⟨rfl, rfl, rfl, rfl, rfl⟩, rfl,
      fun now => by simp [Fact.supersede, Fact.active, Fact.current] at now, .inr ⟨candidate, rfl, rfl⟩⟩

theorem Superseded.rows {survivor : Nat} {now : String} (h : Superseded l request survivor now l') :
    Rows l l' new := by
  cases h with
  | unasked => exact rowsSame rfl
  | retired =>
    refine rowsAmend rfl (fun _ => ⟨rfl, rfl, rfl, rfl, rfl, rfl⟩) fun _ now => ?_
    simp [Fact.supersede, Fact.active, Fact.current] at now

structure TypedRow (l : Ledger) (request : WriteRequest) (slot : SlotDecision)
    (effective : StateCandidate) (f : Fact) : Prop where
  factId : f.factId = l.nextFactId
  content : f.content = Text.strip request.content
  scope : f.scope = effective.scope
  sensitivity : f.sensitivity = Text.strip request.sensitivity
  correctionStatus : f.correctionStatus = request.correctionStatus
  typed : f.isState = true
  unknown : slot.evidence = none

theorem TypedRow.follow {g f : Fact} (row : TypedRow l request slot effective g) (same : g.SameClaim f) :
    TypedRow l request slot effective f where
  factId := same.factId.trans row.factId
  content := same.content.trans row.content
  scope := same.scope.trans row.scope
  sensitivity := same.sensitivity.trans row.sensitivity
  correctionStatus := same.correctionStatus.trans row.correctionStatus
  typed := same.isState.trans row.typed
  unknown := row.unknown

theorem supersedeUnknown (action : slot.action = .supersede) : slot.evidence = none := by
  simp [SlotDecision.evidence, action]

theorem StateEffect.rows (keyed : l.Keyed)
    (h : StateEffect rt l context request slot effective confidence clock l') :
    Rows l l' (TypedRow l request slot effective) := by
  have stored (group : Option Nat) (unknown : slot.evidence = none) : TypedRow l request slot effective
      (request.typed effective group confidence l.nextFactId clock) :=
    ⟨rfl, rfl, rfl, rfl, rfl, rfl, unknown⟩
  -- the new row is put behind rows that only lost their standing
  have behind {k : Ledger} {f : Fact} (rows : Rows l k (TypedRow l request slot effective))
      (new : TypedRow l request slot effective f) :
      ∀ g ∈ k.facts ++ [f], (∃ old ∈ l.facts, old.SameClaim g ∧ (g.active = true → old.active = true)) ∨
        TypedRow l request slot effective g := by
    intro g hg
    rcases List.mem_append.mp hg with hg | hg
    · exact rows g hg
    · exact .inr (List.mem_singleton.mp hg ▸ new)
  cases h with
  | evidence => exact rowsSame rfl
  | add unknown => exact rowsInsert (stored none unknown)
  | @replace target f action =>
    have retired : Rows l (l.retire target (Fact.outdate clock.recordedAt effective.validFrom
        l.nextFactId)) (TypedRow l request slot effective) :=
      rowsAmend rfl (fun _ => ⟨rfl, rfl, rfl, rfl, rfl, rfl⟩) fun _ now => by
        simp [Fact.outdate, Fact.active, Fact.current] at now
    exact behind retired (stored none (supersedeUnknown action))
  | @dispute detail action unknown =>
    have marked : Rows l (l.openConflict (.detected l.nextConflictId (Text.strip slot.scope)
        (Text.strip slot.subjectKey) (Text.strip slot.predicateKey) clock.recordedAt detail)
        slot.currentFactIds (Fact.dispute l.nextConflictId)) (TypedRow l request slot effective) :=
      rowsAmend rfl (fun _ => ⟨rfl, rfl, rfl, rfl, rfl, rfl⟩) fun _ now => by
        simp [Fact.dispute, Fact.active] at now
    exact behind marked (stored _ unknown)
  | join action unknown => exact behind (rowsSame rfl) (stored _ unknown)
  | @settle conflictId row l' resolution action group wide mem id unresolved fits current fresh
      resolved =>
    have unknown := supersedeUnknown action
    have inserted := keyed.insert
      (g := request.typed effective (some conflictId) confidence l.nextFactId clock) rfl
    obtain ⟨-, w, -, -, -, rfl, -⟩ := resolveStateConflictSource inserted.join resolved
    have joined : Rows l ((l.insert (request.typed effective (some conflictId) confidence l.nextFactId
        clock)).join ⟨conflictId, l.nextFactId⟩) (TypedRow l request slot effective) :=
      behind (rowsSame rfl) (stored (some conflictId) unknown)
    refine joined.trans (rowsMap rfl (fun f => ?_) fun f hf now => ?_) fun g f new same _ => new.follow same
    · unfold Fact.resolved
      split
      · exact ⟨rfl, rfl, rfl, rfl, rfl, rfl⟩
      · split
        · exact ⟨rfl, rfl, rfl, rfl, rfl, rfl⟩
        · exact sameClaim f
    · unfold Fact.resolved at now ⊢
      split at now
      · rename_i won
        rw [freshMember keyed hf won]
        exact .inr (by
          rw [if_pos (show (request.typed effective (some conflictId) confidence l.nextFactId
            clock).factId = l.nextFactId from rfl)]
          exact ⟨rfl, rfl, rfl, rfl, rfl, rfl, unknown⟩)
      · split at now
        · simp [Fact.lose, Fact.active, Fact.current] at now
        · exact .inl now

end Effects

end Enfold
