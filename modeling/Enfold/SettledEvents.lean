import Enfold.Foundation.KeyOrder
import Enfold.MergeConservation
import Enfold.SupersessionForest

/-! The settled history of the facts: when each was created, superseded and elected. Creations are
withheld by the group a fact carries, which says that its dispute is open only while nobody has lost one. -/
namespace Enfold

open Fallible KeyOrder

inductive EventKind where
  | created | superseded | resolved
  deriving DecidableEq, Repr

structure SettledEvent where
  kind : EventKind
  changedAt : String
  fact : Fact
  deriving DecidableEq, Repr

/-- `build_visibility_predicate`; without a list of scopes nothing is hidden. -/
def Fact.seenUnder (allowedScopes : Option (List String)) (f : Fact) : Bool :=
  allowedScopes.all fun scopes => f.visibleIn (scopes.map Text.strip)

/-- The three parts of the `UNION ALL`: a kind, a time that may be missing, and a fact id. -/
def Ledger.factEvents (l : Ledger) (allowedScopes : Option (List String)) :
    List (EventKind × Option String × Nat) :=
  let visible := l.facts.filter (Fact.seenUnder allowedScopes)
  (visible.filter (·.conflictGroup.isNone)).map (fun f => (.created, some f.createdAt, f.factId)) ++
    (visible.filter fun f => f.invalidAt.isSome && f.supersededBy.isSome).map
      (fun f => (.superseded, f.invalidAt, f.factId)) ++
    (l.conflicts.filter (·.resolvedAt.isSome)).flatMap fun row =>
      (visible.filter fun f => row.resolutionFactId = some f.factId).map
        fun f => (.resolved, row.resolvedAt, f.factId)

section Query
variable (julianday : String → Option Rat)

/-- A comparison with a time that SQLite cannot read is not true. -/
def inWindow (since until' : Option String) (changedAt : String) : Bool :=
  match since, until' with
  | some since, some until' =>
    match julianday changedAt, julianday since, julianday until' with
    | some day, some first, some last => first ≤ day && day < last
    | _, _, _ => false
  | _, _ => true

-- `CASE e.kind WHEN 'created' THEN 0 WHEN 'superseded' THEN 1 ELSE 2 END`
def EventKind.rank : EventKind → Nat
  | .created => 0
  | .superseded => 1
  | .resolved => 2

/-- The order of the events; a time that cannot be read comes first. -/
def SettledEvent.place (e : SettledEvent) : WithBot Rat ×ₗ String ×ₗ Nat ×ₗ Nat :=
  toLex (julianday e.changedAt, toLex (e.changedAt, toLex (e.kind.rank, e.fact.factId)))

def settledFactEvents (l : Ledger) (allowedScopes : Option (List String)) (since until' : Option String) :
    Except Raised (List SettledEvent) := do
  ensure (since.isNone == until'.isNone) ⟨.valueError, "since and until must be supplied together"⟩
  let _ ← (allowedScopes.getD []).mapM fun scope => required scope "scope"
  let events := (l.factEvents allowedScopes).flatMap fun (kind, changedAt, factId) =>
    (l.facts.filter (·.factId = factId)).filterMap fun f =>
      changedAt.map fun changedAt => ⟨kind, changedAt, f⟩
  .ok (sortedBy (SettledEvent.place julianday) (events.filter fun e => inWindow julianday since until' e.changedAt))

end Query

/-! ## What is listed -/

/-- The tables record that something of the kind happened to the fact at the time. -/
def Ledger.Records (l : Ledger) (f : Fact) (changedAt : String) : EventKind → Prop
  | .created => f.conflictGroup = none ∧ changedAt = f.createdAt
  | .superseded => f.supersededBy ≠ none ∧ f.invalidAt = some changedAt
  | .resolved => ∃ row ∈ l.conflicts, row.resolvedAt = some changedAt ∧ row.resolutionFactId = some f.factId

section Listed
variable {julianday : String → Option Rat} {l : Ledger} {allowedScopes : Option (List String)}
  {since until' : Option String} {events : List SettledEvent}

theorem factEventsSource {kind : EventKind} {changedAt : String} {factId : Nat} :
    (kind, some changedAt, factId) ∈ l.factEvents allowedScopes ↔
      ∃ f ∈ l.facts, f.factId = factId ∧ f.seenUnder allowedScopes = true ∧ l.Records f changedAt kind := by
  simp only [Ledger.factEvents, List.mem_append, List.mem_map, List.mem_filter, List.mem_flatMap, Prod.mk.injEq,
    Option.isNone_iff_eq_none, Bool.and_eq_true, decide_eq_true_eq]
  constructor
  · rintro ((⟨f, ⟨⟨hf, seen⟩, calm⟩, rfl, changed, id⟩ | ⟨f, ⟨⟨hf, seen⟩, -, replaced⟩, rfl, changed, id⟩) |
      ⟨row, ⟨hr, -⟩, f, ⟨⟨hf, seen⟩, elected⟩, rfl, changed, id⟩)
    · exact ⟨f, hf, id, seen, calm, (Option.some.inj changed).symm⟩
    · exact ⟨f, hf, id, seen, Option.isSome_iff_ne_none.mp replaced, changed⟩
    · exact ⟨f, hf, id, seen, row, hr, changed, elected⟩
  · rintro ⟨f, hf, id, seen, recorded⟩
    cases kind with
    | created => exact .inl (.inl ⟨f, ⟨⟨hf, seen⟩, recorded.1⟩, rfl, congrArg some recorded.2.symm, id⟩)
    | superseded =>
      obtain ⟨replaced, changed⟩ := recorded
      exact .inl (.inr ⟨f, ⟨⟨hf, seen⟩, by rw [changed]; rfl, Option.isSome_iff_ne_none.mpr replaced⟩, rfl, changed, id⟩)
    | resolved =>
      obtain ⟨row, hr, changed, elected⟩ := recorded
      exact .inr ⟨row, ⟨hr, by rw [changed]; rfl⟩, f, ⟨⟨hf, seen⟩, elected⟩, rfl, changed, id⟩

theorem settledSource (listed : settledFactEvents julianday l allowedScopes since until' = .ok events)
    (unique : Table.Unique Fact.factId l.facts) {e : SettledEvent} :
    e ∈ events ↔ inWindow julianday since until' e.changedAt = true ∧ e.fact ∈ l.facts ∧
      e.fact.seenUnder allowedScopes = true ∧ l.Records e.fact e.changedAt e.kind := by
  simp only [settledFactEvents, bindOk, ensureOk] at listed
  obtain ⟨-, -, -, -, last⟩ := listed
  rw [← Except.ok.inj last, sortedByMem, List.mem_filter, List.mem_flatMap, and_comm]
  refine and_congr_right fun _ => ⟨?_, ?_⟩
  · rintro ⟨⟨kind, changedAt, factId⟩, row, joined⟩
    obtain ⟨f, hf, made⟩ := List.mem_filterMap.mp joined
    obtain ⟨mem, id⟩ := List.mem_filter.mp hf
    obtain ⟨at', rfl, rfl⟩ := Option.map_eq_some_iff.mp made
    obtain ⟨g, hg, same, seen, recorded⟩ := factEventsSource.mp row
    obtain rfl := Table.uniqueEq unique hg mem (same.trans (of_decide_eq_true id).symm)
    exact ⟨mem, seen, recorded⟩
  · rintro ⟨mem, seen, recorded⟩
    refine ⟨(e.kind, some e.changedAt, e.fact.factId), factEventsSource.mpr ⟨e.fact, mem, rfl, seen, recorded⟩, ?_⟩
    exact List.mem_filterMap.mpr ⟨e.fact, List.mem_filter.mpr ⟨mem, decide_eq_true rfl⟩, rfl⟩

end Listed

/-! ## Disputes that are open -/

def Ledger.PartyOf (l : Ledger) (conflictId factId : Nat) : Prop :=
  (∃ row ∈ l.conflicts, row.conflictId = conflictId ∧ row.resolvedAt = none) ∧ ⟨conflictId, factId⟩ ∈ l.members

def NotAfter (julianday : String → Option Rat) (first last : String) : Prop :=
  ∃ a b, julianday first = some a ∧ julianday last = some b ∧ a ≤ b

/-- What no later change touches of a fact: when it was recorded, and who may read it. -/
structure Fact.SameOrigin (f g : Fact) : Prop where
  factId : g.factId = f.factId
  createdAt : g.createdAt = f.createdAt
  scope : g.scope = f.scope
  sensitivity : g.sensitivity = f.sensitivity

theorem Fact.SameOrigin.seen {f g : Fact} {allowedScopes : Option (List String)} (same : f.SameOrigin g) :
    g.seenUnder allowedScopes = f.seenUnder allowedScopes := by
  simp only [Fact.seenUnder, Fact.visibleIn, same.scope, same.sensitivity]

/-- The tables tell an open dispute by the group alone: a visible fact carries the group of an open conflict
it is a party of, or none, and every party carries it. -/
structure Ledger.Settled (julianday : String → Option Rat) (allowedScopes : Option (List String)) (l : Ledger) :
    Prop extends l.Keyed where
  filed : ∀ m ∈ l.members, m.conflictId < l.nextConflictId ∧ ∃ f ∈ l.facts, f.factId = m.factId
  marked : ∀ f ∈ l.facts, f.seenUnder allowedScopes = true → ∀ c, f.conflictGroup = some c → l.PartyOf c f.factId
  parties : ∀ f ∈ l.facts, ∀ c, l.PartyOf c f.factId → f.conflictGroup = some c
  replaced : ∀ f ∈ l.facts, f.supersededBy ≠ none →
    ∃ changedAt, f.invalidAt = some changedAt ∧ NotAfter julianday f.createdAt changedAt
  electedBound : ∀ row ∈ l.conflicts, ∀ winner, row.resolutionFactId = some winner → winner < l.nextFactId
  elected : ∀ row ∈ l.conflicts, ∀ changedAt, row.resolvedAt = some changedAt →
    ∀ f ∈ l.facts, row.resolutionFactId = some f.factId → NotAfter julianday f.createdAt changedAt

/-- Nobody who reads with these scopes sees a fact that loses the conflict. -/
def Ledger.LosersHidden (l : Ledger) (allowedScopes : Option (List String)) (conflictId winner : Nat) : Prop :=
  ∀ f ∈ l.facts, ⟨conflictId, f.factId⟩ ∈ l.members → f.factId ≠ winner → f.seenUnder allowedScopes = false

namespace Ledger

section Changes
variable {julianday : String → Option Rat} {allowedScopes : Option (List String)} {l : Ledger}

theorem Settled.memberBound (settled : l.Settled julianday allowedScopes) {m : Member} (mem : m ∈ l.members) :
    m.factId < l.nextFactId := by
  obtain ⟨f, hf, id⟩ := (settled.filed m mem).2
  exact id ▸ settled.factBound f hf

theorem Settled.insert (settled : l.Settled julianday allowedScopes) {g : Fact} (next : g.factId = l.nextFactId)
    (calm : g.conflictGroup = none) (dated : g.supersededBy ≠ none →
      ∃ changedAt, g.invalidAt = some changedAt ∧ NotAfter julianday g.createdAt changedAt) :
    (l.insert g).Settled julianday allowedScopes where
  toKeyed := settled.toKeyed.insert next
  filed m hm := by
    obtain ⟨below, f, hf, id⟩ := settled.filed m hm
    exact ⟨below, f, List.mem_append_left _ hf, id⟩
  marked f hf seen c group := by
    rcases List.mem_append.mp hf with hf | hf
    · exact settled.marked f hf seen c group
    · rw [List.mem_singleton.mp hf, calm] at group
      cases group
  parties f hf c party := by
    rcases List.mem_append.mp hf with hf | hf
    · exact settled.parties f hf c party
    · have below := settled.memberBound party.2
      rw [List.mem_singleton.mp hf, next] at below
      exact absurd below (Nat.lt_irrefl _)
  replaced f hf gone := by
    rcases List.mem_append.mp hf with hf | hf
    · exact settled.replaced f hf gone
    · obtain rfl := List.mem_singleton.mp hf
      exact dated gone
  electedBound row hr winner won := Nat.lt_succ_of_lt (settled.electedBound row hr winner won)
  elected row hr changedAt closed f hf won := by
    rcases List.mem_append.mp hf with hf | hf
    · exact settled.elected row hr changedAt closed f hf won
    · have below := settled.electedBound row hr _ won
      rw [List.mem_singleton.mp hf, next] at below
      exact absurd below (Nat.lt_irrefl _)

theorem Settled.admit (settled : l.Settled julianday allowedScopes) {g : Fact} {c : Nat} {row : Conflict}
    (next : g.factId = l.nextFactId) (group : g.conflictGroup = some c) (current : g.supersededBy = none)
    (mem : row ∈ l.conflicts) (id : row.conflictId = c) (unresolved : row.resolvedAt = none) :
    ((l.insert g).join ⟨c, g.factId⟩).Settled julianday allowedScopes where
  toKeyed := (settled.toKeyed.insert next).join
  filed m hm := by
    rcases List.mem_append.mp hm with hm | hm
    · obtain ⟨below, f, hf, stored⟩ := settled.filed m hm
      exact ⟨below, f, List.mem_append_left _ hf, stored⟩
    · rw [List.mem_singleton.mp hm]
      exact ⟨id ▸ settled.conflictBound row mem, g, List.mem_append_right _ List.mem_cons_self, rfl⟩
  marked f hf seen k grouped := by
    rcases List.mem_append.mp hf with hf | hf
    · obtain ⟨filed, member⟩ := settled.marked f hf seen k grouped
      exact ⟨filed, List.mem_append_left _ member⟩
    · rw [List.mem_singleton.mp hf, group] at grouped
      rw [List.mem_singleton.mp hf, ← Option.some.inj grouped]
      exact ⟨⟨row, mem, id, unresolved⟩, List.mem_append_right _ List.mem_cons_self⟩
  parties f hf k party := by
    obtain ⟨filed, member⟩ := party
    rcases List.mem_append.mp member with member | member
    · rcases List.mem_append.mp hf with hf | hf
      · exact settled.parties f hf k ⟨filed, member⟩
      · have below := settled.memberBound member
        rw [List.mem_singleton.mp hf, next] at below
        exact absurd below (Nat.lt_irrefl _)
    · have same := List.mem_singleton.mp member
      rw [Member.mk.injEq] at same
      rcases List.mem_append.mp hf with hf | hf
      · have below := settled.factBound f hf
        rw [same.2, next] at below
        exact absurd below (Nat.lt_irrefl _)
      · rw [List.mem_singleton.mp hf, group, same.1]
  replaced f hf gone := by
    rcases List.mem_append.mp hf with hf | hf
    · exact settled.replaced f hf gone
    · rw [List.mem_singleton.mp hf] at gone
      exact absurd current gone
  electedBound row hr winner won := Nat.lt_succ_of_lt (settled.electedBound row hr winner won)
  elected row hr changedAt closed f hf won := by
    rcases List.mem_append.mp hf with hf | hf
    · exact settled.elected row hr changedAt closed f hf won
    · have below := settled.electedBound row hr _ won
      rw [List.mem_singleton.mp hf, next] at below
      exact absurd below (Nat.lt_irrefl _)

theorem Settled.openConflict (settled : l.Settled julianday allowedScopes) {row : Conflict} {factIds : List Nat}
    {mark : Fact → Fact} (next : row.conflictId = l.nextConflictId) (unresolved : row.resolvedAt = none)
    (unelected : row.resolutionFactId = none)
    (marks : ∀ f, f.SameOrigin (mark f) ∧ (mark f).supersededBy = f.supersededBy ∧
      (mark f).invalidAt = f.invalidAt ∧ (mark f).conflictGroup = some row.conflictId)
    (members : ∀ factId ∈ factIds, ∃ f ∈ l.facts, f.factId = factId ∧ f.conflictGroup = none) :
    (l.openConflict row factIds mark).Settled julianday allowedScopes := by
  have old : ∀ c factId, l.PartyOf c factId → (l.openConflict row factIds mark).PartyOf c factId := by
    intro c factId party
    obtain ⟨⟨r, hr, filed⟩, member⟩ := party
    exact ⟨⟨r, List.mem_append_left _ hr, filed⟩, List.mem_append_left _ member⟩
  have shape : ∀ f ∈ (l.openConflict row factIds mark).facts, ∃ g ∈ l.facts, g.SameOrigin f ∧
      f.supersededBy = g.supersededBy ∧ f.invalidAt = g.invalidAt ∧
      (g.factId ∈ factIds ∧ f.conflictGroup = some row.conflictId ∨
        g.factId ∉ factIds ∧ f.conflictGroup = g.conflictGroup) := by
    intro f hf
    obtain ⟨g, hg, rfl⟩ := Table.memAmend.mp hf
    obtain ⟨same, gone, dead, group⟩ := marks g
    split
    · rename_i listed
      exact ⟨g, hg, same, gone, dead, .inl ⟨by simpa using listed, group⟩⟩
    · rename_i unlisted
      exact ⟨g, hg, ⟨rfl, rfl, rfl, rfl⟩, rfl, rfl, .inr ⟨by simpa using unlisted, rfl⟩⟩
  refine { settled.toKeyed.openConflict row factIds next fun f => (marks f).1.factId with
    filed := ?_, marked := ?_, parties := ?_, replaced := ?_, electedBound := ?_, elected := ?_ }
  · have stays : ∀ f ∈ l.facts, ∃ g ∈ (l.openConflict row factIds mark).facts, g.factId = f.factId := by
      intro f hf
      refine ⟨_, Table.memAmend.mpr ⟨f, hf, rfl⟩, ?_⟩
      split
      · exact (marks f).1.factId
      · rfl
    intro m hm
    rcases List.mem_append.mp hm with hm | hm
    · obtain ⟨below, f, hf, id⟩ := settled.filed m hm
      obtain ⟨g, hg, same⟩ := stays f hf
      exact ⟨Nat.lt_succ_of_lt below, g, hg, same.trans id⟩
    · obtain ⟨factId, listed, rfl⟩ := List.mem_map.mp hm
      obtain ⟨f, hf, id, -⟩ := members factId listed
      obtain ⟨g, hg, same⟩ := stays f hf
      exact ⟨next ▸ Nat.lt_succ_self _, g, hg, same.trans id⟩
  · intro f hf seen c group
    obtain ⟨g, hg, same, -, -, ⟨listed, marked⟩ | ⟨-, kept⟩⟩ := shape f hf
    · rw [← Option.some.inj (marked.symm.trans group)]
      refine ⟨⟨row, List.mem_append_right _ List.mem_cons_self, rfl, unresolved⟩, List.mem_append_right _ ?_⟩
      exact List.mem_map.mpr ⟨g.factId, listed, by rw [same.factId]⟩
    · rw [same.factId]
      exact old c g.factId (settled.marked g hg (same.seen ▸ seen) c (kept ▸ group))
  · intro f hf c party
    obtain ⟨g, hg, same, -, -, sort⟩ := shape f hf
    obtain ⟨⟨r, hr, id, open'⟩, member⟩ := party
    rw [same.factId] at member
    rcases List.mem_append.mp member with member | member
    · have party : l.PartyOf c g.factId := by
        refine ⟨?_, member⟩
        rcases List.mem_append.mp hr with hr | hr
        · exact ⟨r, hr, id, open'⟩
        · have below := (settled.filed _ member).1
          rw [← id, List.mem_singleton.mp hr, next] at below
          exact absurd below (Nat.lt_irrefl _)
      have group := settled.parties g hg c party
      rcases sort with ⟨listed, -⟩ | ⟨-, kept⟩
      · obtain ⟨h, hh, same', calm⟩ := members g.factId listed
        rw [Table.uniqueEq settled.factIds hh hg same', group] at calm
        cases calm
      · exact kept.trans group
    · obtain ⟨factId, listed, made⟩ := List.mem_map.mp member
      rw [Member.mk.injEq] at made
      rcases sort with ⟨-, marked⟩ | ⟨unlisted, -⟩
      · exact marked.trans (congrArg some made.1)
      · exact absurd (made.2 ▸ listed) unlisted
  · intro f hf gone
    obtain ⟨g, hg, same, pointer, dead, -⟩ := shape f hf
    rw [dead, same.createdAt]
    exact settled.replaced g hg (pointer ▸ gone)
  · intro r hr winner won
    rcases List.mem_append.mp hr with hr | hr
    · exact settled.electedBound r hr winner won
    · rw [List.mem_singleton.mp hr, unelected] at won
      cases won
  · intro r hr changedAt closed f hf won
    obtain ⟨g, hg, same, -⟩ := shape f hf
    rw [same.createdAt]
    rw [same.factId] at won
    rcases List.mem_append.mp hr with hr | hr
    · exact settled.elected r hr changedAt closed g hg won
    · rw [List.mem_singleton.mp hr, unelected] at won
      cases won

theorem Settled.filedStays (settled : l.Settled julianday allowedScopes) {l' : Ledger} {m : Fact → Fact}
    (stays : ∀ f ∈ l.facts, m f ∈ l'.facts) (ids : ∀ f, (m f).factId = f.factId)
    (members : ∀ m ∈ l'.members, m ∈ l.members) (next : l'.nextConflictId = l.nextConflictId) :
    ∀ m ∈ l'.members, m.conflictId < l'.nextConflictId ∧ ∃ g ∈ l'.facts, g.factId = m.factId := by
  intro x hx
  obtain ⟨below, f, hf, id⟩ := settled.filed x (members x hx)
  exact ⟨next ▸ below, m f, stays f hf, (ids f).trans id⟩

theorem Settled.change (settled : l.Settled julianday allowedScopes) {l' : Ledger} {m : Fact → Fact}
    (keyed : l'.Keyed) (facts : ∀ g ∈ l'.facts, ∃ f ∈ l.facts, g = m f) (same : ∀ f : Fact, f.SameOrigin (m f))
    (filed : ∀ m ∈ l'.members, m.conflictId < l'.nextConflictId ∧ ∃ g ∈ l'.facts, g.factId = m.factId)
    (marked : ∀ f ∈ l.facts, f.seenUnder allowedScopes = true → ∀ c, (m f).conflictGroup = some c →
      f.conflictGroup = some c ∧ (l.PartyOf c f.factId → l'.PartyOf c f.factId))
    (parties : ∀ f ∈ l.facts, m f ∈ l'.facts → ∀ c, l'.PartyOf c f.factId →
      l.PartyOf c f.factId ∧ (m f).conflictGroup = f.conflictGroup)
    (replaced : ∀ f ∈ l.facts, (m f).supersededBy ≠ none →
      ∃ changedAt, (m f).invalidAt = some changedAt ∧ NotAfter julianday f.createdAt changedAt)
    (electedBound : ∀ row ∈ l'.conflicts, ∀ winner, row.resolutionFactId = some winner → winner < l'.nextFactId)
    (elected : ∀ row ∈ l'.conflicts, ∀ changedAt, row.resolvedAt = some changedAt →
      ∀ f ∈ l.facts, row.resolutionFactId = some f.factId → NotAfter julianday f.createdAt changedAt) :
    l'.Settled julianday allowedScopes where
  toKeyed := keyed
  filed := filed
  marked g hg seen c group := by
    obtain ⟨f, hf, rfl⟩ := facts g hg
    rw [(same f).seen] at seen
    obtain ⟨was, stays⟩ := marked f hf seen c group
    rw [(same f).factId]
    exact stays (settled.marked f hf seen c was)
  parties g hg c party := by
    obtain ⟨f, hf, rfl⟩ := facts g hg
    rw [(same f).factId] at party
    obtain ⟨was, kept⟩ := parties f hf hg c party
    exact kept.trans (settled.parties f hf c was)
  replaced g hg gone := by
    obtain ⟨f, hf, rfl⟩ := facts g hg
    rw [(same f).createdAt]
    exact replaced f hf gone
  electedBound := electedBound
  elected row hr changedAt closed g hg won := by
    obtain ⟨f, hf, rfl⟩ := facts g hg
    rw [(same f).factId] at won
    rw [(same f).createdAt]
    exact elected row hr changedAt closed f hf won

theorem Settled.retire (settled : l.Settled julianday allowedScopes) {f : Fact} {h : Fact → Fact}
    (mem : f ∈ l.facts) (same : ∀ f : Fact, f.SameOrigin (h f)) (group : ∀ f, (h f).conflictGroup = f.conflictGroup)
    (dated : (h f).supersededBy ≠ none →
      ∃ changedAt, (h f).invalidAt = some changedAt ∧ NotAfter julianday f.createdAt changedAt) :
    (l.retire f.factId h).Settled julianday allowedScopes := by
  refine settled.change (m := fun g => if decide (g.factId = f.factId) = true then h g else g)
    (settled.toKeyed.amend fun g => (same g).factId) (fun g hg => Table.memAmend.mp hg) (fun g => ?_)
    (settled.filedStays (fun g hg => Table.memAmend.mpr ⟨g, hg, rfl⟩) (fun g => ?_) (fun _ hm => hm) rfl)
    (fun g hg seen c grouped => ?_) (fun g hg _ c party => ⟨party, ?_⟩) (fun g hg gone => ?_)
    settled.electedBound settled.elected
  · split
    · exact same g
    · exact ⟨rfl, rfl, rfl, rfl⟩
  · split
    · exact (same g).factId
    · rfl
  · refine ⟨?_, id⟩
    split at grouped
    · exact (group g).symm.trans grouped
    · exact grouped
  · split
    · exact group g
    · rfl
  · by_cases own : g.factId = f.factId
    · rw [if_pos (decide_eq_true own)] at gone ⊢
      obtain rfl := Table.uniqueEq settled.factIds hg mem own
      exact dated gone
    · rw [if_neg (by simpa using own)] at gone ⊢
      exact settled.replaced g hg gone

theorem Settled.resolve (settled : l.Settled julianday allowedScopes) {conflictId winner : Nat} {row : Conflict}
    {w : Fact} {validTo : Option String} {resolvedBy reason resolvedAt : String}
    (resolves : Resolves l conflictId winner row w) (hidden : l.LosersHidden allowedScopes conflictId winner)
    (timely : ∀ f ∈ l.facts, ⟨conflictId, f.factId⟩ ∈ l.members → NotAfter julianday f.createdAt resolvedAt) :
    (l.resolve conflictId winner validTo resolvedBy reason resolvedAt).Settled julianday allowedScopes := by
  have shape (f : Fact) : (f.resolved resolvedAt conflictId winner ((l.memberIds conflictId).filter (· ≠ winner))
      validTo = { f with conflictGroup := none } ∧ f.factId = winner) ∨
      (f.resolved resolvedAt conflictId winner ((l.memberIds conflictId).filter (· ≠ winner)) validTo =
        f.lose resolvedAt winner validTo ∧ f.factId ≠ winner ∧ ⟨conflictId, f.factId⟩ ∈ l.members) ∨
      (f.resolved resolvedAt conflictId winner ((l.memberIds conflictId).filter (· ≠ winner)) validTo = f ∧
        f.factId ≠ winner) := by
    unfold Fact.resolved
    split
    · rename_i won
      exact .inl ⟨rfl, won⟩
    · rename_i other
      split
      · rename_i loses
        simp only [Fact.losesTo, Bool.and_eq_true, List.contains_eq_mem, decide_eq_true_eq, List.mem_filter,
          memberIdsMem] at loses
        exact .inr (.inl ⟨rfl, other, loses.1.1.1⟩)
      · exact .inr (.inr ⟨rfl, other⟩)
  have rows : ∀ r ∈ (l.resolve conflictId winner validTo resolvedBy reason resolvedAt).conflicts,
      r ∈ l.conflicts ∧ (r.conflictId = conflictId → r.resolvedAt ≠ none) ∨
      r.conflictId = conflictId ∧ r.resolvedAt = some resolvedAt ∧ r.resolutionFactId = some winner := by
    intro r hr
    obtain ⟨old, hold, rfl⟩ := Table.memAmend.mp hr
    by_cases hit : old.conflictId = conflictId ∧ old.resolvedAt = none
    · rw [if_pos (by simp [hit])]
      exact .inr ⟨hit.1, rfl, rfl⟩
    · rw [if_neg (by simpa using hit)]
      exact .inl ⟨hold, fun own open' => hit ⟨own, open'⟩⟩
  refine settled.change (m := Fact.resolved resolvedAt conflictId winner
      ((l.memberIds conflictId).filter (· ≠ winner)) validTo) (resolveKeyed settled.toKeyed) (fun g hg => ?_) (fun f => ?_)
    (settled.filedStays (fun f hf => List.mem_map_of_mem hf) (fun _ => resolvedId) (fun _ hm => hm) rfl)
    (fun f hf seen c group => ?_) (fun f hf _ c party => ?_) (fun f hf gone => ?_) (fun r hr k won => ?_)
    fun r hr changedAt closed f hf won => ?_
  · obtain ⟨f, hf, rfl⟩ := List.mem_map.mp hg
    exact ⟨f, hf, rfl⟩
  · rcases shape f with ⟨made, -⟩ | ⟨made, -⟩ | ⟨made, -⟩
    · rw [made]
      exact ⟨rfl, rfl, rfl, rfl⟩
    · rw [made]
      exact ⟨rfl, rfl, rfl, rfl⟩
    · rw [made]
      exact ⟨rfl, rfl, rfl, rfl⟩
  · have kept : f.conflictGroup = some c ∧ f.factId ≠ winner := by
      rcases shape f with ⟨made, -⟩ | ⟨made, other, -⟩ | ⟨made, other⟩
      · rw [made] at group
        cases group
      · rw [made] at group
        exact ⟨group, other⟩
      · rw [made] at group
        exact ⟨group, other⟩
    refine ⟨kept.1, fun party => ?_⟩
    obtain ⟨⟨r, hr, id, open'⟩, member⟩ := party
    have elsewhere : r.conflictId ≠ conflictId := by
      -- a visible fact would have lost the conflict
      intro own
      rw [← id, own] at member
      rw [hidden f hf member kept.2] at seen
      cases seen
    refine ⟨⟨_, Table.memAmend.mpr ⟨r, hr, rfl⟩, ?_⟩, member⟩
    rw [if_neg (by simp [elsewhere])]
    exact ⟨id, open'⟩
  · obtain ⟨⟨r, hr, id, open'⟩, member⟩ := party
    rcases rows r hr with ⟨old, closed⟩ | ⟨-, closed, -⟩
    · refine ⟨⟨⟨r, old, id, open'⟩, member⟩, ?_⟩
      have group := settled.parties f hf c ⟨⟨r, old, id, open'⟩, member⟩
      rcases shape f with ⟨made, won⟩ | ⟨made, -⟩ | ⟨made, -⟩
      · -- the winner is a party of the resolved conflict alone
        have own := settled.parties f hf conflictId ⟨⟨row, resolves.rowMem, resolves.rowId, resolves.unresolved⟩,
          won ▸ resolves.member⟩
        exact absurd open' (closed (id.trans (Option.some.inj (group.symm.trans own))))
      · rw [made]
        rfl
      · rw [made]
    · rw [closed] at open'
      cases open'
  · rcases shape f with ⟨made, -⟩ | ⟨made, -, member⟩ | ⟨made, -⟩
    · rw [made] at gone ⊢
      exact settled.replaced f hf gone
    · rw [made]
      exact ⟨resolvedAt, rfl, timely f hf member⟩
    · rw [made] at gone ⊢
      exact settled.replaced f hf gone
  · rcases rows r hr with ⟨old, -⟩ | ⟨-, -, elected⟩
    · exact settled.electedBound r old k won
    · rw [← Option.some.inj (elected.symm.trans won), ← resolves.factId]
      exact settled.factBound w resolves.factMem
  · rcases rows r hr with ⟨old, -⟩ | ⟨-, now, elected⟩
    · exact settled.elected r old changedAt closed f hf won
    · rw [← Option.some.inj (now.symm.trans closed)]
      refine timely f hf ?_
      rw [← Option.some.inj (elected.symm.trans won)]
      exact resolves.member

theorem Settled.erase (settled : l.Settled julianday allowedScopes) {factId : Nat} {requestedBy erasedAt : String}
    {cited lonely : List Nat} (active : ∀ f ∈ l.facts, f.factId ∈ cited →
      f.factId ≠ factId ∧ f.category = "insight" ∧ f.invalidAt = none)
    (hidden : ∀ row ∈ l.conflicts, row.resolvedAt = none → row.conflictId ∈ lonely →
      l.LosersHidden allowedScopes row.conflictId factId) :
    (l.erase factId requestedBy erasedAt cited lonely).Settled julianday allowedScopes := by
  have shape (f : Fact) : f.SameOrigin (f.erased factId erasedAt cited) ∧
      (f.erased factId erasedAt cited).supersededBy = f.supersededBy ∧
      (f.factId ∉ cited → f.invalidAt ≠ none → (f.erased factId erasedAt cited).invalidAt = f.invalidAt) ∧
      (f.factId = factId ∧ (f.erased factId erasedAt cited).conflictGroup = none ∨
        f.factId ≠ factId ∧ (f.erased factId erasedAt cited).conflictGroup = f.conflictGroup) := by
    unfold Fact.erased
    by_cases own : f.factId = factId
    · simp only [if_pos own]
      split
      · rename_i listed
        exact ⟨⟨rfl, rfl, rfl, rfl⟩, rfl, fun unlisted => absurd (by simpa using listed) unlisted, .inl ⟨own, rfl⟩⟩
      · refine ⟨⟨rfl, rfl, rfl, rfl⟩, rfl, fun _ dead => ?_, .inl ⟨own, rfl⟩⟩
        cases invalid : f.invalidAt with
        | none => exact absurd invalid dead
        | some changedAt => simp [Fact.scrub, invalid]
    · simp only [if_neg own]
      split
      · rename_i listed
        exact ⟨⟨rfl, rfl, rfl, rfl⟩, rfl, fun unlisted => absurd (by simpa using listed) unlisted, .inr ⟨own, rfl⟩⟩
      · exact ⟨⟨rfl, rfl, rfl, rfl⟩, rfl, fun _ _ => rfl, .inr ⟨own, rfl⟩⟩
  have rows : ∀ r ∈ (l.erase factId requestedBy erasedAt cited lonely).conflicts,
      r ∈ l.conflicts ∨ r.resolvedAt = some erasedAt ∧ r.resolutionFactId = none := by
    intro r hr
    obtain ⟨old, hold, rfl⟩ := List.mem_map.mp hr
    split
    · exact .inr ⟨rfl, rfl⟩
    · exact .inl hold
  refine settled.change (m := Fact.erased factId erasedAt cited) (eraseKeyed settled.toKeyed)
    (fun g hg => ?_) (fun f => (shape f).1)
    (settled.filedStays (fun f hf => List.mem_map_of_mem hf) (fun f => (shape f).1.factId)
      (fun m hm => (List.mem_filter.mp hm).1) rfl) (fun f hf seen c group => ?_) (fun f hf _ c party => ?_)
    (fun f hf gone => ?_) (fun r hr winner won => ?_) fun r hr changedAt closed f hf won => ?_
  · obtain ⟨f, hf, rfl⟩ := List.mem_map.mp hg
    exact ⟨f, hf, rfl⟩
  · obtain ⟨-, -, -, ⟨-, freed⟩ | ⟨other, kept⟩⟩ := shape f
    · rw [freed] at group
      cases group
    · refine ⟨kept.symm.trans group, fun party => ?_⟩
      obtain ⟨⟨r, hr, id, open'⟩, member⟩ := party
      have unlisted : r.conflictId ∉ lonely := by
        -- a visible fact would be left alone in the conflict
        intro listed
        rw [hidden r hr open' listed f hf (id ▸ member) other] at seen
        cases seen
      refine ⟨⟨_, List.mem_map_of_mem hr, ?_⟩, List.mem_filter.mpr ⟨member, by simpa using other⟩⟩
      rw [if_neg (by simp [unlisted])]
      exact ⟨id, open'⟩
  · obtain ⟨⟨r, hr, id, open'⟩, member⟩ := party
    obtain ⟨member, other⟩ := List.mem_filter.mp member
    rcases rows r hr with old | ⟨closed, -⟩
    · refine ⟨⟨⟨r, old, id, open'⟩, member⟩, ?_⟩
      obtain ⟨-, -, -, ⟨own, -⟩ | ⟨-, kept⟩⟩ := shape f
      · exact absurd own (by simpa using other)
      · exact kept
    · rw [closed] at open'
      cases open'
  · obtain ⟨-, pointer, dead, -⟩ := shape f
    obtain ⟨changedAt, invalid, timely⟩ := settled.replaced f hf (pointer ▸ gone)
    have invalidated : f.invalidAt ≠ none := by
      rw [invalid]
      exact Option.some_ne_none _
    have unlisted : f.factId ∉ cited := fun listed => invalidated (active f hf listed).2.2
    exact ⟨changedAt, (dead unlisted invalidated).trans invalid, timely⟩
  · rcases rows r hr with old | ⟨-, unelected⟩
    · exact settled.electedBound r old winner won
    · rw [unelected] at won
      cases won
  · rcases rows r hr with old | ⟨-, unelected⟩
    · exact settled.elected r old changedAt closed f hf won
    · rw [unelected] at won
      cases won

end Changes
end Ledger

/-! ## Merges -/

section Merges
variable {julianday : String → Option Rat} {allowedScopes : Option (List String)} {rt : Runtime} {s t : Store}
  {plan : MergePlan}

/-- A survivor was recorded no later than a resolution to what is dropped into it. -/
def MergePlan.Timely (julianday : String → Option Rat) (plan : MergePlan) (l : Ledger) : Prop :=
  ∀ c ∈ plan.clusters, ∀ w ∈ l.facts, w.factId = c.survivorId → ∀ row ∈ l.conflicts, ∀ loser ∈ c.loserIds,
    row.resolutionFactId = some loser → ∀ changedAt, row.resolvedAt = some changedAt →
      NotAfter julianday w.createdAt changedAt

def MergePlan.Calm (plan : MergePlan) (l : Ledger) : Prop :=
  ∀ c ∈ plan.clusters, (∃ w ∈ l.facts, w.factId = c.survivorId) ∧
    ∀ f ∈ l.facts, f.factId ∈ c.loserIds → f.conflictGroup = none

theorem followOrigin (loser survivor : Nat) (f : Fact) : f.SameOrigin (f.follow loser survivor) := by
  unfold Fact.follow Fact.redirectSuccessor Fact.rewriteSources
  split <;> split <;> exact ⟨rfl, rfl, rfl, rfl⟩

structure SettledMerging (julianday : String → Option Rat) (allowedScopes : Option (List String))
    (plan : MergePlan) (s t : Store) : Prop where
  merging : Merging plan s t
  calm : plan.Calm t.toLedger
  timely : plan.Timely julianday t.toLedger
  settled : t.toLedger.Settled julianday allowedScopes

theorem SettledMerging.absorb (passing : SettledMerging julianday allowedScopes plan s t) {c : ClusterMerge}
    (inside : c ∈ plan.clusters) : SettledMerging julianday allowedScopes plan s
      { t with facts := Table.amend (·.factId = c.survivorId) c.absorb t.facts } where
  merging := passing.merging.absorb c fun _ => ⟨rfl, rfl, rfl, rfl, rfl⟩
  calm d hd := by
    obtain ⟨⟨w, hw, id⟩, losers⟩ := passing.calm d hd
    refine ⟨⟨_, Table.memAmend.mpr ⟨w, hw, rfl⟩, ?_⟩, fun f hf lost => ?_⟩
    · split <;> exact id
    · obtain ⟨old, hold, rfl⟩ := Table.memAmend.mp hf
      have before := losers old hold
      split at lost
      · rename_i own
        rw [if_pos own]
        exact before lost
      · rename_i other
        rw [if_neg other]
        exact before lost
  timely d hd w hw id row hr loser lost won changedAt closed := by
    obtain ⟨old, hold, rfl⟩ := Table.memAmend.mp hw
    have before := passing.timely d hd old hold
    split at id
    · rename_i own
      rw [if_pos own]
      exact before id row hr loser lost won changedAt closed
    · rename_i other
      rw [if_neg other]
      exact before id row hr loser lost won changedAt closed
  settled := by
    obtain ⟨⟨w, hw, id⟩, -⟩ := passing.calm c inside
    rw [← id]
    exact passing.settled.retire hw (fun _ => ⟨rfl, rfl, rfl, rfl⟩) (fun _ => rfl) (passing.settled.replaced w hw)

theorem keptRedirect {x : Member} {loser survivor : Nat} {members : List Member} (mem : x ∈ members)
    (other : x.factId ≠ loser) :
    x ∈ redirect (fun m : Member => m.factId = loser) (fun m => { m with factId := survivor }) members :=
  List.mem_filterMap.mpr ⟨x, mem, by simp [other]⟩

theorem SettledMerging.drop (passing : SettledMerging julianday allowedScopes plan s t) {c : ClusterMerge}
    {loser : Nat} (inside : c ∈ plan.clusters) (dropped : loser ∈ c.loserIds) :
    SettledMerging julianday allowedScopes plan s (mergeFactReferences t c.survivorId loser) := by
  obtain ⟨⟨w, hw, wid⟩, losers⟩ := passing.calm c inside
  have survives {d : ClusterMerge} (hd : d ∈ plan.clusters) {f : Fact} (id : f.factId = d.survivorId) :
      f.factId ≠ loser := fun same => plan.apart d hd c inside (id ▸ same ▸ dropped)
  have stays : ∀ f ∈ t.facts, f.factId ≠ loser → f.follow loser c.survivorId ∈
      (mergeFactReferences t c.survivorId loser).facts :=
    fun f hf apart => followedFacts.mpr ⟨f, hf, apart, rfl⟩
  have same (f : Fact) := followOrigin loser c.survivorId f
  have group (f : Fact) : (f.follow loser c.survivorId).conflictGroup = f.conflictGroup :=
    (followSource loser c.survivorId f).2.2.2.1
  -- a resolution to the loser becomes one to the survivor
  have elections : ∀ row ∈ (mergeFactReferences t c.survivorId loser).conflicts, ∃ old ∈ t.conflicts,
      row.conflictId = old.conflictId ∧ row.resolvedAt = old.resolvedAt ∧
      (old.resolutionFactId = some loser ∧ row.resolutionFactId = some c.survivorId ∨
        row.resolutionFactId = old.resolutionFactId) := by
    intro row hr
    obtain ⟨old, hold, rfl⟩ := List.mem_map.mp hr
    refine ⟨old, hold, rfl, rfl, ?_⟩
    by_cases won : old.resolutionFactId = some loser
    · exact .inl ⟨won, if_pos won⟩
    · exact .inr (if_neg won)
  refine ⟨passing.merging.drop inside dropped, fun d hd => ?_, fun d hd g hg id row hr k lost won changedAt closed => ?_,
    passing.settled.change (m := Fact.follow loser c.survivorId) (passing.merging.drop inside dropped).keyed
      (fun g hg => ?_) same (fun m hm => ?_) (fun f hf seen k grouped => ?_) (fun f hf kept k party => ?_)
      (fun f hf gone => ?_) (fun row hr winner won => ?_) fun row hr changedAt closed f hf won => ?_⟩
  · obtain ⟨⟨v, hv, id⟩, calm⟩ := passing.calm d hd
    refine ⟨⟨_, stays v hv (survives hd id), (same v).factId.trans id⟩, fun f hf lost => ?_⟩
    obtain ⟨old, hold, -, rfl⟩ := followedFacts.mp hf
    rw [(same old).factId] at lost
    exact (group old).trans (calm old hold lost)
  · obtain ⟨v, hv, -, rfl⟩ := followedFacts.mp hg
    obtain ⟨old, hold, -, date, ⟨-, moved⟩ | unmoved⟩ := elections row hr
    · exact absurd (Option.some.inj (moved.symm.trans won) ▸ lost) (plan.apart c inside d hd)
    · rw [(same v).createdAt]
      exact passing.timely d hd v hv ((same v).factId.symm.trans id) old hold k lost (unmoved ▸ won) changedAt
        (date ▸ closed)
  · obtain ⟨old, hold, -, rfl⟩ := followedFacts.mp hg
    exact ⟨old, hold, rfl⟩
  · rcases memRedirect hm with ⟨old, other⟩ | ⟨old, hold, -, rfl⟩
    · obtain ⟨below, f, hf, id⟩ := passing.settled.filed m old
      exact ⟨below, _, stays f hf (id ▸ of_decide_eq_false other), (same f).factId.trans id⟩
    · exact ⟨(passing.settled.filed old hold).1, _, stays w hw (survives inside wid), (same w).factId.trans wid⟩
  · rw [group] at grouped
    refine ⟨grouped, fun party => ?_⟩
    obtain ⟨⟨row, hr, id, open'⟩, member⟩ := party
    have other : f.factId ≠ loser := by
      intro own
      rw [losers f hf (own ▸ dropped)] at grouped
      cases grouped
    exact ⟨⟨_, List.mem_map_of_mem hr, id, open'⟩, keptRedirect member other⟩
  · refine ⟨?_, group f⟩
    obtain ⟨⟨row, hr, id, open'⟩, member⟩ := party
    obtain ⟨old, hold, oid, date, -⟩ := elections row hr
    have filed : ∃ row ∈ t.conflicts, row.conflictId = k ∧ row.resolvedAt = none :=
      ⟨old, hold, oid.symm.trans id, date.symm.trans open'⟩
    rcases memRedirect member with ⟨before, -⟩ | ⟨party, before, own, moved⟩
    · exact ⟨filed, before⟩
    · -- the loser would have been a party of an open dispute
      obtain ⟨-, g, hg, gid⟩ := passing.settled.filed party before
      have listed : ⟨k, g.factId⟩ ∈ t.members := by
        rw [gid, (Member.mk.inj moved).1]
        exact before
      have grouped := passing.settled.parties g hg k ⟨filed, listed⟩
      rw [losers g hg (by rw [gid, of_decide_eq_true own]; exact dropped)] at grouped
      cases grouped
  · obtain ⟨-, -, invalid, -, pointer⟩ := followSource loser c.survivorId f
    have replaced : f.supersededBy ≠ none := by
      intro current
      rw [pointer, current] at gone
      exact gone rfl
    rw [invalid]
    exact passing.settled.replaced f hf replaced
  · obtain ⟨old, hold, -, -, ⟨-, moved⟩ | unmoved⟩ := elections row hr
    · rw [← Option.some.inj (moved.symm.trans won), ← wid]
      exact passing.settled.factBound w hw
    · exact passing.settled.electedBound old hold winner (unmoved ▸ won)
  · obtain ⟨old, hold, -, date, ⟨was, moved⟩ | unmoved⟩ := elections row hr
    · exact passing.timely c inside f hf (Option.some.inj (won.symm.trans moved)) old hold loser dropped was
        changedAt (date ▸ closed)
    · exact passing.settled.elected old hold changedAt (date ▸ closed) f hf (unmoved ▸ won)

theorem mergedSettled (calm : plan.Calm s.toLedger) (timely : plan.Timely julianday s.toLedger)
    (settled : s.toLedger.Settled julianday allowedScopes) :
    (applyMerge s plan).toLedger.Settled julianday allowedScopes := by
  have start : SettledMerging julianday allowedScopes plan s s :=
    ⟨⟨settled.toKeyed, rfl, rfl, fun f hf => ⟨f, hf, rfl, rfl, rfl, rfl, .inl rfl⟩⟩, calm, timely, settled⟩
  have passed : SettledMerging julianday allowedScopes plan s (applyMerge s plan) :=
    mergeKeeps (fun _ inside _ passing => passing.absorb inside)
      (fun _ inside _ dropped _ passing => passing.drop inside dropped) start
  exact passed.settled

theorem activeCalm {l : Ledger} (unique : Table.Unique Fact.factId l.facts) {f : Fact} (stored : f ∈ l.facts)
    (active : f.factId ∈ activeFactIds l) : f.conflictGroup = none := by
  obtain ⟨g, hg, id⟩ := List.mem_map.mp active
  obtain ⟨inside, hit⟩ := List.mem_filter.mp hg
  obtain rfl := Table.uniqueEq unique inside stored id
  simp only [Bool.and_eq_true, Option.isNone_iff_eq_none] at hit
  exact hit.1.2

theorem plannedCalm {similarity : List Rat → List Rat → Rat} {threshold : Rat} {floodCutoff : String}
    {chosen : Option String} (unique : Table.Unique Fact.factId s.facts)
    (planned : planMerge rt similarity s threshold floodCutoff chosen = .ok plan) : plan.Calm s.toLedger := by
  intro c hc
  obtain ⟨w, hw, id, -⟩ := plannedRooted unique planned c hc
  obtain ⟨groups, outcomes, built, mapped, clusters⟩ := planMergeSource planned
  obtain ⟨rows, -, read, -, -⟩ := clustersSource built
  rw [clusters] at hc
  obtain ⟨members, listed, made⟩ := mapMSource mapped _ (List.reduceOption_mem_iff.mp hc)
  obtain ⟨part, -⟩ := (clustersSpec read built).1 members listed
  refine ⟨⟨w, hw, id⟩, fun f hf lost => activeCalm unique hf ?_⟩
  exact activeRows read _ (part.subset ((plannedInside made).2 f.factId lost).1)

end Merges

/-! ## Writes -/

section Writes
variable {julianday : String → Option Rat} {allowedScopes : Option (List String)} {rt : Runtime} {l l' : Ledger}
  {context : ConnectionContext} {request : WriteRequest} {clock : Clock} {extracted : Option ExtractedTypedFields}
  {found : UntypedMatch} {result : FactWriteResult}

def Ledger.Timely (l : Ledger) (julianday : String → Option Rat) (now : String) : Prop :=
  ∀ f ∈ l.facts, NotAfter julianday f.createdAt now

theorem Ledger.Timely.insert {now : String} (timely : l.Timely julianday now) {g : Fact}
    (recorded : NotAfter julianday g.createdAt now) : (l.insert g).Timely julianday now := by
  intro f hf
  rcases List.mem_append.mp hf with hf | hf
  · exact timely f hf
  · exact List.mem_singleton.mp hf ▸ recorded

theorem Ledger.Timely.amend {now : String} (timely : l.Timely julianday now) {p : Fact → Bool} {h : Fact → Fact}
    (same : ∀ f, (h f).createdAt = f.createdAt) :
    ({ l with facts := Table.amend p h l.facts } : Ledger).Timely julianday now := by
  intro f hf
  obtain ⟨old, hold, rfl⟩ := Table.memAmend.mp hf
  split
  · rw [same]
    exact timely old hold
  · exact timely old hold

theorem storedDate {factId : Nat} {now : String} : (request.stored extracted factId now).createdAt = now := by
  cases extracted with
  | none => rfl
  | some fields => rfl

theorem UntypedEffect.timely (effect : UntypedEffect l request extracted clock found l' result)
    (timely : l.Timely julianday clock.recordedAt) (now : NotAfter julianday clock.insertedAt clock.recordedAt) :
    l'.Timely julianday clock.recordedAt := by
  cases effect with
  | duplicate => exact timely
  | fresh => exact timely.insert (storedDate.symm ▸ now)
  | dispute opened =>
    obtain ⟨-, subject, predicate, detail, f, -, -, -, -, -, -, rfl⟩ := opened
    exact (Ledger.Timely.amend (h := Fact.disputeAs l.nextConflictId subject predicate) timely
      fun _ => rfl).insert (l := l.openConflict _ _ _) now
  | @wins candidate =>
    exact (Ledger.Timely.amend (p := fun f => f.factId = candidate.factId)
      (h := Fact.supersede clock.recordedAt l.nextFactId) timely fun _ => rfl).insert now
  | loses => exact timely.insert now

theorem Ledger.Settled.untyped (settled : l.Settled julianday allowedScopes)
    (timely : l.Timely julianday clock.recordedAt) (now : NotAfter julianday clock.insertedAt clock.recordedAt)
    (effect : UntypedEffect l request extracted clock found l' result) : l'.Settled julianday allowedScopes := by
  cases effect with
  | duplicate => exact settled
  | fresh => exact settled.insert (storedDates _ _ _ _).1 storedRoot.2 fun gone => absurd storedRoot.1 gone
  | @dispute disputed _ opened =>
    obtain ⟨-, subject, predicate, detail, f, mem, id, -, -, calm, -, rfl⟩ := opened
    have opened : (l.openConflict (.detected l.nextConflictId request.scope subject predicate clock.recordedAt
        detail) [disputed.factId] (Fact.disputeAs l.nextConflictId subject predicate)).Settled julianday
          allowedScopes := by
      refine settled.openConflict rfl rfl rfl (fun f => ⟨⟨rfl, rfl, rfl, rfl⟩, rfl, rfl, rfl⟩) fun k listed => ?_
      exact ⟨f, mem, id.trans (List.mem_singleton.mp listed).symm, calm⟩
    exact opened.admit (g := (request.row l.nextFactId clock.insertedAt).disputeAs l.nextConflictId
      disputed.subjectKey disputed.predicateKey) rfl rfl rfl (List.mem_append_right _ List.mem_cons_self) rfl rfl
  | @wins candidate f mem id =>
    have retired : (l.retire candidate.factId (Fact.supersede clock.recordedAt l.nextFactId)).Settled julianday
        allowedScopes := by
      rw [← id]
      exact settled.retire mem (fun _ => ⟨rfl, rfl, rfl, rfl⟩) (fun _ => rfl)
        fun _ => ⟨clock.recordedAt, rfl, timely f mem⟩
    exact retired.insert rfl rfl fun gone => absurd rfl gone
  | loses => exact settled.insert rfl rfl fun _ => ⟨clock.recordedAt, rfl, now⟩

theorem Ledger.Settled.superseded (settled : l.Settled julianday allowedScopes) {survivor : Nat} {now : String}
    (timely : l.Timely julianday now) (h : Superseded l request survivor now l') :
    l'.Settled julianday allowedScopes := by
  cases h with
  | unasked => exact settled
  | @retired old f g asked apart mem id =>
    rw [← id]
    exact settled.retire mem (fun _ => ⟨rfl, rfl, rfl, rfl⟩) (fun _ => rfl) fun _ => ⟨now, rfl, timely f mem⟩

theorem Ledger.Settled.typed (settled : l.Settled julianday allowedScopes) {slot : SlotDecision}
    {effective : StateCandidate} {confidence : Option Rat} (timely : l.Timely julianday clock.recordedAt)
    (now : NotAfter julianday clock.insertedAt clock.recordedAt)
    (hidden : slot.action = .supersede → slot.targetFactId = none → ∀ c ∈ l.groupsOf slot.currentFactIds,
      l.LosersHidden allowedScopes c l.nextFactId)
    (effect : StateEffect rt l context request slot effective confidence clock l') :
    l'.Settled julianday allowedScopes := by
  cases effect with
  | evidence => exact settled
  | add => exact settled.insert rfl rfl fun gone => absurd rfl gone
  | @replace target f action aimed mem id =>
    have retired : (l.retire target (Fact.outdate clock.recordedAt effective.validFrom l.nextFactId)).Settled
        julianday allowedScopes := by
      rw [← id]
      exact settled.retire mem (fun _ => ⟨rfl, rfl, rfl, rfl⟩) (fun _ => rfl)
        fun _ => ⟨clock.recordedAt, rfl, timely f mem⟩
    exact retired.insert rfl rfl fun gone => absurd rfl gone
  | @dispute detail _ _ _ _ _ members =>
    have opened : (l.openConflict (.detected l.nextConflictId (Text.strip slot.scope) (Text.strip slot.subjectKey)
        (Text.strip slot.predicateKey) clock.recordedAt detail) slot.currentFactIds
        (Fact.dispute l.nextConflictId)).Settled julianday allowedScopes := by
      refine settled.openConflict rfl rfl rfl (fun f => ⟨⟨rfl, rfl, rfl, rfl⟩, rfl, rfl, rfl⟩) fun k listed => ?_
      obtain ⟨f, hf, id, -, -, -, calm⟩ := members k listed
      exact ⟨f, hf, id, calm⟩
    exact opened.admit rfl rfl rfl (List.mem_append_right _ List.mem_cons_self) rfl rfl
  | join _ _ _ mem id unresolved => exact settled.admit rfl rfl rfl mem id unresolved
  | @settle conflictId row _ _ action group wide mem id unresolved _ _ _ resolved =>
    have joined := settled.admit (g := request.typed effective (some conflictId) confidence l.nextFactId clock) rfl
      rfl rfl mem id unresolved
    obtain ⟨opened, w, resolves, -, -, rfl, -⟩ := resolveStateConflictSource joined.toKeyed resolved
    refine joined.resolve resolves (fun f hf member other => ?_) fun f hf _ => timely.insert now f hf
    rcases List.mem_append.mp hf with hf | hf
    · refine hidden action wide conflictId (group ▸ List.mem_cons_self) f hf ?_ other
      rcases List.mem_append.mp member with member | member
      · exact member
      · exact absurd (Member.mk.inj (List.mem_singleton.mp member)).2 other
    · rw [List.mem_singleton.mp hf] at other
      exact absurd rfl other

end Writes

/-! ## Histories -/

section Operations
variable {julianday : String → Option Rat} {allowedScopes : Option (List String)} {rt : Runtime} {s t : Store}

/-- The write reads its clocks last, and takes no dispute over from a visible party. -/
structure KeepsCreations (julianday : String → Option Rat) (allowedScopes : Option (List String))
    (svc : WriteService) (context : ConnectionContext) (s : Store) (timed : TimedWrite rt) : Prop where
  timely : s.toLedger.Timely julianday timed.clock.recordedAt
  now : NotAfter julianday timed.clock.insertedAt timed.clock.recordedAt
  hidden : ∀ slot effective, verdict rt svc.policy context s.toLedger timed.item.request timed.item.candidate =
      .ok (.typed slot effective) → slot.action = .supersede → slot.targetFactId = none →
    ∀ c ∈ s.toLedger.groupsOf slot.currentFactIds, s.toLedger.LosersHidden allowedScopes c s.nextFactId

/-- No visible fact is left in a dispute that the operation closes, and the clocks go forward. -/
def Operation.KeepsCreations (julianday : String → Option Rat) (allowedScopes : Option (List String)) (s : Store)
    (o : Operation rt) : Prop :=
  match o with
  | .resolveConflict _ _ conflictId factId _ resolvedAt _ =>
    s.toLedger.LosersHidden allowedScopes conflictId factId ∧
      ∀ f ∈ s.facts, ⟨conflictId, f.factId⟩ ∈ s.members → NotAfter julianday f.createdAt resolvedAt
  | .eraseFact factId _ _ _ => ∀ row ∈ s.conflicts, row.resolvedAt = none →
    ((s.members.filter fun m => !decide (m.factId = factId)).filter (·.conflictId = row.conflictId)).length ≤ 1 →
      s.toLedger.LosersHidden allowedScopes row.conflictId factId
  | .mergeClusters plan _ _ _ => o.Planned s ∧ plan.Timely julianday s.toLedger
  | _ => o.WritesMeet (fun svc context s timed _ => Enfold.KeepsCreations julianday allowedScopes svc context s timed) s

theorem stepSettled {svc : WriteService} {effective : ConnectionContext} {timed : TimedWrite rt}
    {query : Option (List Rat)} {outcome : WriteOutcome}
    (authorized : svc.policy.authorizeContext rt svc.legacyAuthorized effective = .ok effective)
    (keeps : KeepsCreations julianday allowedScopes svc effective s timed)
    (h : batchStep rt svc effective s (timed, query) = .ok (t, outcome))
    (settled : s.toLedger.Settled julianday allowedScopes) : t.toLedger.Settled julianday allowedScopes := by
  obtain ⟨extracted, -, -, done⟩ := batchStepSource authorized h
  have effect := transactEffect settled.toKeyed done
  generalize t.toLedger = l at effect ⊢
  cases effect with
  | same => exact settled
  | untyped _ _ _ _ effect superseded =>
    exact (settled.untyped keeps.timely keeps.now effect).superseded (effect.timely keeps.timely keeps.now) superseded
  | typed _ _ judged effect =>
    exact settled.typed keeps.timely keeps.now (keeps.hidden _ _ judged) effect

theorem performSettled {o : Operation rt} (keeps : o.KeepsCreations julianday allowedScopes s)
    (done : o.perform s = .ok t) (settled : s.toLedger.Settled julianday allowedScopes) :
    t.toLedger.Settled julianday allowedScopes := by
  cases o with
  | write svc context timed =>
    exact writeKeeps (P := fun s => s.toLedger.Settled julianday allowedScopes) stepSettled keeps done settled
  | writeBatch svc context writes rollbackIf completes =>
    exact batchKeeps (P := fun s => s.toLedger.Settled julianday allowedScopes) stepSettled id keeps done settled
  | resolveConflict svc context conflictId factId reason resolvedAt queuedAt =>
    obtain ⟨hidden, timely⟩ := keeps
    simp only [Operation.perform, bindOk, Prod.exists] at done
    obtain ⟨effective, -, u, resolution, resolved, last⟩ := done
    cases last
    obtain ⟨clients, sessions, resolutions, jobs, l, changed, rfl⟩ := resolveConflictSource resolved
    obtain ⟨row, w, resolves, -, -, rfl, -⟩ := resolveStateConflictSource settled.toKeyed changed
    exact settled.resolve resolves hidden timely
  | eraseFact factId requestedBy reason erasedAt =>
    simp only [Operation.perform, bindOk, Prod.exists] at done
    obtain ⟨u, report, erased, last⟩ := done
    cases last
    obtain ⟨insights, conflicts, linked, erased, -⟩ := eraseFactSource erased
    obtain ⟨cited, lonely, left, active, few⟩ := eraseLedgerSource settled.toKeyed erased
    rw [left]
    exact settled.erase active fun row hr open' listed => keeps row hr open' (few row.conflictId listed)
  | mergeClusters plan least most fraction =>
    obtain ⟨⟨similarity, threshold, floodCutoff, chosen, planned⟩, timely⟩ := keeps
    simp only [Operation.perform, executeMerge, bindOk] at done
    obtain ⟨-, -, -, -, last⟩ := done
    cases last
    exact mergedSettled (plannedCalm settled.factIds planned) timely settled
  | storeEmbedding =>
    cases done
    exact settled

theorem emptySettled : Store.empty.toLedger.Settled julianday allowedScopes where
  toKeyed := soundEmpty.toKeyed
  filed _ hm := absurd hm List.not_mem_nil
  marked _ hf := absurd hf List.not_mem_nil
  parties _ hf := absurd hf List.not_mem_nil
  replaced _ hf := absurd hf List.not_mem_nil
  electedBound _ hr := absurd hr List.not_mem_nil
  elected _ hr := absurd hr List.not_mem_nil

def Ledger.Disputed (l : Ledger) (f : Fact) : Prop := ∃ c, l.PartyOf c f.factId

/-- Every visible fact outside the open disputes has its creation listed, no later than what else is listed of
it; a party of an open one has none. -/
structure SettledComplete (julianday : String → Option Rat) (l : Ledger) (allowedScopes : Option (List String))
    (since until' : Option String) (events : List SettledEvent) : Prop where
  created : ∀ f ∈ l.facts, f.seenUnder allowedScopes = true → ¬ l.Disputed f →
    inWindow julianday since until' f.createdAt = true → ⟨.created, f.createdAt, f⟩ ∈ events
  ended : ∀ e ∈ events, e.kind ≠ .created → ¬ l.Disputed e.fact → ∃ whole first,
    settledFactEvents julianday l allowedScopes none none = .ok whole ∧ ⟨.created, first, e.fact⟩ ∈ whole ∧
      NotAfter julianday first e.changedAt
  withheld : ∀ e ∈ events, l.Disputed e.fact → e.kind ≠ .created

theorem settledWhole {l : Ledger} {since until' : Option String} {events : List SettledEvent}
    (listed : settledFactEvents julianday l allowedScopes since until' = .ok events) :
    ∃ whole, settledFactEvents julianday l allowedScopes none none = .ok whole := by
  simp only [settledFactEvents, bindOk, ensureOk] at listed ⊢
  obtain ⟨-, -, scopes, named, -⟩ := listed
  exact ⟨_, (), rfl, scopes, named, rfl⟩

/-- In every history that settles no dispute over a visible party, the settled events are complete. -/
theorem settledComplete {ops : List (Operation rt)}
    (keeps : Run.Meets Operation.perform (Operation.KeepsCreations julianday allowedScopes) Store.empty ops)
    {since until' : Option String} {events : List SettledEvent}
    (listed : settledFactEvents julianday (history ops).toLedger allowedScopes since until' = .ok events) :
    SettledComplete julianday (history ops).toLedger allowedScopes since until' events := by
  have settled : (history ops).toLedger.Settled julianday allowedScopes :=
    Run.invariantWhen (P := fun s : Store => s.toLedger.Settled julianday allowedScopes)
      (fun _ _ _ keeps done settled => performSettled keeps done settled) keeps emptySettled
  have calm : ∀ f ∈ (history ops).facts, f.seenUnder allowedScopes = true →
      ¬ (history ops).toLedger.Disputed f → f.conflictGroup = none := by
    intro f hf seen undisputed
    cases group : f.conflictGroup with
    | none => rfl
    | some c => exact absurd ⟨c, settled.marked f hf seen c group⟩ undisputed
  refine ⟨fun f hf seen undisputed inside => ?_, fun e he kind undisputed => ?_, fun e he disputed kind => ?_⟩
  · exact (settledSource listed settled.factIds).mpr ⟨inside, hf, seen, calm f hf seen undisputed, rfl⟩
  · obtain ⟨-, mem, seen, recorded⟩ := (settledSource listed settled.factIds).mp he
    obtain ⟨whole, complete⟩ := settledWhole listed
    refine ⟨whole, e.fact.createdAt, complete, (settledSource complete settled.factIds).mpr
      ⟨rfl, mem, seen, calm e.fact mem seen undisputed, rfl⟩, ?_⟩
    cases sort : e.kind with
    | created => exact absurd sort kind
    | superseded =>
      rw [sort] at recorded
      obtain ⟨changedAt, invalid, timely⟩ := settled.replaced e.fact mem recorded.1
      rwa [Option.some.inj (recorded.2.symm.trans invalid)]
    | resolved =>
      rw [sort] at recorded
      obtain ⟨row, hr, closed, won⟩ := recorded
      exact settled.elected row hr e.changedAt closed e.fact mem won
  · obtain ⟨-, mem, -, recorded⟩ := (settledSource listed settled.factIds).mp he
    obtain ⟨c, party⟩ := disputed
    rw [kind] at recorded
    have group := settled.parties e.fact mem c party
    rw [recorded.1] at group
    cases group

end Operations
namespace Example

def julianDay (text : String) : Option Rat :=
  (calendarDate text).map fun date => (date.wall : Rat) / 86400000000 + 4881175 / 2

def discreet : WriteService :=
  { WriteService.ofPolicy ⟨[("host", ["private", "sensitive"])], [], [], ["host"]⟩ with
    nearDedup := { NearDedupConfig.standard none with enabled := false } }

def insider : ConnectionContext := .plain "host" "cli" "agent" "session" ["private", "sensitive"]

def sensitiveEditor : TimedWrite .plain where
  clock := .at "2026-01-03"
  item := {
    request := { WriteRequest.plain "k2" "The editor is emacs" "user" with sensitivity := "sensitive" }
    candidate := none
    requestBuilt := by decide +kernel
    candidateBuilt := WriteItem.unslotted }

theorem vimStated : (WriteRequest.plain "k1" ("The editor is " ++ "vim") "user").postInit =
    .ok (WriteRequest.plain "k1" ("The editor is " ++ "vim") "user") := by
  decide +kernel

theorem emacsStated : (WriteRequest.plain "k2" ("The editor is " ++ "emacs") "user").postInit =
    .ok (WriteRequest.plain "k2" ("The editor is " ++ "emacs") "user") := by
  decide +kernel

def discreetDispute : List (Operation .plain) :=
  [.write discreet insider (editor "k1" "vim" vimStated), .write discreet insider sensitiveEditor,
    .resolveConflict discreet insider 1 1 "vim it is" "2026-01-04" "2026-01-04"]

theorem sameDay : NotAfter julianDay "2026-01-03" "2026-01-03" := ⟨_, _, rfl, rfl, le_refl _⟩

theorem nextDay : NotAfter julianDay "2026-01-03" "2026-01-04" :=
  ⟨_, _, rfl, rfl, by decide +kernel⟩

theorem keepsUntyped {allowedScopes : Option (List String)} {svc : WriteService} {context : ConnectionContext}
    {s : Store} {timed : TimedWrite .plain} (bare : timed.item.candidate = none)
    (now : timed.clock = .at "2026-01-03") (before : ∀ f ∈ s.facts, f.createdAt = "2026-01-03") :
    (Operation.write svc context timed).KeepsCreations julianDay allowedScopes s := by
  intro effective query granted prepared
  refine ⟨fun f hf => ?_, ?_, fun slot effective judged => ?_⟩
  · rw [before f hf, now]
    exact sameDay
  · rw [now]
    exact sameDay
  · obtain ⟨c, decided, given, -⟩ := verdictTyped judged
    rw [bare] at given
    cases given

theorem discreetKeeps : Run.Meets Operation.perform (Operation.KeepsCreations julianDay (some ["private"]))
    Store.empty discreetDispute := by
  refine ⟨keepsUntyped rfl rfl fun _ hf => absurd hf List.not_mem_nil, keepsUntyped rfl rfl (by decide +kernel),
    ⟨?_, fun f hf _ => ?_⟩, trivial⟩
  · unfold Ledger.LosersHidden
    decide +kernel
  · have recorded : ∀ f ∈ (history (discreetDispute.take 2)).facts, f.createdAt = "2026-01-03" := by decide +kernel
    rw [recorded f hf]
    exact nextDay

/-- The winner was created and elected; nobody reads of the loser. -/
theorem settledCompleteHere : ∃ events, settledFactEvents julianDay (history discreetDispute).toLedger
    (some ["private"]) none none = .ok events ∧
      events.map (fun e => (e.kind, e.fact.factId)) = [(.created, 1), (.resolved, 1)] ∧
      SettledComplete julianDay (history discreetDispute).toLedger (some ["private"]) none none events := by
  have shown : (settledFactEvents julianDay (history discreetDispute).toLedger (some ["private"]) none
      none).toOption.map (List.map fun e => (e.kind, e.fact.factId)) = some [(.created, 1), (.resolved, 1)] := by
    decide +kernel
  cases listed : settledFactEvents julianDay (history discreetDispute).toLedger (some ["private"]) none none with
  | error raised =>
    rw [listed] at shown
    cases shown
  | ok events =>
    rw [listed] at shown
    exact ⟨events, rfl, Option.some.inj shown, settledComplete discreetKeeps listed⟩

def outvoted : List (Operation .plain) :=
  [.write arbiter caller (editor "k1" "vim" vimStated),
    .write arbiter caller (editor "k2" "emacs" emacsStated),
    .resolveConflict arbiter caller 1 1 "vim it is" "2026-01-04" "2026-01-04"]

/-- The loser is superseded, and was never created. -/
theorem loserUncreated : ∃ events, settledFactEvents julianDay (history outvoted).toLedger (some ["private"]) none
    none = .ok events ∧
      events.map (fun e => (e.kind, e.fact.factId)) = [(.created, 1), (.superseded, 2), (.resolved, 1)] ∧
      ¬ SettledComplete julianDay (history outvoted).toLedger (some ["private"]) none none events := by
  have shown : (settledFactEvents julianDay (history outvoted).toLedger (some ["private"]) none
      none).toOption.map (List.map fun e => (e.kind, e.fact.factId)) =
        some [(.created, 1), (.superseded, 2), (.resolved, 1)] := by
    decide +kernel
  have stored : ∃ f ∈ (history outvoted).facts, f.factId = 2 ∧ f.seenUnder (some ["private"]) = true := by
    decide +kernel
  have closed : ∀ row ∈ (history outvoted).conflicts, row.resolvedAt ≠ none := by decide +kernel
  cases listed : settledFactEvents julianDay (history outvoted).toLedger (some ["private"]) none none with
  | error raised =>
    rw [listed] at shown
    cases shown
  | ok events =>
    rw [listed] at shown
    have kinds : events.map (fun e => (e.kind, e.fact.factId)) = _ := Option.some.inj shown
    refine ⟨events, rfl, kinds, fun complete => ?_⟩
    obtain ⟨f, hf, id, seen⟩ := stored
    have undisputed : ¬ (history outvoted).toLedger.Disputed f := by
      rintro ⟨c, ⟨row, hr, -, unresolved⟩, -⟩
      exact closed row hr unresolved
    have created := List.mem_map_of_mem (f := fun e : SettledEvent => (e.kind, e.fact.factId))
      (complete.created f hf seen undisputed rfl)
    rw [kinds] at created
    simp [id] at created

end Example
end Enfold
