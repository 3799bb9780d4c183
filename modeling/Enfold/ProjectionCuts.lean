import Enfold.Projections

/-! What the projections leave out: each stays within its size, and is the complete answer where it does not
say that something is missing. -/
namespace Enfold

open Fallible KeyOrder

variable {rt : Runtime} {host : ProjectionHost} {l : Ledger} {scopes : List String}

/-! ## Size -/

section Size

theorem escapeBound (c : Char) : (escapeChar c).length ≤ 6 := by
  unfold escapeChar
  repeat' split
  all_goals simp

theorem quoteBound (text : List Char) : CharWeight.characters.width (quote text) ≤ 6 * text.length + 2 := by
  have escaped : (text.flatMap escapeChar).length ≤ 6 * text.length := by
    induction text with
    | nil => exact Nat.le_refl 0
    | cons c text ih =>
      have one := escapeBound c
      rw [List.flatMap_cons, List.length_append, List.length_cons]
      omega
  rw [CharWeight.widthCharacters, quote, List.length_cons, List.length_append, List.length_singleton]
  omega

theorem flagBound (floats : FloatText) (flag : Bool) : (Json.bool flag).size floats .characters ≤ 5 := by
  cases flag with
  | false => exact (sizeFalse floats .characters).le
  | true => exact (sizeTrue floats .characters).le.trans (by decide)

variable {α : Type} {json : α → Json} {items : List α} {limit : Nat}

theorem boundedSize : (Json.arr ((bounded host json items limit).items.map json)).size host.floats .characters ≤
    itemsCharBudget := by
  have within := @Rationed.rationWithin α (fun item => jsonChars host (json item)) itemsCharBudget limit 2 0
    (by decide) (Nat.zero_le 1) items
  have same : ((bounded host json items limit).items.map json).map
        (fun item => 1 + item.size host.floats .characters) =
      (Rationed.ration (fun item => jsonChars host (json item)) itemsCharBudget limit 2 0 items).1.map
        fun item => jsonChars host (json item) + 1 := by
    rw [List.map_map]
    exact List.map_congr_left fun item _ => Nat.add_comm 1 _
  have some' : 2 ≤ itemsCharBudget := by decide
  rw [sizeArr, same]
  omega

theorem listingSize {name : String} {a : Listing α} (plain : name.toList.all plainChar = true)
    (short : name.toList.length ≤ 200) (cut : a.items = (bounded host json items limit).items) :
    jsonChars host (a.json name json) ≤ maxOutputChars := by
  have inside : (Json.arr ((bounded host json items limit).items.map json)).size host.floats .characters ≤
    itemsCharBudget := boundedSize
  have flagged := flagBound host.floats a.truncated
  have budget : itemsCharBudget + 256 = maxOutputChars := by decide
  rw [jsonChars, Listing.json, cut, sizeObj]
  simp only [List.map_cons, List.map_nil, List.sum_cons, List.sum_nil, plainKey plain]
  rw [plainKey (by decide)]
  simp only [String.reduceToList, List.length_cons, List.length_nil]
  omega

theorem boundedLength : (bounded host json items limit).items.length ≤ limit :=
  Rationed.rationRoom _ _ _ _ _ _

theorem boundedPrefix : (bounded host json items limit).items <+: items := Rationed.rationPrefix _ _ _ _ _ _

theorem boundedWhole (unflagged : (bounded host json items limit).truncated = false) :
    (bounded host json items limit).items = items := Rationed.rationFlag.mp unflagged

end Size

/-! ## Shrinking -/

/-- Items are dropped from the ends of the sections, and that is flagged. -/
structure Dossier.CutTo (d e : Dossier) : Prop where
  entity : e.entity = d.entity
  current : e.currentFacts <+: d.currentFacts
  recent : e.recentChanges <+: d.recentChanges
  conflicts : e.openConflicts <+: d.openConflicts
  flagged : e.truncated = false → e = d

theorem Dossier.CutTo.refl (d : Dossier) : d.CutTo d :=
  ⟨rfl, List.prefix_rfl, List.prefix_rfl, List.prefix_rfl, fun _ => rfl⟩

theorem Dossier.CutTo.trans {d e f : Dossier} (first : d.CutTo e) (second : e.CutTo f) : d.CutTo f where
  entity := second.entity.trans first.entity
  current := second.current.trans first.current
  recent := second.recent.trans first.recent
  conflicts := second.conflicts.trans first.conflicts
  flagged unflagged := by
    have same := second.flagged unflagged
    rw [same] at unflagged ⊢
    exact first.flagged unflagged

theorem popCut {d smaller : Dossier} (popped : d.pop = some smaller) : d.CutTo smaller := by
  unfold Dossier.pop at popped
  split at popped
  · obtain rfl := Option.some.inj popped
    exact ⟨rfl, List.prefix_rfl, List.dropLast_prefix _, List.prefix_rfl, fun unflagged => by cases unflagged⟩
  · split at popped
    · obtain rfl := Option.some.inj popped
      exact ⟨rfl, List.dropLast_prefix _, List.prefix_rfl, List.prefix_rfl, fun unflagged => by cases unflagged⟩
    · split at popped
      · obtain rfl := Option.some.inj popped
        exact ⟨rfl, List.prefix_rfl, List.prefix_rfl, List.dropLast_prefix _,
          fun unflagged => by cases unflagged⟩
      · cases popped

theorem popNone {d : Dossier} (stuck : d.pop = none) :
    d.currentFacts = [] ∧ d.recentChanges = [] ∧ d.openConflicts = [] := by
  unfold Dossier.pop at stuck
  split at stuck
  · cases stuck
  · rename_i recent
    split at stuck
    · cases stuck
    · rename_i current
      split at stuck
      · cases stuck
      · rename_i conflicts
        exact ⟨not_ne_iff.mp current, not_ne_iff.mp recent, not_ne_iff.mp conflicts⟩

theorem emptySize {d : Dossier} (short : d.entity.length ≤ maxEntityChars) (current : d.currentFacts = [])
    (recent : d.recentChanges = []) (conflicts : d.openConflicts = []) :
    jsonChars host (d.json host) ≤ maxOutputChars := by
  have named : (Json.str d.entity).size host.floats .characters ≤ 6 * d.entity.length + 2 := by
    rw [← String.length_toList]
    exact quoteBound d.entity.toList
  have flagged := flagBound host.floats d.truncated
  have none' : (Json.arr []).size host.floats .characters = 2 := by rw [sizeArr]; rfl
  have limits : 6 * maxEntityChars + 1000 ≤ maxOutputChars := by decide
  rw [jsonChars, Dossier.json, current, recent, conflicts, sizeObj]
  simp (disch := decide) only [List.map_cons, List.map_nil, List.sum_cons, List.sum_nil, plainKey,
    String.reduceToList, List.length_cons, List.length_nil, none']
  omega

theorem shrinkCut (d : Dossier) (short : d.entity.length ≤ maxEntityChars) :
    d.CutTo (d.shrink host) ∧ jsonChars host ((d.shrink host).json host) ≤ maxOutputChars := by
  fun_induction Dossier.shrink host d with
  | case1 d long smaller popped ih =>
    have cut := popCut popped
    obtain ⟨further, within⟩ := ih (cut.entity ▸ short)
    exact ⟨cut.trans further, within⟩
  | case2 d long stuck =>
    obtain ⟨current, recent, conflicts⟩ := popNone stuck
    exact ⟨.refl d, emptySize short current recent conflicts⟩
  | case3 d fits => exact ⟨.refl d, Nat.not_lt.mp fits⟩

/-! ## What is answered -/

section Source
variable {accessScopes : List String} {params : JsonObject} {limit : Nat}

theorem limitSource {value : Nat} (ok : projectionLimit value = .ok limit) :
    limit = value ∧ 1 ≤ value ∧ value ≤ 200 := by
  simp only [projectionLimit, bindOk, ensureOk, Bool.and_eq_true, decide_eq_true_eq] at ok
  obtain ⟨-, both, last⟩ := ok
  exact ⟨(Except.ok.inj last).symm, both⟩

structure Listing.CutFrom {α : Type} (a : Listing α) (host : ProjectionHost) (json : α → Json) (limit : Nat)
    (rows : List α) (more : Bool) : Prop where
  items : a.items = (bounded host json rows limit).items
  truncated : a.truncated = (more || (bounded host json rows limit).truncated)

theorem cutMade {α : Type} {json : α → Json} {rows : List α} {more : Bool} :
    (⟨(bounded host json rows limit).items, more || (bounded host json rows limit).truncated⟩ :
      Listing α).CutFrom host json limit rows more := by
  constructor
  · rfl
  · rfl

theorem changesSource {since until' : String} {a : Listing ProjectedEvent}
    (ok : changes rt host l since until' scopes limit = .ok a) : ∃ s u cleaned rows,
      projectionTimestamp rt host since "since" = .ok s ∧ projectionTimestamp rt host until' "until" = .ok u ∧
      s < u ∧ projectionScopes scopes = .ok cleaned ∧ limit ≤ 200 ∧
      rows = eventRows host l cleaned (some s) (some u) ∧
      a.CutFrom host (ProjectedEvent.json host) limit rows.items rows.truncated := by
  simp only [changes, bindOk, ensureOk] at ok
  obtain ⟨s, first, u, last, -, earlier, cleaned, some', cap, bound, made⟩ := ok
  obtain ⟨rfl, -, most⟩ := limitSource bound
  obtain rfl := Except.ok.inj made
  exact ⟨s, u, cleaned, _, first, last, of_decide_eq_true earlier, some', most, rfl, cutMade⟩

theorem timelineSource {subjectOrQuery : String} {a : Listing ProjectedEvent}
    (ok : timeline host l subjectOrQuery scopes limit = .ok a) : ∃ cleaned rows matched,
      projectionScopes scopes = .ok cleaned ∧ limit ≤ 200 ∧ rows = eventRows host l cleaned none none ∧
      matched = rows.items.filter (ProjectedEvent.about host (host.casefold (Text.strip subjectOrQuery))) ∧
      a.CutFrom host (ProjectedEvent.json host) limit (matched.rtake limit)
        (rows.truncated || limit < matched.length) := by
  simp only [timeline, bindOk, ensureOk] at ok
  obtain ⟨-, -, -, -, cap, bound, cleaned, some', made⟩ := ok
  obtain ⟨rfl, -, most⟩ := limitSource bound
  obtain rfl := Except.ok.inj made
  exact ⟨cleaned, _, _, some', most, rfl, rfl, cutMade⟩

theorem entitiesSource {minFacts : Nat} {a : Listing EntityRank}
    (ok : entities host l scopes minFacts limit = .ok a) : ∃ cleaned scanned,
      projectionScopes scopes = .ok cleaned ∧ limit ≤ 200 ∧ scanned = activeFacts l cleaned projectionScanLimit ∧
      a.CutFrom host EntityRank.json limit
        (sortedBy (EntityRank.place host) ((rankedEntities (scanned.flatMap (Fact.mentions host))).filter
          (minFacts ≤ ·.factCount)))
        (scanned.length = projectionScanLimit) := by
  simp only [entities, bindOk, ensureOk] at ok
  obtain ⟨-, -, cleaned, some', cap, bound, made⟩ := ok
  obtain ⟨rfl, -, most⟩ := limitSource bound
  obtain rfl := Except.ok.inj made
  exact ⟨cleaned, _, some', most, rfl, cutMade⟩

theorem entityEventsSource (host : ProjectionHost) (l : Ledger) (entity : String) (scopes : List String)
    (limit : Nat) : ∃ rows matched, rows = eventRows host l scopes none none ∧
      matched = rows.items.filter (fun e => e.fact.isAbout host entity) ∧
      (entityEvents host l entity scopes limit).CutFrom host (ProjectedEvent.json host) limit
        (matched.rtake limit) (rows.truncated || limit < matched.length) :=
  ⟨_, _, rfl, rfl, cutMade⟩

theorem dossierSource {reads : DossierReads} {name : String} {d : Dossier}
    (ok : entityDossier host reads name scopes limit = .ok d) :
    ∃ cleaned scanned own recent conflicts, ∃ whole : Dossier, name.length ≤ maxEntityChars ∧
      projectionScopes scopes = .ok cleaned ∧ 1 ≤ limit ∧ limit ≤ 200 ∧
      scanned = activeFacts reads.facts cleaned projectionScanLimit ∧
      own = scanned.filter (Fact.isAbout host (Text.strip name)) ∧
      recent = entityEvents host reads.events (Text.strip name) cleaned limit ∧
      conflicts = entityConflicts host reads.conflicts (Text.strip name) cleaned limit ∧
      whole = ⟨Text.strip name, own.take limit, recent.items, conflicts.items, limit < own.length ||
        scanned.length = projectionScanLimit || conflicts.truncated || recent.truncated⟩ ∧
      d = whole.shrink host := by
  simp only [entityDossier, bindOk, ensureOk] at ok
  obtain ⟨-, -, -, short, cleaned, some', cap, bound, made⟩ := ok
  obtain ⟨rfl, least, most⟩ := limitSource bound
  exact ⟨cleaned, _, _, _, _, _, of_decide_eq_true short, some', least, most, rfl, rfl, rfl, rfl, rfl,
    (Except.ok.inj made).symm⟩

theorem memoryChangesSource {a : Listing ProjectedEvent}
    (ok : memoryChanges rt host l accessScopes params = .ok a) : ∃ scopes since until' limit,
      requestedScopes rt accessScopes ((params.lookup "scope").getD .null) = .ok scopes ∧
      readText "since" ((params.lookup "since").getD .null) = .ok since ∧
      readText "until" ((params.lookup "until").getD .null) = .ok until' ∧
      changes rt host l since until' scopes limit = .ok a := by
  simp only [memoryChanges, bindOk, mapFailureOk] at ok
  obtain ⟨-, -, scopes, asked, since, first, until', last, limit, -, made⟩ := ok
  exact ⟨scopes, since, until', limit, asked, first, last, made⟩

theorem memoryTimelineSource {a : Listing ProjectedEvent}
    (ok : memoryTimeline rt host l accessScopes params = .ok a) : ∃ scopes query limit,
      requestedScopes rt accessScopes ((params.lookup "scope").getD .null) = .ok scopes ∧
      readText "subject_or_query" ((params.lookup "subject_or_query").getD .null) = .ok query ∧
      timeline host l query scopes limit = .ok a := by
  simp only [memoryTimeline, bindOk, mapFailureOk] at ok
  obtain ⟨-, -, scopes, asked, query, text, limit, -, made⟩ := ok
  exact ⟨scopes, query, limit, asked, text, made⟩

theorem memoryEntitiesSource {a : Listing EntityRank}
    (ok : memoryEntities rt host l accessScopes params = .ok a) : ∃ scopes minFacts limit,
      requestedScopes rt accessScopes ((params.lookup "scope").getD .null) = .ok scopes ∧
      readPositiveInt "min_facts" ((params.lookup "min_facts").getD (.int 1)) = .ok minFacts ∧
      entities host l scopes minFacts limit = .ok a := by
  simp only [memoryEntities, bindOk, mapFailureOk] at ok
  obtain ⟨-, -, scopes, asked, minFacts, least, limit, -, made⟩ := ok
  exact ⟨scopes, minFacts, limit, asked, least, made⟩

theorem memoryEntitySource {reads : DossierReads} {d : Dossier}
    (ok : memoryEntity rt host accessScopes params reads = .ok d) : ∃ scopes name limit,
      requestedScopes rt accessScopes ((params.lookup "scope").getD .null) = .ok scopes ∧
      readText "name" ((params.lookup "name").getD .null) = .ok name ∧
      entityDossier host reads name scopes limit = .ok d := by
  simp only [memoryEntity, bindOk, mapFailureOk] at ok
  obtain ⟨-, -, scopes, asked, name, text, limit, -, made⟩ := ok
  exact ⟨scopes, name, limit, asked, text, made⟩

end Source

theorem stripLength (text : String) : (Text.strip text).length ≤ text.length := by
  rw [Text.strip, String.length_ofList, ← String.length_toList, Text.stripWith, List.length_reverse]
  calc ((text.toList.dropWhile Text.isSpace).reverse.dropWhile Text.isSpace).length
      ≤ (text.toList.dropWhile Text.isSpace).reverse.length := (List.dropWhile_sublist _).length_le
    _ = (text.toList.dropWhile Text.isSpace).length := List.length_reverse
    _ ≤ text.toList.length := (List.dropWhile_sublist _).length_le

theorem cutLength {α : Type} {a : Listing α} {json : α → Json} {rows : List α} {limit : Nat} {more : Bool}
    (cut : a.CutFrom host json limit rows more) : a.items.length ≤ limit := by
  rw [cut.items]
  exact boundedLength

/-- Whatever the store holds and whatever is asked, an answer has at most `MAX_OUTPUT_CHARS` characters and
no section of it more than 200 items. -/
theorem projectionsWithin (rt : Runtime) (host : ProjectionHost) (l : Ledger) (reads : DossierReads)
    (accessScopes : List String) (params : JsonObject) :
    (∀ a, memoryChanges rt host l accessScopes params = .ok a →
      jsonChars host (a.json "changes" (ProjectedEvent.json host)) ≤ maxOutputChars ∧ a.items.length ≤ 200) ∧
    (∀ a, memoryTimeline rt host l accessScopes params = .ok a →
      jsonChars host (a.json "events" (ProjectedEvent.json host)) ≤ maxOutputChars ∧ a.items.length ≤ 200) ∧
    (∀ a, memoryEntities rt host l accessScopes params = .ok a →
      jsonChars host (a.json "entities" EntityRank.json) ≤ maxOutputChars ∧ a.items.length ≤ 200) ∧
    ∀ d, memoryEntity rt host accessScopes params reads = .ok d →
      jsonChars host (d.json host) ≤ maxOutputChars ∧ d.currentFacts.length ≤ 200 ∧
        d.recentChanges.length ≤ 200 ∧ d.openConflicts.length ≤ 200 := by
  refine ⟨fun a ok => ?_, fun a ok => ?_, fun a ok => ?_, fun d ok => ?_⟩
  · obtain ⟨scopes, since, until', limit, -, -, -, made⟩ := memoryChangesSource ok
    obtain ⟨s, u, cleaned, rows, -, -, -, -, most, -, cut⟩ := changesSource made
    exact ⟨listingSize (by decide) (by decide) cut.items, (cutLength cut).trans most⟩
  · obtain ⟨scopes, query, limit, -, -, made⟩ := memoryTimelineSource ok
    obtain ⟨cleaned, rows, matched, -, most, -, -, cut⟩ := timelineSource made
    exact ⟨listingSize (by decide) (by decide) cut.items, (cutLength cut).trans most⟩
  · obtain ⟨scopes, minFacts, limit, -, -, made⟩ := memoryEntitiesSource ok
    obtain ⟨cleaned, scanned, -, most, -, cut⟩ := entitiesSource made
    exact ⟨listingSize (by decide) (by decide) cut.items, (cutLength cut).trans most⟩
  · obtain ⟨scopes, name, limit, -, -, made⟩ := memoryEntitySource ok
    obtain ⟨cleaned, scanned, own, recent, conflicts, whole, short, -, -, most, -, -, events, disputes, start,
      rfl⟩ := dossierSource made
    have entity : whole.entity.length ≤ maxEntityChars := by
      rw [start]
      exact (stripLength name).trans short
    obtain ⟨cut, within⟩ := @shrinkCut host whole entity
    obtain ⟨rows, matched, -, -, drawn⟩ := entityEventsSource host reads.events (Text.strip name) cleaned limit
    refine ⟨within, cut.current.length_le.trans ?_, cut.recent.length_le.trans ?_,
      cut.conflicts.length_le.trans ?_⟩
    · rw [start]
      exact (List.length_take_le limit own).trans most
    · rw [start, events]
      exact (cutLength drawn).trans most
    · rw [start, disputes]
      exact (List.length_take_le limit _).trans most

/-! ## Completeness -/

/-- Part of a complete answer, and all of it unless flagged. -/
structure Listing.PartOf {α : Type} (a : Listing α) (complete : List α) : Prop where
  part : a.items <:+: complete
  whole : a.truncated = false → a.items = complete

section Events
variable {since until' : Option String} {a : Listing ProjectedEvent} {limit : Nat}

theorem eventRowsItems : (eventRows host l scopes since until').items =
    (l.eventsBetween host scopes since until').rtake projectionScanLimit := by
  unfold eventRows
  rfl

theorem eventRowsWhole (unflagged : (eventRows host l scopes since until').truncated = false) :
    (eventRows host l scopes since until').items = l.eventsBetween host scopes since until' := by
  unfold eventRows at unflagged ⊢
  exact Rationed.lastWhole (of_decide_eq_false unflagged)

theorem changesPart {rows : Listing ProjectedEvent} (scanned : rows = eventRows host l scopes since until')
    (cut : a.CutFrom host (ProjectedEvent.json host) limit rows.items rows.truncated) :
    a.PartOf (l.eventsBetween host scopes since until') := by
  have suffix : rows.items <:+ l.eventsBetween host scopes since until' := by
    rw [scanned, eventRowsItems]
    exact Rationed.lastSuffix _ _
  constructor
  · rw [cut.items]
    exact boundedPrefix.isInfix.trans suffix.isInfix
  · intro unflagged
    rw [cut.truncated, Bool.or_eq_false_iff] at unflagged
    rw [cut.items, boundedWhole unflagged.2, scanned]
    exact eventRowsWhole (scanned ▸ unflagged.1)

theorem recentPart {rows : Listing ProjectedEvent} {matched : List ProjectedEvent}
    {about : ProjectedEvent → Bool} (scanned : rows = eventRows host l scopes since until')
    (among : matched = rows.items.filter about)
    (cut : a.CutFrom host (ProjectedEvent.json host) limit (matched.rtake limit)
      (rows.truncated || limit < matched.length)) :
    a.PartOf ((l.eventsBetween host scopes since until').filter about) := by
  have suffix : matched <:+ (l.eventsBetween host scopes since until').filter about := by
    rw [among, scanned, eventRowsItems]
    exact (Rationed.lastSuffix _ _).filter about
  constructor
  · rw [cut.items]
    exact boundedPrefix.isInfix.trans ((Rationed.lastSuffix limit matched).trans suffix).isInfix
  · intro unflagged
    simp only [cut.truncated, Bool.or_eq_false_iff, decide_eq_false_iff_not, Nat.not_lt] at unflagged
    obtain ⟨⟨reached, few⟩, kept⟩ := unflagged
    rw [cut.items, boundedWhole kept, Rationed.lastAll few, among, scanned, eventRowsWhole (scanned ▸ reached)]

end Events

def Ledger.newestFacts (l : Ledger) (scopes : List String) : List Fact :=
  (sortedBy Fact.factId (l.facts.filter fun f =>
    f.current && f.conflictGroup.isNone && f.visibleIn scopes)).reverse

theorem activeFactsPrefix {limit : Nat} : activeFacts l scopes limit <+: l.newestFacts scopes :=
  List.take_prefix _ _

theorem activeFactsWhole {limit : Nat} (short : (activeFacts l scopes limit).length ≠ limit) :
    activeFacts l scopes limit = l.newestFacts scopes := by
  change ((l.newestFacts scopes).take limit).length ≠ limit at short
  rw [List.length_take] at short
  have room : (l.newestFacts scopes).length ≤ limit := by omega
  exact List.take_of_length_le room

def rankEntities (host : ProjectionHost) (facts : List Fact) (minFacts : Nat) : List EntityRank :=
  sortedBy (EntityRank.place host)
    ((rankedEntities (facts.flatMap (Fact.mentions host))).filter (minFacts ≤ ·.factCount))

/-! ## Conflicts -/

section Conflicts
variable {entity : String} {limit : Nat} {c : Conflict}

def Ledger.partiesInOrder (l : Ledger) (scopes : List String) (c : Conflict) : List Fact :=
  (sortedBy id (l.visibleMembers scopes c)).flatMap fun factId =>
    l.facts.filter fun f => f.factId = factId && f.scope = c.scope

def Ledger.dossierConflict (l : Ledger) (scopes : List String) (limit : Nat) (c : Conflict) :
    DossierConflict where
  conflict := c
  members := (l.partyRows scopes limit c).map PartyRow.member
  membersTruncated := limit < (l.visibleMembers scopes c).length

def Ledger.Scoped (l : Ledger) : Prop :=
  ∀ c ∈ l.conflicts, c.resolvedAt = none → ∀ m ∈ l.members, m.conflictId = c.conflictId →
    ∀ f ∈ l.facts, f.factId = m.factId → f.scope = c.scope

theorem partyRowsSource {row : PartyRow} (listed : row ∈ l.partyRows scopes limit c) :
    row.conflict = c ∧ row.memberCount = (l.visibleMembers scopes c).length := by
  obtain ⟨factId, -, inside⟩ := List.mem_flatMap.mp listed
  obtain ⟨f, -, rfl⟩ := List.mem_map.mp inside
  exact ⟨rfl, (sortedByPerm id _).length_eq⟩

theorem partyRowsMembers : (l.partyRows scopes limit c).map PartyRow.member =
    ((sortedBy id (l.visibleMembers scopes c)).take limit).flatMap fun factId =>
      l.facts.filter fun f => f.factId = factId && f.scope = c.scope := by
  rw [Ledger.partyRows, List.map_flatMap]
  refine List.flatMap_congr fun factId _ => ?_
  rw [List.map_map]
  exact List.map_id _

theorem partyRowsPrefix : (l.dossierConflict scopes limit c).members <+: l.partiesInOrder scopes c := by
  rw [Ledger.dossierConflict, partyRowsMembers]
  obtain ⟨rest, whole⟩ := List.take_prefix limit (sortedBy id (l.visibleMembers scopes c))
  refine ⟨rest.flatMap fun factId => l.facts.filter fun f => f.factId = factId && f.scope = c.scope, ?_⟩
  rw [← List.flatMap_append, whole]
  rfl

theorem dossierConflictWhole (few : (l.dossierConflict scopes limit c).membersTruncated = false) :
    l.dossierConflict scopes limit c = ⟨c, l.partiesInOrder scopes c, false⟩ := by
  have short : (sortedBy id (l.visibleMembers scopes c)).length ≤ limit := by
    rw [(sortedByPerm id _).length_eq]
    exact Nat.not_lt.mp (of_decide_eq_false few)
  rw [Ledger.dossierConflict, DossierConflict.mk.injEq]
  refine ⟨rfl, ?_, few⟩
  rw [partyRowsMembers, List.take_of_length_le short]
  rfl

theorem partyRowsSome (confined : l.Scoped) (least : 1 ≤ limit) (open' : c ∈ l.conflicts)
    (disputed : l.disputes host entity scopes c = true) : l.partyRows scopes limit c ≠ [] := by
  simp only [Ledger.disputes, Bool.and_eq_true, Option.isNone_iff_eq_none, decide_eq_true_eq, ne_eq] at disputed
  obtain ⟨⟨unresolved, parties⟩, -⟩ := disputed
  obtain ⟨f, party⟩ := List.exists_mem_of_ne_nil _ parties
  obtain ⟨m, member, own⟩ := List.mem_flatMap.mp party
  obtain ⟨stored, shape⟩ := List.mem_filter.mp own
  simp only [Bool.and_eq_true, decide_eq_true_eq] at shape
  have seen : f.factId ∈ l.visibleMembers scopes c := by
    refine List.mem_flatMap.mpr ⟨m, member, List.mem_map.mpr ⟨f, List.mem_filter.mpr ⟨stored, ?_⟩, rfl⟩⟩
    simp [shape.1.1, shape.2]
  -- the first of the visible members, whichever it is, is of the scope
  cases ranked : sortedBy id (l.visibleMembers scopes c) with
  | nil =>
    have gone := (@sortedByMem Nat Nat _ id (l.visibleMembers scopes c) f.factId).mpr seen
    rw [ranked] at gone
    exact absurd gone List.not_mem_nil
  | cons factId rest =>
    have first : factId ∈ l.visibleMembers scopes c := by
      rw [← @sortedByMem Nat Nat _ id, ranked]
      exact List.mem_cons_self
    obtain ⟨n, counted, inside⟩ := List.mem_flatMap.mp first
    obtain ⟨g, among, rfl⟩ := List.mem_map.mp inside
    obtain ⟨mem, shown⟩ := List.mem_filter.mp among
    simp only [Bool.and_eq_true, decide_eq_true_eq] at shown
    obtain ⟨listed, filed⟩ := List.mem_filter.mp counted
    have scope := confined c open' unresolved n listed (of_decide_eq_true filed) g mem shown.1
    intro none'
    have missing : (l.partyRows scopes limit c).map PartyRow.member = [] := by rw [none']; rfl
    rw [partyRowsMembers, ranked, List.flatMap_eq_nil_iff] at missing
    obtain ⟨n, rfl⟩ := Nat.exists_eq_add_of_le' least
    have gone := missing g.factId (by rw [List.take_succ_cons]; exact List.mem_cons_self)
    exact absurd (List.mem_filter.mpr ⟨mem, by simp [scope]⟩) (gone ▸ List.not_mem_nil)

theorem gatherMembers {done : List DossierConflict} {own : DossierConflict} {rows rest : List PartyRow}
    (same : ∀ row ∈ rows, row.conflict.conflictId = own.conflict.conflictId) :
    gatherConflicts limit done (some own) (rows ++ rest) =
      gatherConflicts limit done
        (some { own with members := own.members ++ rows.map PartyRow.member }) rest := by
  induction rows generalizing own with
  | nil => simp
  | cons row rows ih =>
    have here : (some own).any (·.conflict.conflictId = row.conflict.conflictId) = true := by
      simp [same row List.mem_cons_self]
    rw [List.cons_append, gatherConflicts, if_pos here, Option.map_some, ih fun row inside => ?_]
    · simp
    · exact same row (List.mem_cons_of_mem _ inside)

theorem gatherEach {done : List DossierConflict} {current : Option DossierConflict} {cs : List Conflict}
    (some' : ∀ c ∈ cs, l.partyRows scopes limit c ≠ []) (distinct : Table.Unique Conflict.conflictId cs)
    (apart : ∀ own ∈ current, ∀ c ∈ cs, own.conflict.conflictId ≠ c.conflictId)
    (room : done.length + current.toList.length + cs.length ≤ limit + 1) :
    gatherConflicts limit done current (cs.flatMap (l.partyRows scopes limit)) =
      done ++ current.toList ++ cs.map (l.dossierConflict scopes limit) := by
  induction cs generalizing done current with
  | nil => simp [gatherConflicts]
  | cons c cs ih =>
    obtain ⟨row, rows, shape⟩ := List.exists_cons_of_ne_nil (some' c List.mem_cons_self)
    have source {r : PartyRow} (inside : r ∈ row :: rows) : r.conflict = c ∧
        r.memberCount = (l.visibleMembers scopes c).length := partyRowsSource (shape ▸ inside)
    obtain ⟨own, counted⟩ := source List.mem_cons_self
    have other : current.any (·.conflict.conflictId = row.conflict.conflictId) = false := by
      rw [own]
      cases current with
      | none => rfl
      | some own => simpa using apart own rfl c List.mem_cons_self
    have cursor : ¬ limit < (done ++ current.toList).length := by
      rw [List.length_cons] at room
      rw [List.length_append]
      omega
    have gathered : (⟨row.conflict, [row.member] ++ rows.map PartyRow.member, limit < row.memberCount⟩ :
        DossierConflict) = l.dossierConflict scopes limit c := by
      rw [Ledger.dossierConflict, shape, own, counted]
      rfl
    obtain ⟨fresh, later⟩ := List.nodup_cons.mp distinct
    rw [List.flatMap_cons, shape, List.cons_append, gatherConflicts, if_neg (by simp [other]), if_neg cursor,
      gatherMembers fun r inside => by rw [(source (List.mem_cons_of_mem _ inside)).1, own]]
    dsimp only
    rw [gathered, ih (fun c inside => some' c (List.mem_cons_of_mem _ inside)) later]
    · simp
    · intro held same d inside
      obtain rfl := Option.some.inj same
      exact fun equal => fresh (List.mem_map.mpr ⟨d, inside, equal.symm⟩)
    · rw [List.length_append, Option.toList_some, List.length_singleton]
      rw [List.length_cons] at room
      omega

theorem conflictsAboutDistinct (distinct : Table.Unique Conflict.conflictId l.conflicts) (apart : scopes.Nodup) :
    Table.Unique Conflict.conflictId (l.conflictsAbout host entity scopes) := by
  have named : scopes.zipIdx.Pairwise fun a b => a.1 ≠ b.1 := by
    have whole : (scopes.zipIdx.map Prod.fst).Nodup := by rwa [List.zipIdx_map_fst]
    exact List.pairwise_map.mp whole
  have listed (scope : String) {id : Nat} (inside : id ∈ ((l.conflicts.filter fun c =>
      c.scope = scope && l.disputes host entity scopes c).map Conflict.conflictId)) :
      ∃ c ∈ l.conflicts, c.conflictId = id ∧ c.scope = scope := by
    obtain ⟨c, among, rfl⟩ := List.mem_map.mp inside
    obtain ⟨stored, shape⟩ := List.mem_filter.mp among
    exact ⟨c, stored, rfl, of_decide_eq_true (Bool.and_eq_true_iff.mp shape).1⟩
  have flat : (scopes.zipIdx.flatMap fun pair => (l.conflicts.filter fun c =>
      c.scope = pair.1 && l.disputes host entity scopes c).map Conflict.conflictId).Nodup := by
    refine List.nodup_flatMap.mpr ⟨fun pair _ => ?_, named.imp fun {a b} differ id left right => ?_⟩
    · exact distinct.sublist (List.filter_sublist.map _)
    · obtain ⟨c, stored, rfl, here⟩ := listed a.1 left
      obtain ⟨d, other, same, there⟩ := listed b.1 right
      obtain rfl := Table.uniqueEq distinct other stored same
      exact differ (here.symm.trans there)
  rw [Table.Unique, Ledger.conflictsAbout, List.map_map]
  refine (((sortedByPerm _ _).map _).nodup_iff).mpr ?_
  rw [List.map_flatMap]
  simpa only [List.map_map, Function.comp_def] using flat

theorem conflictsAboutSource (listed : c ∈ l.conflictsAbout host entity scopes) :
    c ∈ l.conflicts ∧ l.disputes host entity scopes c = true := by
  obtain ⟨pair, sorted, rfl⟩ := List.mem_map.mp listed
  obtain ⟨⟨scope, ordinal⟩, -, inside⟩ := List.mem_flatMap.mp (sortedByMem.mp sorted)
  obtain ⟨c, among, rfl⟩ := List.mem_map.mp inside
  obtain ⟨stored, shape⟩ := List.mem_filter.mp among
  exact ⟨stored, (Bool.and_eq_true_iff.mp shape).2⟩

theorem entityConflictsGathered (distinct : Table.Unique Conflict.conflictId l.conflicts) (apart : scopes.Nodup)
    (confined : l.Scoped) (least : 1 ≤ limit) :
    gatherConflicts limit [] none
        (((l.conflictsAbout host entity scopes).take (limit + 1)).flatMap (l.partyRows scopes limit)) =
      ((l.conflictsAbout host entity scopes).take (limit + 1)).map (l.dossierConflict scopes limit) := by
  have each : ∀ c ∈ (l.conflictsAbout host entity scopes).take (limit + 1), l.partyRows scopes limit c ≠ [] := by
    intro c inside
    obtain ⟨stored, disputed⟩ := conflictsAboutSource (List.mem_of_mem_take inside)
    exact partyRowsSome confined least stored disputed
  have once : Table.Unique Conflict.conflictId ((l.conflictsAbout host entity scopes).take (limit + 1)) := by
    rw [Table.Unique, List.map_take]
    exact (conflictsAboutDistinct distinct apart).sublist (List.take_sublist _ _)
  exact gatherEach each once (fun own none' => by cases none') (by simp)

end Conflicts

/-! ## Honesty -/

def completeDossier (host : ProjectionHost) (reads : DossierReads) (entity : String) (scopes : List String) :
    Dossier where
  entity := entity
  currentFacts := (reads.facts.newestFacts scopes).filter (Fact.isAbout host entity)
  recentChanges := (reads.events.eventsBetween host scopes none none).filter fun e => e.fact.isAbout host entity
  openConflicts := (reads.conflicts.conflictsAbout host entity scopes).map fun c =>
    ⟨c, reads.conflicts.partiesInOrder scopes c, false⟩
  truncated := false

structure DossierConflict.PartOf (c complete : DossierConflict) : Prop where
  conflict : c.conflict = complete.conflict
  members : c.members <+: complete.members
  whole : c.membersTruncated = false → c = complete

/-- Each section is part of the complete one, and all of it unless the dossier is flagged. -/
structure Dossier.PartOf (d complete : Dossier) : Prop where
  entity : d.entity = complete.entity
  current : d.currentFacts <+: complete.currentFacts
  recent : d.recentChanges <:+: complete.recentChanges
  conflicts : ∃ shown, shown <+: complete.openConflicts ∧
    List.Forall₂ DossierConflict.PartOf d.openConflicts shown
  whole : d.truncated = false → d = complete

theorem dossierPart {reads : DossierReads} {name : String} {limit : Nat} {d : Dossier}
    (distinct : Table.Unique Conflict.conflictId reads.conflicts.conflicts) (confined : reads.conflicts.Scoped)
    (ok : entityDossier host reads name scopes limit = .ok d) :
    ∃ cleaned, projectionScopes scopes = .ok cleaned ∧
      d.PartOf (completeDossier host reads (Text.strip name) cleaned) := by
  obtain ⟨cleaned, scanned, own, recent, conflicts, whole, short, clean, least, most, rfl, rfl, events, disputes,
    start, rfl⟩ := dossierSource ok
  have apart : cleaned.Nodup := by
    simp only [projectionScopes, bindOk, ensureOk] at clean
    obtain ⟨-, -, last⟩ := clean
    rw [← Except.ok.inj last]
    exact firstsDistinct _
  have entity : whole.entity.length ≤ maxEntityChars := by
    rw [start]
    exact (stripLength name).trans short
  obtain ⟨cut, -⟩ := @shrinkCut host whole entity
  obtain ⟨rows, matched, scan, among, drawn⟩ :=
    entityEventsSource host reads.events (Text.strip name) cleaned limit
  have changed := recentPart scan among drawn
  have gathered := @entityConflictsGathered host reads.conflicts cleaned (Text.strip name) limit distinct apart
    confined least
  have listed : conflicts.items =
      ((reads.conflicts.conflictsAbout host (Text.strip name) cleaned).take limit).map
        (reads.conflicts.dossierConflict cleaned limit) := by
    rw [disputes, entityConflicts]
    dsimp only
    rw [gathered, ← List.map_take, List.take_take, Nat.min_eq_left (Nat.le_succ limit)]
  refine ⟨cleaned, clean, cut.entity.trans (by rw [start]; rfl), ?_, ?_, ?_, fun unflagged => ?_⟩
  · refine cut.current.trans ?_
    rw [start]
    exact (List.take_prefix _ _).trans (activeFactsPrefix.filter _)
  · refine cut.recent.isInfix.trans ?_
    rw [start, events]
    exact changed.part
  · have shown := cut.conflicts
    rw [(congrArg Dossier.openConflicts start).trans listed] at shown
    obtain ⟨cs, part, same⟩ := List.prefix_map_iff.mp shown
    refine ⟨cs.map fun c => ⟨c, reads.conflicts.partiesInOrder cleaned c, false⟩,
      (part.trans (List.take_prefix _ _)).map _, ?_⟩
    rw [same, List.forall₂_map_left_iff, List.forall₂_map_right_iff, List.forall₂_same]
    exact fun c _ => ⟨rfl, partyRowsPrefix, dossierConflictWhole⟩
  · have same := cut.flagged unflagged
    rw [same] at unflagged ⊢
    rw [start] at unflagged ⊢
    simp only [Bool.or_eq_false_iff, decide_eq_false_iff_not, Nat.not_lt] at unflagged
    obtain ⟨⟨⟨few, short⟩, members⟩, kept⟩ := unflagged
    rw [completeDossier, Dossier.mk.injEq]
    refine ⟨rfl, ?_, ?_, ?_, ?_⟩
    · rw [List.take_of_length_le few, activeFactsWhole short]
    · rw [events]
      exact changed.whole (events ▸ kept)
    · rw [disputes, entityConflicts] at members
      dsimp only at members
      rw [gathered, Bool.or_eq_false_iff] at members
      obtain ⟨within, full⟩ := members
      have all : (reads.conflicts.conflictsAbout host (Text.strip name) cleaned).length ≤ limit := by
        have counted := Nat.not_lt.mp (of_decide_eq_false within)
        rw [List.length_map, List.length_take] at counted
        omega
      rw [List.take_of_length_le (Nat.le_succ_of_le all)] at full
      rw [listed, List.take_of_length_le all]
      refine List.map_congr_left fun c inside => dossierConflictWhole ?_
      simpa using List.any_eq_false.mp full _ (List.mem_map_of_mem inside)
    · simp [few, short, members, kept]

end Enfold
