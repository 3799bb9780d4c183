import Enfold.ClaimFreshness
import Enfold.ProjectionCuts

/-! What the handlers of the projections answer: part of a complete answer, windows that add up to one, and
nothing that depends on a fact the client may not read. -/
namespace Enfold

open Fallible KeyOrder

def askedScopes (rt : Runtime) (accessScopes : List String) (params : JsonObject) :
    Except Raised (List String) := do
  let scopes ← requestedScopes rt accessScopes ((params.lookup "scope").getD .null)
  mapFailure valueFailure (projectionScopes scopes)

def askedInstant (rt : Runtime) (host : ProjectionHost) (params : JsonObject) (name : String) :
    Except Raised String := do
  let value ← readText name ((params.lookup name).getD .null)
  mapFailure valueFailure (projectionTimestamp rt host value name)

variable {rt : Runtime} {host : ProjectionHost} {l l' : Ledger} {accessScopes scopes : List String}
  {params : JsonObject}

theorem askedScopesOk {cleaned : List String}
    (asked : requestedScopes rt accessScopes ((params.lookup "scope").getD .null) = .ok scopes)
    (clean : projectionScopes scopes = .ok cleaned) : askedScopes rt accessScopes params = .ok cleaned :=
  bindOk.mpr ⟨scopes, asked, mapFailureOk.mpr clean⟩

theorem askedInstantOk {name value text : String}
    (read : readText name ((params.lookup name).getD .null) = .ok value)
    (instant : projectionTimestamp rt host value name = .ok text) :
    askedInstant rt host params name = .ok text :=
  bindOk.mpr ⟨value, read, mapFailureOk.mpr instant⟩

/-! ## Honesty -/

/-- The first of the entities the scan finds, and all there are unless flagged. -/
structure Listing.Ranked (a : Listing EntityRank) (host : ProjectionHost) (l : Ledger) (scopes : List String)
    (minFacts : Nat) : Prop where
  scanned : a.items <+: rankEntities host (activeFacts l scopes projectionScanLimit) minFacts
  whole : a.truncated = false → a.items = rankEntities host (l.newestFacts scopes) minFacts

theorem entitiesRanked {minFacts limit : Nat} {a : Listing EntityRank} {scanned : List Fact}
    (active : scanned = activeFacts l scopes projectionScanLimit)
    (cut : a.CutFrom host EntityRank.json limit (rankEntities host scanned minFacts)
      (scanned.length = projectionScanLimit)) : a.Ranked host l scopes minFacts := by
  constructor
  · rw [cut.items, active]
    exact boundedPrefix
  · intro unflagged
    rw [cut.truncated, Bool.or_eq_false_iff, decide_eq_false_iff_not] at unflagged
    obtain ⟨short, kept⟩ := unflagged
    rw [cut.items, boundedWhole kept, active, activeFactsWhole (active ▸ short)]

/-- Whatever is asked: an answer lists nothing that the complete answer does not list, in its order, and where
it is not flagged it is the complete answer. -/
theorem projectionsHonest (rt : Runtime) (host : ProjectionHost) (l : Ledger) (accessScopes : List String)
    (params : JsonObject) {reads : DossierReads}
    (distinct : Table.Unique Conflict.conflictId reads.conflicts.conflicts) (confined : reads.conflicts.Scoped) :
    (∀ a, memoryChanges rt host l accessScopes params = .ok a → ∃ scopes since until',
      askedScopes rt accessScopes params = .ok scopes ∧ askedInstant rt host params "since" = .ok since ∧
      askedInstant rt host params "until" = .ok until' ∧ since < until' ∧
      a.PartOf (l.eventsBetween host scopes (some since) (some until'))) ∧
    (∀ a, memoryTimeline rt host l accessScopes params = .ok a → ∃ scopes query,
      askedScopes rt accessScopes params = .ok scopes ∧
      readText "subject_or_query" ((params.lookup "subject_or_query").getD .null) = .ok query ∧
      a.PartOf ((l.eventsBetween host scopes none none).filter
        (ProjectedEvent.about host (host.casefold (Text.strip query))))) ∧
    (∀ a, memoryEntities rt host l accessScopes params = .ok a → ∃ scopes minFacts,
      askedScopes rt accessScopes params = .ok scopes ∧
      readPositiveInt "min_facts" ((params.lookup "min_facts").getD (.int 1)) = .ok minFacts ∧
      a.Ranked host l scopes minFacts) ∧
    ∀ d, memoryEntity rt host accessScopes params reads = .ok d → ∃ scopes name,
      askedScopes rt accessScopes params = .ok scopes ∧
      readText "name" ((params.lookup "name").getD .null) = .ok name ∧
      d.PartOf (completeDossier host reads (Text.strip name) scopes) := by
  refine ⟨fun a ok => ?_, fun a ok => ?_, fun a ok => ?_, fun d ok => ?_⟩
  · obtain ⟨scopes, since, until', limit, asked, first, last, made⟩ := memoryChangesSource ok
    obtain ⟨s, u, cleaned, rows, begins, ends, earlier, clean, -, scanned, cut⟩ := changesSource made
    exact ⟨cleaned, s, u, askedScopesOk asked clean, askedInstantOk first begins, askedInstantOk last ends,
      earlier, changesPart scanned cut⟩
  · obtain ⟨scopes, query, limit, asked, text, made⟩ := memoryTimelineSource ok
    obtain ⟨cleaned, rows, matched, clean, -, scanned, among, cut⟩ := timelineSource made
    exact ⟨cleaned, query, askedScopesOk asked clean, text, recentPart scanned among cut⟩
  · obtain ⟨scopes, minFacts, limit, asked, least, made⟩ := memoryEntitiesSource ok
    obtain ⟨cleaned, scanned, clean, -, active, cut⟩ := entitiesSource made
    exact ⟨cleaned, minFacts, askedScopesOk asked clean, least, entitiesRanked active cut⟩
  · obtain ⟨scopes, name, limit, asked, text, made⟩ := memoryEntitySource ok
    obtain ⟨cleaned, clean, part⟩ := dossierPart distinct confined made
    exact ⟨cleaned, name, askedScopesOk asked clean, text, part⟩

namespace Example

/-! A host that knows the days of one dispute and the numbers of its facts. -/

def spelledTenths : List (Rat × Char) := [(1 / 2, '5'), (4 / 5, '8'), (1 / 5, '2')]

def tenthsText (x : Rat) : List Char :=
  ((spelledTenths.find? (·.1 = x)).map fun row => ['0', '.', row.2]).getD []

theorem tenthsShape : ∀ x : Rat, (spelledTenths.any (·.1 = x)) = true → ∃ t : NumberText, t.Valid ∧
    (t.fraction ≠ [] ∨ t.exponent ≠ []) ∧ tenthsText x = t.text := by
  intro x known
  have digit {c : Char} (one : c.isDigit = true) : (⟨[], ['0'], ['.', c], []⟩ : NumberText).Valid :=
    ⟨.inl rfl, .inl rfl, .inr ⟨[c], ⟨List.cons_ne_nil c [], by simp [one]⟩, rfl⟩, .inl rfl⟩
  simp only [spelledTenths, List.any_cons, List.any_nil, Bool.or_false, Bool.or_eq_true,
    decide_eq_true_eq] at known
  rcases known with rfl | rfl | rfl
  · exact ⟨⟨[], ['0'], ['.', '5'], []⟩, digit (by decide), .inl (by simp), by decide +kernel⟩
  · exact ⟨⟨[], ['0'], ['.', '8'], []⟩, digit (by decide), .inl (by simp), by decide +kernel⟩
  · exact ⟨⟨[], ['0'], ['.', '2'], []⟩, digit (by decide), .inl (by simp), by decide +kernel⟩

def tenthsRead (text : List Char) : Option Rat :=
  (spelledTenths.find? fun row => ['0', '.', row.2] = text).map Prod.fst

theorem tenthsExact : ∀ x : Rat, (spelledTenths.any (·.1 = x)) = true → tenthsRead (tenthsText x) = some x := by
  intro x known
  simp only [spelledTenths, List.any_cons, List.any_nil, Bool.or_false, Bool.or_eq_true,
    decide_eq_true_eq] at known
  rcases known with rfl | rfl | rfl <;> decide +kernel

/-- Three days, as `isoformat` writes them and as SQLite reads them. -/
def calendar : List (Int × String × Rat) :=
  [(civilDays 2026 1 2 * 86400000000, "2026-01-02T00:00:00.000000+00:00", 4922085 / 2),
    (civilDays 2026 1 3 * 86400000000, "2026-01-03T00:00:00.000000+00:00", 4922087 / 2),
    (civilDays 2026 1 4 * 86400000000, "2026-01-04T00:00:00.000000+00:00", 4922089 / 2)]

def calendarHost : ProjectionHost where
  floats := ⟨fun x => spelledTenths.any (·.1 = x), tenthsText, tenthsRead, tenthsShape, tenthsExact⟩
  casefold := fun text => String.ofList (text.toList.map Char.toLower)
  isoformat := fun instant => (calendar.find? (·.1 = instant)).map fun row => row.2.1
  -- the texts here are midnights, some without their time
  julianday := fun text =>
    (calendar.find? fun row => row.2.1.toList.take 10 = text.toList.take 10).map fun row => row.2.2
  conflictText := fun conflictId => toString conflictId
  updatedAt := Fact.createdAt
  schemaVersion := fun _ => 2

def onlyCity : DossierReads := ⟨disputedCity, disputedCity, disputedCity⟩

def askedAlex : JsonObject := [("name", .str "person:alex")]

theorem cityDistinct : Table.Unique Conflict.conflictId disputedCity.conflicts := by
  unfold Table.Unique
  decide +kernel

theorem cityScoped : disputedCity.Scoped := by
  unfold Ledger.Scoped
  decide +kernel

theorem projectionsHonestHere :
    ∃ d, memoryEntity .plain calendarHost ["private"] askedAlex onlyCity = .ok d ∧ ∃ scopes name,
      askedScopes .plain ["private"] askedAlex = .ok scopes ∧
      readText "name" ((askedAlex.lookup "name").getD .null) = .ok name ∧
      d.PartOf (completeDossier calendarHost onlyCity (Text.strip name) scopes) := by
  have answered : (memoryEntity .plain calendarHost ["private"] askedAlex onlyCity).toOption.isSome = true := by
    decide +kernel
  obtain ⟨d, given⟩ := Option.isSome_iff_exists.mp answered
  have ok := okOfOption given
  have honest := projectionsHonest .plain calendarHost disputedCity ["private"] askedAlex
    (show Table.Unique Conflict.conflictId onlyCity.conflicts.conflicts from cityDistinct) cityScoped
  exact ⟨d, ok, honest.2.2.2 d ok⟩

end Example

/-! ## Windows -/

section Windows
variable {since until' : String} {events : List ProjectedEvent}

/-- SQLite reads the texts that `isoformat` writes in their order. -/
def ProjectionHost.ReadsInOrder (host : ProjectionHost) : Prop :=
  ∀ i j : Int, ∀ a b : String, host.isoformat i = some a → host.isoformat j = some b → a < b →
    ∃ x y, host.julianday a = some x ∧ host.julianday b = some y ∧ x ≤ y

theorem timestampSource {value name text : String} : projectionTimestamp rt host value name = .ok text ↔
    Text.strip value ≠ "" ∧ ∃ parsed, rt.fromisoformat (String.ofList ((Text.strip value).toList.flatMap fun c =>
      if c = 'Z' then "+00:00".toList else [c])) = some parsed ∧ host.isoformat parsed.instant = some text := by
  simp only [projectionTimestamp, bindOk, ensureOk, decide_eq_true_eq]
  constructor
  · rintro ⟨-, some', read⟩
    split at read
    · cases read
    · rename_i parsed shape
      split at read
      · cases read
      · rename_i written
        cases read
        exact ⟨some', parsed, shape, written⟩
  · rintro ⟨some', parsed, shape, written⟩
    refine ⟨(), some', ?_⟩
    rw [shape]
    dsimp only
    rw [written]

theorem windowsJoin {s m u : String} {x y z : Rat} (rows : List ProjectedEvent)
    (first : host.julianday s = some x) (middle : host.julianday m = some y) (last : host.julianday u = some z)
    (low : x ≤ y) (high : y ≤ z) :
    sortedBy (ProjectedEvent.place host)
        (rows.filter fun e => inWindow host.julianday (some s) (some u) e.changedAt) =
      sortedBy (ProjectedEvent.place host)
          (rows.filter fun e => inWindow host.julianday (some s) (some m) e.changedAt) ++
        sortedBy (ProjectedEvent.place host)
          (rows.filter fun e => inWindow host.julianday (some m) (some u) e.changedAt) := by
  have inside {e : ProjectedEvent} (listed : inWindow host.julianday (some s) (some u) e.changedAt = true) :
      ∃ day, host.julianday e.changedAt = some day := by
    cases read : host.julianday e.changedAt with
    | none => simp [inWindow, read] at listed
    | some day => exact ⟨day, rfl⟩
  -- before the middle, or from it on
  have apart : ∀ a ∈ rows.filter (fun e => inWindow host.julianday (some s) (some u) e.changedAt),
      ∀ b ∈ rows.filter (fun e => inWindow host.julianday (some s) (some u) e.changedAt),
      (host.julianday a.changedAt).any (· < y) = true → (host.julianday b.changedAt).any (· < y) = false →
      ProjectedEvent.place host a < ProjectedEvent.place host b := by
    intro a ha b hb soon late
    obtain ⟨day, read⟩ := inside (List.mem_filter.mp ha).2
    obtain ⟨day', read'⟩ := inside (List.mem_filter.mp hb).2
    rw [read, Option.any_some, decide_eq_true_eq] at soon
    rw [read', Option.any_some, decide_eq_false_iff_not, not_lt] at late
    rw [ProjectedEvent.place, ProjectedEvent.place, Prod.Lex.toLex_lt_toLex, read, read']
    exact .inl (WithBot.coe_lt_coe.mpr (soon.trans_le late))
  have parts := sortedBySplit apart
  rw [parts, List.filter_filter, List.filter_filter]
  congr 2
  · refine List.filter_congr fun e _ => ?_
    cases read : host.julianday e.changedAt with
    | none => simp [inWindow, read]
    | some day =>
      simp only [inWindow, read, first, middle, last, Option.any_some]
      rw [Bool.eq_iff_iff]
      simp only [Bool.and_eq_true, decide_eq_true_eq]
      constructor
      · rintro ⟨soon, later, -⟩
        exact ⟨later, soon⟩
      · rintro ⟨later, soon⟩
        exact ⟨soon, later, soon.trans_le high⟩
  · refine List.filter_congr fun e _ => ?_
    cases read : host.julianday e.changedAt with
    | none => simp [inWindow, read]
    | some day =>
      simp only [inWindow, read, first, middle, last, Option.any_some]
      rw [Bool.eq_iff_iff]
      simp only [Bool.and_eq_true, Bool.not_eq_true', decide_eq_false_iff_not, not_lt, decide_eq_true_eq]
      constructor
      · rintro ⟨late, -, soon⟩
        exact ⟨late, soon⟩
      · rintro ⟨late, soon⟩
        exact ⟨late, low.trans late, soon⟩

theorem eventsJoin {s m u : String} {x y z : Rat} (first : host.julianday s = some x)
    (middle : host.julianday m = some y) (last : host.julianday u = some z) (low : x ≤ y) (high : y ≤ z) :
    l.eventsBetween host scopes (some s) (some u) =
      l.eventsBetween host scopes (some s) (some m) ++ l.eventsBetween host scopes (some m) (some u) :=
  windowsJoin _ first middle last low high

/-- Windows asked for one after the other, each answered in full, and all that is listed for them. -/
inductive Polled (rt : Runtime) (host : ProjectionHost) (l : Ledger) (scopes : List String) :
    String → String → List ProjectedEvent → Prop where
  | last {since until' : String} {limit : Nat} {a : Listing ProjectedEvent}
      (ok : changes rt host l since until' scopes limit = .ok a) (unflagged : a.truncated = false) :
      Polled rt host l scopes since until' a.items
  | step {since mid until' : String} {limit : Nat} {a : Listing ProjectedEvent} {events : List ProjectedEvent}
      (ok : changes rt host l since mid scopes limit = .ok a) (unflagged : a.truncated = false)
      (later : Polled rt host l scopes mid until' events) :
      Polled rt host l scopes since until' (a.items ++ events)

theorem polledEvents (ordered : host.ReadsInOrder) (polled : Polled rt host l scopes since until' events) :
    ∃ s u cleaned, projectionTimestamp rt host since "since" = .ok s ∧
      projectionTimestamp rt host until' "until" = .ok u ∧ s < u ∧ projectionScopes scopes = .ok cleaned ∧
      events = l.eventsBetween host cleaned (some s) (some u) := by
  induction polled with
  | last ok unflagged =>
    obtain ⟨s, u, cleaned, rows, first, last, earlier, clean, -, scanned, cut⟩ := changesSource ok
    exact ⟨s, u, cleaned, first, last, earlier, clean, (changesPart scanned cut).whole unflagged⟩
  | @step since mid until' limit a events ok unflagged later ih =>
    obtain ⟨s, m, cleaned, rows, first, middle, earlier, clean, -, scanned, cut⟩ := changesSource ok
    obtain ⟨m', u, cleaned', second, last, sooner, clean', joined⟩ := ih
    have again : projectionTimestamp rt host mid "since" = .ok m :=
      timestampSource.mpr (timestampSource.mp middle)
    obtain rfl : m = m' := Except.ok.inj (again.symm.trans second)
    obtain rfl : cleaned = cleaned' := Except.ok.inj (clean.symm.trans clean')
    obtain ⟨-, begun, -, hs⟩ := timestampSource.mp first
    obtain ⟨-, met, -, hm⟩ := timestampSource.mp middle
    obtain ⟨-, ended, -, hu⟩ := timestampSource.mp last
    obtain ⟨x, y, dayS, dayM, low⟩ := ordered _ _ _ _ hs hm earlier
    obtain ⟨y', z, dayM', dayU, high⟩ := ordered _ _ _ _ hm hu sooner
    obtain rfl : y = y' := Option.some.inj (dayM.symm.trans dayM')
    refine ⟨s, u, cleaned, first, last, earlier.trans sooner, clean, ?_⟩
    rw [eventsJoin dayS dayM dayU low high, (changesPart scanned cut).whole unflagged, joined]

/-- However a span of time is cut into windows, what is listed for them in full is what happened in the span,
each event once and in order. -/
theorem changesPartitioned (ordered : host.ReadsInOrder) (polled : Polled rt host l scopes since until' events) :
    (∃ s u cleaned, projectionTimestamp rt host since "since" = .ok s ∧
      projectionTimestamp rt host until' "until" = .ok u ∧ s < u ∧ projectionScopes scopes = .ok cleaned ∧
      events = l.eventsBetween host cleaned (some s) (some u)) ∧
    ∀ events', Polled rt host l scopes since until' events' → events' = events := by
  have whole := polledEvents ordered polled
  refine ⟨whole, fun events' other => ?_⟩
  obtain ⟨s, u, cleaned, first, last, -, clean, rfl⟩ := whole
  obtain ⟨s', u', cleaned', first', last', -, clean', rfl⟩ := polledEvents ordered other
  obtain rfl : s = s' := Except.ok.inj (first.symm.trans first')
  obtain rfl : u = u' := Except.ok.inj (last.symm.trans last')
  obtain rfl : cleaned = cleaned' := Except.ok.inj (clean.symm.trans clean')
  rfl

end Windows

namespace Example

theorem calendarOrdered : calendarHost.ReadsInOrder := by
  intro i j a b hi hj before
  obtain ⟨p, found, rfl⟩ := Option.map_eq_some_iff.mp hi
  obtain ⟨q, found', rfl⟩ := Option.map_eq_some_iff.mp hj
  have ordered : ∀ p ∈ calendar, ∀ q ∈ calendar, p.2.1 < q.2.1 → (calendarHost.julianday p.2.1).any (fun x =>
      (calendarHost.julianday q.2.1).any (x ≤ ·)) = true := by
    decide +kernel
  have both := ordered p (List.mem_of_find?_eq_some found) q (List.mem_of_find?_eq_some found') before
  obtain ⟨x, dayA, later⟩ := (Option.any_eq_true _ _).mp both
  obtain ⟨y, dayB, le⟩ := (Option.any_eq_true _ _).mp later
  exact ⟨x, y, dayA, dayB, of_decide_eq_true le⟩

-- the dispute is of the second day
theorem changesPartitionedHere : ∃ events, events.length = 1 ∧
    Polled .plain calendarHost disputedCity ["private"] "2026-01-02" "2026-01-04" events ∧
    ∀ events', Polled .plain calendarHost disputedCity ["private"] "2026-01-02" "2026-01-04" events' →
      events' = events := by
  have early : ((changes .plain calendarHost disputedCity "2026-01-02" "2026-01-03" ["private"] 100).toOption.map
      fun a => (a.items.length, a.truncated)) = some (0, false) := by
    decide +kernel
  have late : ((changes .plain calendarHost disputedCity "2026-01-03" "2026-01-04" ["private"] 100).toOption.map
      fun a => (a.items.length, a.truncated)) = some (1, false) := by
    decide +kernel
  obtain ⟨a, first, shape⟩ := Option.map_eq_some_iff.mp early
  obtain ⟨b, second, shape'⟩ := Option.map_eq_some_iff.mp late
  obtain ⟨none', whole⟩ := Prod.mk.inj shape
  obtain ⟨one, whole'⟩ := Prod.mk.inj shape'
  have polled : Polled .plain calendarHost disputedCity ["private"] "2026-01-02" "2026-01-04"
      (a.items ++ b.items) :=
    .step (okOfOption first) whole (.last (okOfOption second) whole')
  refine ⟨_, ?_, polled, (changesPartitioned calendarOrdered polled).2⟩
  rw [List.length_append, none', one]

end Example

/-! ## Isolation -/

section Isolation

theorem bindCongr {ε α β : Type} {x : Except ε α} {f g : α → Except ε β} (same : ∀ a, x = .ok a → f a = g a) :
    (x >>= f) = x >>= g := by
  cases x with
  | error raised => rfl
  | ok a => exact same a rfl

/-- Two stores that differ in nothing but facts no reader of the scopes may see. -/
structure Ledger.AlikeIn (l l' : Ledger) (scopes : List String) : Prop where
  unique : Table.Unique Fact.factId l.facts
  unique' : Table.Unique Fact.factId l'.facts
  facts : l.facts.filter (·.visibleIn scopes) = l'.facts.filter (·.visibleIn scopes)
  conflicts : l.conflicts = l'.conflicts
  members : l.members = l'.members

theorem seenById {facts : List Fact} {f : Fact} {p : Fact → Bool} (unique : Table.Unique Fact.factId facts)
    (mem : f ∈ facts) (seen : f.visibleIn scopes = true) (own : ∀ g, p g = true → g.factId = f.factId) :
    facts.filter p = (facts.filter (·.visibleIn scopes)).filter p := by
  rw [List.filter_filter]
  refine List.filter_congr fun g hg => ?_
  cases picked : p g with
  | false => rfl
  | true =>
    obtain rfl := Table.uniqueEq unique hg mem (own g picked)
    rw [seen]
    rfl

theorem visibleMembersSource {c : Conflict} {factId : Nat} (listed : factId ∈ l.visibleMembers scopes c) :
    ∃ f ∈ l.facts, f.visibleIn scopes = true ∧ f.factId = factId := by
  obtain ⟨m, -, inside⟩ := List.mem_flatMap.mp listed
  obtain ⟨f, among, rfl⟩ := List.mem_map.mp inside
  obtain ⟨stored, shape⟩ := List.mem_filter.mp among
  exact ⟨f, stored, (Bool.and_eq_true_iff.mp shape).2, rfl⟩

theorem projectedSource {kind : ProjectedKind} {changedAt : Option String} {factId : Nat}
    (listed : (kind, changedAt, factId) ∈ l.projectedEvents scopes) :
    ∃ f ∈ l.facts, f.visibleIn scopes = true ∧ f.factId = factId := by
  simp only [Ledger.projectedEvents, List.mem_append, List.mem_map, List.mem_flatMap, List.mem_filterMap,
    List.mem_filter, Option.map_eq_some_iff, Prod.mk.injEq] at listed
  rcases listed with ((⟨f, ⟨⟨stored, seen⟩, -⟩, -, -, same⟩ | ⟨f, ⟨⟨stored, seen⟩, -⟩, -, -, same⟩) |
    ⟨row, -, f, ⟨⟨stored, seen⟩, -⟩, -, -, same⟩) | ⟨row, -, least, first, -, -, rfl⟩
  · exact ⟨f, stored, seen, same⟩
  · exact ⟨f, stored, seen, same⟩
  · exact ⟨f, stored, seen, same⟩
  · exact visibleMembersSource (List.min?_mem first)

namespace Ledger.AlikeIn
variable {entity : String} (alike : l.AlikeIn l' scopes)
include alike

theorem byId {f : Fact} {p : Fact → Bool} (mem : f ∈ l.facts) (seen : f.visibleIn scopes = true)
    (own : ∀ g, p g = true → g.factId = f.factId) : l.facts.filter p = l'.facts.filter p := by
  have there : f ∈ l'.facts.filter (·.visibleIn scopes) := alike.facts ▸ List.mem_filter.mpr ⟨mem, seen⟩
  rw [seenById alike.unique mem seen own, alike.facts,
    ← seenById alike.unique' (List.mem_of_mem_filter there) seen own]

theorem visibleAmong (p : Fact → Bool) : l.facts.filter (fun f => p f && f.visibleIn scopes) =
    l'.facts.filter fun f => p f && f.visibleIn scopes := by
  rw [← List.filter_filter, ← List.filter_filter, alike.facts]

theorem visibleMembers (c : Conflict) : l.visibleMembers scopes c = l'.visibleMembers scopes c := by
  unfold Ledger.visibleMembers
  rw [alike.members]
  exact List.flatMap_congr fun m _ => congrArg (List.map Fact.factId) (alike.visibleAmong _)

theorem parties (c : Conflict) : l.parties scopes c = l'.parties scopes c := by
  unfold Ledger.parties
  rw [alike.members]
  exact List.flatMap_congr fun m _ => alike.visibleAmong _

theorem disputes (c : Conflict) : l.disputes host entity scopes c = l'.disputes host entity scopes c := by
  rw [Ledger.disputes, Ledger.disputes, alike.parties]

theorem activeFacts (limit : Nat) : Enfold.activeFacts l scopes limit = Enfold.activeFacts l' scopes limit := by
  unfold Enfold.activeFacts
  exact congrArg (fun facts => (sortedBy Fact.factId facts).reverse.take limit) (alike.visibleAmong _)

theorem projectedEvents : l.projectedEvents scopes = l'.projectedEvents scopes := by
  simp only [Ledger.projectedEvents, alike.facts, alike.conflicts, alike.visibleMembers]

theorem eventsBetween (since until' : Option String) :
    l.eventsBetween host scopes since until' = l'.eventsBetween host scopes since until' := by
  unfold Ledger.eventsBetween
  dsimp only
  rw [← alike.projectedEvents]
  refine congrArg (fun events => sortedBy (ProjectedEvent.place host)
    (List.filter (fun e => inWindow host.julianday since until' e.changedAt) events)) (List.flatMap_congr ?_)
  rintro ⟨kind, changedAt, factId⟩ listed
  obtain ⟨f, stored, seen, rfl⟩ := projectedSource listed
  dsimp only
  rw [alike.byId stored seen fun g picked => of_decide_eq_true picked]

theorem eventRows (since until' : Option String) :
    Enfold.eventRows host l scopes since until' = Enfold.eventRows host l' scopes since until' := by
  unfold Enfold.eventRows
  rw [alike.eventsBetween]

theorem conflictsAbout : l.conflictsAbout host entity scopes = l'.conflictsAbout host entity scopes := by
  simp only [Ledger.conflictsAbout, alike.conflicts, alike.disputes]

theorem partyRows (limit : Nat) (c : Conflict) : l.partyRows scopes limit c = l'.partyRows scopes limit c := by
  unfold Ledger.partyRows
  dsimp only
  rw [← alike.visibleMembers]
  refine List.flatMap_congr fun factId listed => ?_
  obtain ⟨f, stored, seen, rfl⟩ := visibleMembersSource (sortedByMem.mp (List.mem_of_mem_take listed))
  rw [alike.byId stored seen fun g picked => of_decide_eq_true (Bool.and_eq_true_iff.mp picked).1]

theorem entityConflicts (limit : Nat) : Enfold.entityConflicts host l entity scopes limit =
    Enfold.entityConflicts host l' entity scopes limit := by
  have rows : l.partyRows scopes limit = l'.partyRows scopes limit := funext (alike.partyRows limit)
  simp only [Enfold.entityConflicts, alike.conflictsAbout, rows]

end Ledger.AlikeIn

structure DossierReads.AlikeIn (reads reads' : DossierReads) (scopes : List String) : Prop where
  facts : reads.facts.AlikeIn reads'.facts scopes
  events : reads.events.AlikeIn reads'.events scopes
  conflicts : reads.conflicts.AlikeIn reads'.conflicts scopes

/-- What is answered, what is refused and how does not depend on a fact that the client may not read. -/
theorem projectionsIndifferent (host : ProjectionHost) {reads reads' : DossierReads}
    (alike : ∀ scopes, askedScopes rt accessScopes params = .ok scopes → l.AlikeIn l' scopes)
    (alikeReads : ∀ scopes, askedScopes rt accessScopes params = .ok scopes → reads.AlikeIn reads' scopes) :
    memoryChanges rt host l accessScopes params = memoryChanges rt host l' accessScopes params ∧
    memoryTimeline rt host l accessScopes params = memoryTimeline rt host l' accessScopes params ∧
    memoryEntities rt host l accessScopes params = memoryEntities rt host l' accessScopes params ∧
    memoryEntity rt host accessScopes params reads = memoryEntity rt host accessScopes params reads' := by
  refine ⟨?_, ?_, ?_, ?_⟩
  · unfold memoryChanges
    refine bindCongr fun _ _ => bindCongr fun scopes asked => bindCongr fun since _ => bindCongr fun until' _ =>
      bindCongr fun limit _ => congrArg (mapFailure valueFailure) ?_
    unfold changes
    refine bindCongr fun s _ => bindCongr fun u _ => bindCongr fun _ _ => bindCongr fun cleaned clean => ?_
    simp only [(alike cleaned (askedScopesOk asked clean)).eventRows]
  · unfold memoryTimeline
    refine bindCongr fun _ _ => bindCongr fun scopes asked => bindCongr fun query _ => bindCongr fun limit _ =>
      congrArg (mapFailure valueFailure) ?_
    unfold timeline
    refine bindCongr fun _ _ => bindCongr fun _ _ => bindCongr fun cap _ => bindCongr fun cleaned clean => ?_
    simp only [(alike cleaned (askedScopesOk asked clean)).eventRows]
  · unfold memoryEntities
    refine bindCongr fun _ _ => bindCongr fun scopes asked => bindCongr fun minFacts _ =>
      bindCongr fun limit _ => congrArg (mapFailure valueFailure) ?_
    unfold entities
    refine bindCongr fun _ _ => bindCongr fun cleaned clean => ?_
    simp only [(alike cleaned (askedScopesOk asked clean)).activeFacts]
  · unfold memoryEntity
    refine bindCongr fun _ _ => bindCongr fun scopes asked => bindCongr fun name _ => bindCongr fun limit _ =>
      congrArg (mapFailure valueFailure) ?_
    unfold entityDossier
    refine bindCongr fun _ _ => bindCongr fun _ _ => bindCongr fun cleaned clean => ?_
    have same := alikeReads cleaned (askedScopesOk asked clean)
    simp only [entityEvents, same.facts.activeFacts, same.events.eventRows, same.conflicts.entityConflicts]

end Isolation

namespace Example

def sharedCity : Ledger :=
  let others := disputedCity.facts.map fun f => { f with factId := f.factId + 100, scope := "team" }
  { disputedCity with facts := disputedCity.facts ++ others }

theorem cityAlike : disputedCity.AlikeIn sharedCity ["private"] where
  unique := by
    unfold Table.Unique
    decide +kernel
  unique' := by
    unfold Table.Unique
    decide +kernel
  facts := by decide +kernel
  conflicts := rfl
  members := rfl

theorem projectionsIndifferentHere : disputedCity ≠ sharedCity ∧
    memoryEntity .plain calendarHost ["private"] askedAlex onlyCity =
      memoryEntity .plain calendarHost ["private"] askedAlex ⟨sharedCity, sharedCity, sharedCity⟩ := by
  have asked : askedScopes .plain ["private"] askedAlex = .ok ["private"] := okOfOption (by decide +kernel)
  have alike {scopes : List String} (ok : askedScopes .plain ["private"] askedAlex = .ok scopes) :
      disputedCity.AlikeIn sharedCity scopes := by
    obtain rfl := Except.ok.inj (asked.symm.trans ok)
    exact cityAlike
  refine ⟨by decide +kernel, ?_⟩
  exact (projectionsIndifferent calendarHost (fun _ ok => alike ok)
    fun _ ok => ⟨alike ok, alike ok, alike ok⟩).2.2.2

end Example

end Enfold
