import Enfold.Foundation.Rationed
import Enfold.JsonSize
import Enfold.MemoryHistory
import Enfold.SettledEvents
import Mathlib.Data.List.DropRight
import Mathlib.Data.List.Infix

/-! The bounded projections of the store: what changed in a window of time, what happened around a text,
which entities the facts are about, and the dossier of one of them. Each is cut from a complete answer. -/
namespace Enfold

open Fallible KeyOrder

def maxOutputChars : Nat := 60000
def maxQueryChars : Nat := 16000
def maxEntityChars : Nat := 2000
-- irreducible, so that nothing counts down from it
@[irreducible] def projectionScanLimit : Nat := 10000
def itemsCharBudget : Nat := maxOutputChars - 256

/-- What the interpreter and SQLite give, and the columns that nothing else of the store reads. -/
structure ProjectionHost where
  floats : FloatText
  casefold : String → String
  /-- `astimezone(timezone.utc).isoformat(timespec="microseconds")`; `none` is its `OverflowError`. -/
  isoformat : Int → Option String
  julianday : String → Option Rat
  conflictText : Nat → String
  updatedAt : Fact → String
  schemaVersion : Fact → Int

inductive ProjectedKind where
  | created | superseded | conflicted | resolved
  deriving DecidableEq, Repr

def ProjectedKind.text : ProjectedKind → String
  | .created => "created"
  | .superseded => "superseded"
  | .conflicted => "conflicted"
  | .resolved => "resolved"

-- `CASE kind WHEN 'created' THEN 0 WHEN 'superseded' THEN 1 WHEN 'conflicted' THEN 2 ELSE 3 END`
def ProjectedKind.rank : ProjectedKind → Nat
  | .created => 0
  | .superseded => 1
  | .conflicted => 2
  | .resolved => 3

structure ProjectedEvent where
  kind : ProjectedKind
  changedAt : String
  fact : Fact
  deriving DecidableEq, Repr

def MemoryKind.text : MemoryKind → String
  | .state => "state"
  | .preference => "preference"
  | .commitment => "commitment"
  | .event => "event"
  | .fact => "fact"

structure Listing (α : Type) where
  items : List α
  truncated : Bool

section Source
variable (rt : Runtime) (host : ProjectionHost) (l : Ledger)

def optionJson {α : Type} (json : α → Json) (value : Option α) : Json := (value.map json).getD .null

/-- `_fact`: the row, cut to `_FACT_FIELDS`. -/
def projectedFact (f : Fact) : Json :=
  .obj [("fact_id", .int f.factId), ("content", .str f.content), ("category", .str f.category),
    ("tags", .str f.tags), ("trust_score", .float f.trustScore), ("created_at", .str f.createdAt),
    ("updated_at", .str (host.updatedAt f)), ("valid_from", optionJson .str f.validFrom),
    ("invalid_at", optionJson .str f.invalidAt),
    ("superseded_by", optionJson (fun id : Nat => .int id) f.supersededBy),
    ("memory_kind", optionJson (fun kind : MemoryKind => .str kind.text) f.memoryKind),
    ("subject_key", optionJson .str f.subjectKey), ("predicate_key", optionJson .str f.predicateKey),
    ("object_value", optionJson .str f.objectValue), ("confidence", optionJson .float f.confidence),
    ("source_authority", optionJson .float f.sourceAuthority), ("scope", .str f.scope),
    ("sensitivity", .str f.sensitivity), ("correction_status", optionJson .str f.correctionStatus),
    ("schema_version", .int (host.schemaVersion f)),
    ("conflict_group", optionJson (fun id => .str (host.conflictText id)) f.conflictGroup)]

def ProjectedEvent.json (e : ProjectedEvent) : Json :=
  .obj [("kind", .str e.kind.text), ("changed_at", .str e.changedAt), ("fact", projectedFact host e.fact)]

/-- `_json_chars`. -/
def jsonChars (value : Json) : Nat := value.size host.floats .characters

/-- `_bounded`. -/
def bounded {α : Type} (json : α → Json) (items : List α) (limit : Nat) : Listing α :=
  let size := fun item => jsonChars host (json item)
  let (result, truncated) := Rationed.ration size itemsCharBudget limit 2 0 items
  ⟨result, truncated⟩

/-! ## Checks -/

/-- `_scopes`. -/
def projectionScopes (scopes : List String) : Except Raised (List String) := do
  let cleaned := firsts ((scopes.map Text.strip).filter (· ≠ ""))
  ensure (cleaned ≠ []) ⟨.valueError, "scope must not be empty"⟩
  .ok cleaned

/-- `_limit` of the projections. -/
def projectionLimit (value : Nat) : Except Raised Nat := do
  ensure (1 ≤ value && value ≤ 200) ⟨.valueError, "limit must be between 1 and 200"⟩
  .ok value

/-- `_timestamp`. -/
def projectionTimestamp (value name : String) : Except Raised String := do
  let candidate := Text.strip value
  ensure (candidate ≠ "") ⟨.valueError, name ++ " must be a non-empty ISO-8601 timestamp"⟩
  let spelled := String.ofList (candidate.toList.flatMap fun c => if c = 'Z' then "+00:00".toList else [c])
  match rt.fromisoformat spelled with
  | none => .error ⟨.valueError, name ++ " must be an ISO-8601 timestamp"⟩
  | some parsed => match host.isoformat parsed.instant with
    | none => .error ⟨.overflowError, "date value out of range"⟩
    | some text => .ok text

/-! ## Events -/

def Ledger.visibleMembers (scopes : List String) (c : Conflict) : List Nat :=
  (l.members.filter (·.conflictId = c.conflictId)).flatMap fun m =>
    (l.facts.filter fun f => f.factId = m.factId && f.visibleIn scopes).map Fact.factId

/-- The four parts of the `UNION ALL`. -/
def Ledger.projectedEvents (scopes : List String) : List (ProjectedKind × Option String × Nat) :=
  let visible := l.facts.filter (·.visibleIn scopes)
  (visible.filter (·.conflictGroup.isNone)).map (fun f => (.created, some f.createdAt, f.factId)) ++
    (visible.filter fun f => f.invalidAt.isSome && f.supersededBy.isSome).map
      (fun f => (.superseded, f.invalidAt, f.factId)) ++
    ((l.conflicts.filter (·.resolvedAt.isSome)).flatMap fun row =>
      (visible.filter fun f => row.resolutionFactId = some f.factId).map
        fun f => (.resolved, row.resolvedAt, f.factId)) ++
    (l.conflicts.filter (·.resolvedAt.isNone)).filterMap fun row =>
      (l.visibleMembers scopes row).min?.map fun factId => (.conflicted, some row.detectedAt, factId)

def ProjectedEvent.place (e : ProjectedEvent) : WithBot Rat ×ₗ String ×ₗ Nat ×ₗ Nat :=
  toLex (host.julianday e.changedAt, toLex (e.changedAt, toLex (e.kind.rank, e.fact.factId)))

def Ledger.eventsBetween (scopes : List String) (since until' : Option String) : List ProjectedEvent :=
  let events := (l.projectedEvents scopes).flatMap fun (kind, changedAt, factId) =>
    (l.facts.filter (·.factId = factId)).filterMap fun f =>
      changedAt.map fun changedAt => ⟨kind, changedAt, f⟩
  sortedBy (ProjectedEvent.place host) (events.filter fun e => inWindow host.julianday since until' e.changedAt)

/-- `_event_rows`: the newest ones, oldest first, and whether the scan reached its limit. -/
def eventRows (scopes : List String) (since until' : Option String) : Listing ProjectedEvent :=
  let rows := (l.eventsBetween host scopes since until').rtake projectionScanLimit
  ⟨rows, rows.length = projectionScanLimit⟩

def changes (since until' : String) (scopes : List String) (limit : Nat) :
    Except Raised (Listing ProjectedEvent) := do
  let sinceValue ← projectionTimestamp rt host since "since"
  let untilValue ← projectionTimestamp rt host until' "until"
  ensure (sinceValue < untilValue) ⟨.valueError, "since must be earlier than until"⟩
  let scopes ← projectionScopes scopes
  let scanned := eventRows host l scopes (some sinceValue) (some untilValue)
  let limit ← projectionLimit limit
  let output := bounded host (ProjectedEvent.json host) scanned.items limit
  .ok ⟨output.items, scanned.truncated || output.truncated⟩

/-- The text a query is looked for in. -/
def Fact.timelineText (f : Fact) : String :=
  host.casefold (" ".intercalate
    [f.content, f.subjectKey.getD "", f.predicateKey.getD "", f.objectValue.getD "", f.tags])

def ProjectedEvent.about (query : String) (e : ProjectedEvent) : Bool :=
  query.toList <:+: (e.fact.timelineText host).toList

def timeline (subjectOrQuery : String) (scopes : List String) (limit : Nat) :
    Except Raised (Listing ProjectedEvent) := do
  ensure (Text.strip subjectOrQuery ≠ "") ⟨.valueError, "subject_or_query must not be empty"⟩
  ensure (subjectOrQuery.length ≤ maxQueryChars)
    ⟨.valueError, "subject_or_query must not exceed 16000 characters"⟩
  let cap ← projectionLimit limit
  let query := host.casefold (Text.strip subjectOrQuery)
  let scopes ← projectionScopes scopes
  let scanned := eventRows host l scopes none none
  let matched := scanned.items.filter (ProjectedEvent.about host query)
  let output := bounded host (ProjectedEvent.json host) (matched.rtake cap) cap
  .ok ⟨output.items, scanned.truncated || cap < matched.length || output.truncated⟩

/-! ## Entities -/

def entityName (text : String) : Option (String × String) :=
  let name := Text.strip text
  if name = "" then none else some (host.casefold name, name)

def tagNames (tags : String) : List (String × String) :=
  (Text.splitOn ',' tags.toList).filterMap fun tag => entityName host (String.ofList tag)

/-- `_entity_names`. -/
def entityNames (subject tags : Option String) : List (String × String) :=
  (subject.bind (entityName host)).toList ++ tags.toList.flatMap (tagNames host)

/-- `_matches_entity` and `_matches_entity_fields`. -/
def matchesEntity (subject tags : Option String) (name : String) : Bool :=
  ((entityNames host subject tags).map Prod.fst).contains (host.casefold name)

def Fact.isAbout (name : String) (f : Fact) : Bool := matchesEntity host f.subjectKey (some f.tags) name

/-- `active_facts`: the newest current facts that are in no dispute. -/
def activeFacts (scopes : List String) (limit : Nat) : List Fact :=
  (sortedBy Fact.factId (l.facts.filter fun f =>
    f.current && f.conflictGroup.isNone && f.visibleIn scopes)).reverse.take limit

structure Mention where
  key : String
  name : String
  factId : Nat
  derivedFrom : String
  deriving DecidableEq, Repr

def Fact.mentions (f : Fact) : List Mention :=
  (f.subjectKey.bind (entityName host)).toList.map (fun (key, name) => ⟨key, name, f.factId, "subject"⟩) ++
    (tagNames host f.tags).map fun (key, name) => ⟨key, name, f.factId, "tag"⟩

structure EntityRank where
  name : String
  factCount : Nat
  derivedFrom : List String
  deriving DecidableEq, Repr

def EntityRank.json (r : EntityRank) : Json :=
  .obj [("name", .str r.name), ("fact_count", .int r.factCount),
    ("derived_from", .arr (r.derivedFrom.map Json.str))]

def rankMentions (first : Mention) (own : List Mention) : EntityRank where
  name := first.name
  factCount := (firsts (own.map Mention.factId)).length
  derivedFrom := ["subject", "tag"].filter fun source => (own.map Mention.derivedFrom).contains source

def rankedEntities (mentions : List Mention) : List EntityRank :=
  (firsts (mentions.map Mention.key)).filterMap fun key =>
    let own := mentions.filter (·.key = key)
    own.head?.map (rankMentions · own)

def EntityRank.place (r : EntityRank) : Int ×ₗ String ×ₗ String :=
  toLex (-(r.factCount : Int), toLex (host.casefold r.name, r.name))

def entities (scopes : List String) (minFacts limit : Nat) : Except Raised (Listing EntityRank) := do
  ensure (1 ≤ minFacts) ⟨.valueError, "min_facts must be a positive integer"⟩
  let scopes ← projectionScopes scopes
  let scanned := activeFacts l scopes projectionScanLimit
  let ranked := (rankedEntities (scanned.flatMap (Fact.mentions host))).filter (minFacts ≤ ·.factCount)
  let limit ← projectionLimit limit
  let output := bounded host EntityRank.json (sortedBy (EntityRank.place host) ranked) limit
  .ok ⟨output.items, scanned.length = projectionScanLimit || output.truncated⟩

/-! ## The dossier -/

/-- `_entity_events`. -/
def entityEvents (entity : String) (scopes : List String) (limit : Nat) : Listing ProjectedEvent :=
  let scanned := eventRows host l scopes none none
  let matched := scanned.items.filter fun e => e.fact.isAbout host entity
  let output := bounded host (ProjectedEvent.json host) (matched.rtake limit) limit
  ⟨output.items, scanned.truncated || limit < matched.length || output.truncated⟩

structure DossierConflict where
  conflict : Conflict
  members : List Fact
  membersTruncated : Bool
  deriving DecidableEq, Repr

def DossierConflict.json (c : DossierConflict) : Json :=
  .obj [("conflict_id", .str (host.conflictText c.conflict.conflictId)), ("scope", .str c.conflict.scope),
    ("subject_key", .str c.conflict.subjectKey), ("predicate_key", .str c.conflict.predicateKey),
    ("detected_at", .str c.conflict.detectedAt), ("members", .arr (c.members.map (projectedFact host))),
    ("members_truncated", .bool c.membersTruncated)]

def Ledger.parties (scopes : List String) (c : Conflict) : List Fact :=
  (l.members.filter (·.conflictId = c.conflictId)).flatMap fun m =>
    l.facts.filter fun f => f.factId = m.factId && f.scope = c.scope && f.visibleIn scopes

/-- The conditions on a row of `matching_conflicts`. -/
def Ledger.disputes (entity : String) (scopes : List String) (c : Conflict) : Bool :=
  c.resolvedAt.isNone && l.parties scopes c ≠ [] &&
    (matchesEntity host (some c.subjectKey) none entity || (l.parties scopes c).any (Fact.isAbout host entity))

def Conflict.dossierPlace (ordinal : Nat) (c : Conflict) : Nat ×ₗ String ×ₗ String :=
  toLex (ordinal, toLex (c.detectedAt, host.conflictText c.conflictId))

def Ledger.conflictsAbout (entity : String) (scopes : List String) : List Conflict :=
  let authorized := scopes.zipIdx.flatMap fun (scope, ordinal) =>
    (l.conflicts.filter fun c => c.scope = scope && l.disputes host entity scopes c).map fun c => (ordinal, c)
  (sortedBy (fun (ordinal, c) => c.dossierPlace host ordinal) authorized).map Prod.snd

structure PartyRow where
  conflict : Conflict
  memberCount : Nat
  member : Fact

/-- The rows of one conflict: of its first `limit` visible members those of its own scope. -/
def Ledger.partyRows (scopes : List String) (limit : Nat) (c : Conflict) : List PartyRow :=
  let ranked := sortedBy id (l.visibleMembers scopes c)
  (ranked.take limit).flatMap fun factId =>
    (l.facts.filter fun f => f.factId = factId && f.scope = c.scope).map fun f => ⟨c, ranked.length, f⟩

/-- The loop over the cursor: rows of one conflict stand together. -/
def gatherConflicts (limit : Nat) :
    List DossierConflict → Option DossierConflict → List PartyRow → List DossierConflict
  | done, conflict, [] => done ++ conflict.toList
  | done, conflict, row :: rows =>
    if conflict.any (·.conflict.conflictId = row.conflict.conflictId) then
      gatherConflicts limit done (conflict.map fun c => { c with members := c.members ++ [row.member] }) rows
    else
      let done := done ++ conflict.toList
      if limit < done.length then done
      else gatherConflicts limit done (some ⟨row.conflict, [row.member], limit < row.memberCount⟩) rows

/-- `_entity_conflicts`. -/
def entityConflicts (entity : String) (scopes : List String) (limit : Nat) : Listing DossierConflict :=
  let rows := ((l.conflictsAbout host entity scopes).take (limit + 1)).flatMap (l.partyRows scopes limit)
  let conflicts := gatherConflicts limit [] none rows
  ⟨conflicts.take limit, limit < conflicts.length || conflicts.any DossierConflict.membersTruncated⟩

structure Dossier where
  entity : String
  currentFacts : List Fact
  recentChanges : List ProjectedEvent
  openConflicts : List DossierConflict
  truncated : Bool
  deriving DecidableEq, Repr

def Dossier.json (d : Dossier) : Json :=
  .obj [("entity", .str d.entity), ("current_facts", .arr (d.currentFacts.map (projectedFact host))),
    ("recent_changes", .arr (d.recentChanges.map (ProjectedEvent.json host))),
    ("open_conflicts", .arr (d.openConflicts.map (DossierConflict.json host))),
    ("truncated", .bool d.truncated)]

def Dossier.items (d : Dossier) : Nat := d.currentFacts.length + d.recentChanges.length + d.openConflicts.length

def Dossier.pop (d : Dossier) : Option Dossier :=
  if d.recentChanges ≠ [] then some { d with recentChanges := d.recentChanges.dropLast, truncated := true }
  else if d.currentFacts ≠ [] then some { d with currentFacts := d.currentFacts.dropLast, truncated := true }
  else if d.openConflicts ≠ [] then some { d with openConflicts := d.openConflicts.dropLast, truncated := true }
  else none

theorem Dossier.popItems {d smaller : Dossier} (popped : d.pop = some smaller) : smaller.items < d.items := by
  unfold Dossier.pop at popped
  split at popped
  · rename_i some'
    obtain rfl := Option.some.inj popped
    have := List.length_pos_iff.mpr some'
    simp only [items, List.length_dropLast]
    omega
  · split at popped
    · rename_i some'
      obtain rfl := Option.some.inj popped
      have := List.length_pos_iff.mpr some'
      simp only [items, List.length_dropLast]
      omega
    · split at popped
      · rename_i some'
        obtain rfl := Option.some.inj popped
        have := List.length_pos_iff.mpr some'
        simp only [items, List.length_dropLast]
        omega
      · cases popped

def Dossier.shrink (d : Dossier) : Dossier :=
  if maxOutputChars < jsonChars host (d.json host) then
    match _popped : d.pop with
    | some smaller => smaller.shrink
    | none => d
  else d
termination_by d.items
decreasing_by exact Dossier.popItems _popped

/-- The store as each query of a dossier finds it; another connection may write between them. -/
structure DossierReads where
  facts : Ledger
  events : Ledger
  conflicts : Ledger

def entityDossier (reads : DossierReads) (name : String) (scopes : List String) (limit : Nat) :
    Except Raised Dossier := do
  ensure (Text.strip name ≠ "") ⟨.valueError, "name must not be empty"⟩
  ensure (name.length ≤ maxEntityChars) ⟨.valueError, "name must not exceed 2000 characters"⟩
  let entity := Text.strip name
  let scopes ← projectionScopes scopes
  let cap ← projectionLimit limit
  let scannedCurrent := activeFacts reads.facts scopes projectionScanLimit
  let allCurrent := scannedCurrent.filter (Fact.isAbout host entity)
  let recent := entityEvents host reads.events entity scopes cap
  let conflicts := entityConflicts host reads.conflicts entity scopes cap
  .ok (Dossier.shrink host ⟨entity, allCurrent.take cap, recent.items, conflicts.items,
    cap < allCurrent.length || scannedCurrent.length = projectionScanLimit || conflicts.truncated ||
      recent.truncated⟩)

/-! ## The handlers -/

/-- `raise ServiceRequestError("invalid_params", str(exc)) from exc`. -/
def valueFailure (raised : Raised) : Raised :=
  if raised.kind.isValueError then { raised with kind := .serviceRequest "invalid_params" } else raised

variable (accessScopes : List String) (params : JsonObject)

/-- `EnfoldService._changes`. -/
def memoryChanges : Except Raised (Listing ProjectedEvent) := do
  let member (name : String) := (params.lookup name).getD .null
  checkParams rt params ["since", "until"] ["scope", "limit"]
  let scopes ← requestedScopes rt accessScopes (member "scope")
  let since ← readText "since" (member "since")
  let until' ← readText "until" (member "until")
  let limit ← readLimit (member "limit") 100
  mapFailure valueFailure (changes rt host l since until' scopes limit)

/-- `EnfoldService._timeline`. -/
def memoryTimeline : Except Raised (Listing ProjectedEvent) := do
  let member (name : String) := (params.lookup name).getD .null
  checkParams rt params ["subject_or_query"] ["scope", "limit"]
  let scopes ← requestedScopes rt accessScopes (member "scope")
  let subjectOrQuery ← readText "subject_or_query" (member "subject_or_query")
  let limit ← readLimit (member "limit") 100
  mapFailure valueFailure (timeline host l subjectOrQuery scopes limit)

/-- `EnfoldService._entities`. -/
def memoryEntities : Except Raised (Listing EntityRank) := do
  let member (name : String) := (params.lookup name).getD .null
  checkParams rt params [] ["scope", "min_facts", "limit"]
  let scopes ← requestedScopes rt accessScopes (member "scope")
  let minFacts ← readPositiveInt "min_facts" ((params.lookup "min_facts").getD (.int 1))
  let limit ← readLimit (member "limit") 100
  mapFailure valueFailure (entities host l scopes minFacts limit)

/-- `EnfoldService._entity`. -/
def memoryEntity (reads : DossierReads) : Except Raised Dossier := do
  let member (name : String) := (params.lookup name).getD .null
  checkParams rt params ["name"] ["scope", "limit"]
  let scopes ← requestedScopes rt accessScopes (member "scope")
  let name ← readText "name" (member "name")
  let limit ← readLimit (member "limit") 100
  mapFailure valueFailure (entityDossier host reads name scopes limit)

end Source

def Listing.json {α : Type} (name : String) (json : α → Json) (a : Listing α) : Json :=
  .obj [(name, .arr (a.items.map json)), ("truncated", .bool a.truncated)]

end Enfold
