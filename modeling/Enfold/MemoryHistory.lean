import Enfold.BatchSequence
import Enfold.Foundation.RecursiveQuery
import Enfold.ServiceRequests
import Enfold.SupersessionForest
import Mathlib.Data.Prod.Lex
import Mathlib.Order.RelClasses

/-! What `memory.history` answers: the rows of a slot, or the chain of replacements through a fact. The
request is for a fact; the slot is asked instead as soon as the fact has keys, whoever wrote them. -/
namespace Enfold

open Fallible

variable {rt : Runtime} {l : Ledger}

/-! ## The handler -/

/-- `TRUNCATION_MARKER`. -/
def truncationMarker : String := "… [truncated]"

-- what `_history` reads of the output bounds
structure OutputBounds where
  maxFactChars : Nat
  historyMaxTotalBytes : Nat

def defaultOutputBounds : OutputBounds := ⟨2000, 512 * 1024⟩

structure HistoryRow where
  fact : Fact
  contentTruncated : Bool

/-- `_truncate_fact_content`. -/
def truncateFactContent (maximum : Nat) (f : Fact) : HistoryRow :=
  if f.content.length ≤ maximum then ⟨f, false⟩
  else
    let kept := (f.content.toList.take (maximum - truncationMarker.length)).reverse.dropWhile Text.isSpace
    ⟨{ f with content := String.ofList kept.reverse ++ truncationMarker }, true⟩

structure HistoryResponse where
  facts : List HistoryRow
  outputTruncated : Bool

section Handler
variable (bounds : OutputBounds) (serializedBytes : HistoryRow → Nat)

/-- The rows that fit: at most `room` of them, and no more bytes than the bounds allow. -/
def fillHistory : Nat → Nat → Bool → List Fact → HistoryResponse
  | _, _, _, [] => ⟨[], false⟩
  | 0, _, _, _ :: _ => ⟨[], true⟩
  | room + 1, usedBytes, first, f :: rest =>
    let row := truncateFactContent bounds.maxFactChars f
    let factBytes := serializedBytes row + if first then 0 else 1
    if bounds.historyMaxTotalBytes < usedBytes + factBytes then ⟨[], true⟩
    else
      let later := fillHistory room (usedBytes + factBytes) false rest
      ⟨row :: later.facts, row.contentTruncated || later.outputTruncated⟩

-- `{"facts":[],"output_truncated":false}`
def emptyHistoryBytes : Nat := 37

/-- `ORDER BY COALESCE(valid_from, created_at), fact_id`. -/
def Fact.slotPlace (f : Fact) : String ×ₗ Nat := toLex (f.validFrom.getD f.createdAt, f.factId)

/-- `ORDER BY COALESCE(created_at, ''), fact_id`. -/
def Fact.chainPlace (f : Fact) : String ×ₗ Nat := toLex (f.createdAt, f.factId)

def inOrder (place : Fact → String ×ₗ Nat) (facts : List Fact) : List Fact :=
  facts.insertionSort fun f g => place f ≤ place g

def Fact.keyedBy (subject predicate : String) (f : Fact) : Bool :=
  f.subjectKey = some subject && f.predicateKey = some predicate

/-- `_slot_history`. -/
def slotHistory (l : Ledger) (scopes : List String) (subject predicate : String) (limit : Nat) : List Fact :=
  (inOrder Fact.slotPlace (l.facts.filter fun f => f.visibleIn scopes && f.keyedBy subject predicate)).take limit

def Fact.link (f : Fact) : Nat × Option Nat := (f.factId, f.supersededBy)

/-- The two recursive parts of the chain: what the row replaced, and what replaced it. -/
def Ledger.chainStep (l : Ledger) (scopes : List String) (row : Nat × Option Nat) : List (Nat × Option Nat) :=
  (l.facts.filter fun previous => previous.supersededBy = some row.1 && previous.visibleIn scopes).map Fact.link ++
    (l.facts.filter fun following => some following.factId = row.2 && following.visibleIn scopes).map Fact.link

/-- `_fact_history`. -/
def factHistory (l : Ledger) (scopes : List String) (factId limit : Nat) : List Fact :=
  let start := (l.facts.filter fun f => f.factId = factId && f.visibleIn scopes).map Fact.link
  let chain := RecursiveQuery.rows (l.chainStep scopes) limit start start
  (inOrder Fact.chainPlace (chain.flatMap fun row =>
    l.facts.filter fun f => f.factId = row.1 && f.visibleIn scopes)).take limit

/-- `_historical_fact`. -/
def historicalFact (l : Ledger) (factId : Nat) (scopes : List String) : Option Fact :=
  (l.fact factId).filter (·.visibleIn scopes)

/-- `_authorized_read_scopes`. -/
def authorizedReadScopes (l : Ledger) (accessScopes : List String) (factId : Nat) : Option (List String) :=
  ((l.fact factId).filter (factIsVisible accessScopes)).map fun source => accessScopes ++ [source.scope]

/-- `_limit`. -/
def readLimit (value : Json) (standard : Nat) : Except Raised Nat := do
  match ← readOptionalPositiveInt "limit" value with
  | none => .ok standard
  | some limit => do
    ensure (limit ≤ 200) (invalidParams "limit must not exceed 200")
    .ok limit

/-- `_requested_scopes`. -/
def requestedScopes (rt : Runtime) (accessScopes : List String) : Json → Except Raised (List String)
  | .null => .ok accessScopes
  | value => do
    let text ← readText "scope" value
    let scope ← mapFailure batchFailure (validateScope rt text)
    ensure (scopeAuthorized scope accessScopes) (accessDenied "requested memory scope is not authorized")
    .ok [scope]

def Fact.slotKeys (f : Fact) : Option (String × String) :=
  match f.subjectKey, f.predicateKey with
  | some subject, some predicate => if subject = "" || predicate = "" then none else some (subject, predicate)
  | _, _ => none

-- the scope of the anchor and the capabilities of the client
def slotScopes (accessScopes : List String) (anchor : Fact) : List String :=
  anchor.scope :: accessScopes.filter fun scope => scope = "sensitive" || scope = "secret"

def notFound : Raised := ⟨.serviceRequest "not_found", "fact was not found"⟩

def anchoredHistory (l : Ledger) (accessScopes : List String) (factId limit : Nat) : Except Raised (List Fact) := do
  let (anchor, scopes) ← match historicalFact l factId accessScopes with
    | some anchor => .ok (anchor, accessScopes ++ [anchor.scope])
    | none => match authorizedReadScopes l accessScopes factId with
      | none => .error notFound
      | some scopes => match historicalFact l factId scopes with
        | none => .error notFound
        | some anchor => .ok (anchor, scopes)
  match anchor.slotKeys with
  | some (subject, predicate) => .ok (slotHistory l (slotScopes accessScopes anchor) subject predicate (limit + 1))
  | none => .ok (factHistory l scopes factId (limit + 1))

/-- `EnfoldService._history`. -/
def memoryHistory (rt : Runtime) (l : Ledger) (accessScopes : List String) (params : JsonObject) :
    Except Raised HistoryResponse := do
  checkParams rt params [] ["fact_id", "subject_key", "predicate_key", "scope", "limit"]
  let given (name : String) := (params.lookup name).isSome
  let byId := given "fact_id"
  let bySlot := given "subject_key" || given "predicate_key" || given "scope"
  ensure (byId != bySlot)
    (invalidParams "history requires either fact_id or subject_key and predicate_key")
  let member (name : String) := (params.lookup name).getD .null
  let limit ← readLimit (member "limit") 100
  let rows ← if byId then do
      let factId ← readPositiveInt "fact_id" (member "fact_id")
      anchoredHistory l accessScopes factId limit
    else do
      ensure (given "subject_key" && given "predicate_key")
        (invalidParams "subject_key and predicate_key are both required")
      let scopes ← requestedScopes rt accessScopes (member "scope")
      let subject ← readText "subject_key" (member "subject_key")
      let predicate ← readText "predicate_key" (member "predicate_key")
      .ok (slotHistory l scopes subject predicate (limit + 1))
  .ok (fillHistory bounds serializedBytes limit emptyHistoryBytes true rows)

/-! ## What fits -/

/-- The bytes of a row in the answer, with the comma before it. -/
def rowCost (f : Fact) : Nat := serializedBytes (truncateFactContent bounds.maxFactChars f) + 1

structure Fits (limit : Nat) (place : Fact → String ×ₗ Nat) (base : List Fact) (g : Fact) : Prop where
  among : g ∈ base
  count : (base.filter (place · ≤ place g)).length ≤ limit
  bytes : emptyHistoryBytes + ((base.filter (place · ≤ place g)).map (rowCost bounds serializedBytes)).sum ≤
    bounds.historyMaxTotalBytes + 1

variable {bounds serializedBytes}

theorem truncatedId {maximum : Nat} {f : Fact} : (truncateFactContent maximum f).fact.factId = f.factId := by
  unfold truncateFactContent
  split
  · rfl
  · rfl

theorem fillTake {rows : List Fact} {room usedBytes : Nat} {first : Bool} :
    fillHistory bounds serializedBytes room usedBytes first (rows.take (room + 1)) =
      fillHistory bounds serializedBytes room usedBytes first rows := by
  induction rows generalizing room usedBytes first with
  | nil => rfl
  | cons f rest ih =>
    cases room with
    | zero => rfl
    | succ room => simp only [List.take_succ_cons, fillHistory, ih]

theorem filled (rows : List Fact) (room usedBytes : Nat) (first : Bool) :
    ∃ n, (fillHistory bounds serializedBytes room usedBytes first rows).facts =
        (rows.take n).map (truncateFactContent bounds.maxFactChars) ∧
      ∀ pre g post, rows = pre ++ g :: post → (pre.length < n ↔ pre.length < room ∧
        usedBytes + ((pre ++ [g]).map (rowCost bounds serializedBytes)).sum ≤
          bounds.historyMaxTotalBytes + if first then 1 else 0) := by
  induction rows generalizing room usedBytes first with
  | nil => exact ⟨0, by simp [fillHistory], fun pre g post shape => by simp at shape⟩
  | cons f rest ih =>
    cases room with
    | zero => exact ⟨0, by simp [fillHistory], fun pre g post _ => by simp⟩
    | succ room =>
      by_cases full : bounds.historyMaxTotalBytes < usedBytes +
          (serializedBytes (truncateFactContent bounds.maxFactChars f) + if first then 0 else 1)
      · refine ⟨0, by simp [fillHistory, full], fun pre g post shape => ?_⟩
        have cost : rowCost bounds serializedBytes f ≤
            ((pre ++ [g]).map (rowCost bounds serializedBytes)).sum := by
          cases pre with
          | nil => simp [(List.cons.inj shape).1]
          | cons h pre =>
            rw [(List.cons.inj shape).1]
            simp
        constructor
        · exact nofun
        · rintro ⟨-, fits⟩
          cases first with
          | true => simp [rowCost] at full cost fits; omega
          | false => simp [rowCost] at full cost fits; omega
      · obtain ⟨n, later, counts⟩ := ih room (usedBytes +
          (serializedBytes (truncateFactContent bounds.maxFactChars f) + if first then 0 else 1)) false
        refine ⟨n + 1, by simp [fillHistory, full, later], fun pre g post shape => ?_⟩
        cases pre with
        | nil =>
          obtain ⟨rfl, -⟩ := List.cons.inj shape
          cases first with
          | true => simp [rowCost] at full ⊢; omega
          | false => simp [rowCost] at full ⊢; omega
        | cons h pre =>
          obtain ⟨rfl, rest'⟩ := List.cons.inj shape
          have here := counts pre g post rest'
          cases first with
          | true => simp [rowCost] at here ⊢; omega
          | false => simp [rowCost] at here ⊢; omega

theorem inOrderSorted {place : Fact → String ×ₗ Nat} {base : List Fact}
    (distinct : Table.Unique Fact.factId base) (named : ∀ f g, place f = place g → f.factId = g.factId) :
    (inOrder place base).Pairwise fun f g => place f < place g := by
  have sorted : (inOrder place base).Pairwise fun f g => place f ≤ place g :=
    List.pairwise_insertionSort (fun f g => place f ≤ place g) base
  have apart : (inOrder place base).Pairwise fun f g => f.factId ≠ g.factId :=
    List.pairwise_map.mp ((List.perm_insertionSort _ base).map Fact.factId |>.nodup_iff.mpr distinct)
  refine (sorted.and apart).imp fun {f g} both => lt_of_le_of_ne both.1 fun same => both.2 (named f g same)

theorem shown {limit : Nat} {place : Fact → String ×ₗ Nat} {base : List Fact} {g : Fact}
    (distinct : Table.Unique Fact.factId base) (named : ∀ f g, place f = place g → f.factId = g.factId)
    (own : ∀ f ∈ base, f.factId = g.factId → f = g) :
    (∃ row ∈ (fillHistory bounds serializedBytes limit emptyHistoryBytes true
      ((inOrder place base).take (limit + 1))).facts, row.fact.factId = g.factId) ↔
      Fits bounds serializedBytes limit place base g := by
  have same : (inOrder place base).Perm base := List.perm_insertionSort _ base
  have sorted := inOrderSorted distinct named
  rw [fillTake]
  obtain ⟨n, facts, counts⟩ := filled (inOrder place base) limit emptyHistoryBytes true
  rw [facts]
  -- up to a row there are the rows that come no later
  have upTo {pre post : List Fact} (shape : inOrder place base = pre ++ g :: post) :
      (pre ++ [g]).Perm (base.filter (place · ≤ place g)) := by
    rw [shape] at sorted
    obtain ⟨-, tail, before⟩ := List.pairwise_append.mp sorted
    have early : pre.filter (place · ≤ place g) = pre :=
      List.filter_eq_self.mpr fun f hf => decide_eq_true (before f hf g List.mem_cons_self).le
    have late : post.filter (place · ≤ place g) = [] :=
      List.filter_eq_nil_iff.mpr fun f hf => by simpa using (List.pairwise_cons.mp tail).1 f hf
    have cut := same.filter (place · ≤ place g)
    rw [shape, List.filter_append, List.filter_cons, early, late] at cut
    simpa using cut
  constructor
  · rintro ⟨row, inside, id⟩
    obtain ⟨f, hf, rfl⟩ := List.mem_map.mp inside
    rw [truncatedId] at id
    obtain rfl := own f (same.subset (List.mem_of_mem_take hf)) id
    obtain ⟨pre, post, shape⟩ := List.append_of_mem hf
    have whole : inOrder place base = pre ++ f :: (post ++ (inOrder place base).drop n) := by
      rw [← List.cons_append, ← List.append_assoc, ← shape, List.take_append_drop]
    have below : pre.length < n := by
      have short := List.length_take_le n (inOrder place base)
      rw [shape, List.length_append, List.length_cons] at short
      omega
    obtain ⟨count, bytes⟩ := (counts pre f _ whole).mp below
    have ahead := upTo whole
    refine ⟨same.subset (List.mem_of_mem_take hf), ?_, ?_⟩
    · rw [← ahead.length_eq, List.length_append]
      exact count
    · rw [← (ahead.map _).sum_nat]
      exact bytes
  · rintro ⟨among, count, bytes⟩
    obtain ⟨pre, post, shape⟩ := List.append_of_mem (same.symm.subset among)
    have ahead := upTo shape
    rw [← ahead.length_eq] at count
    rw [← (ahead.map _).sum_nat] at bytes
    rw [List.length_append] at count
    obtain ⟨k, reach⟩ := Nat.exists_eq_add_of_lt ((counts pre g post shape).mpr ⟨count, bytes⟩)
    refine ⟨_, List.mem_map_of_mem ?_, truncatedId⟩
    rw [shape, reach, Nat.add_assoc, List.take_length_add_append]
    exact List.mem_append_right _ List.mem_cons_self

theorem Fits.perm {limit : Nat} {place : Fact → String ×ₗ Nat} {base base' : List Fact} {g : Fact}
    (same : base.Perm base') (fits : Fits bounds serializedBytes limit place base g) :
    Fits bounds serializedBytes limit place base' g where
  among := same.subset fits.among
  count := by
    rw [← (same.filter _).length_eq]
    exact fits.count
  bytes := by
    rw [← ((same.filter _).map _).sum_nat]
    exact fits.bytes

end Handler

/-! ## Chains -/

section Chains
variable {accessScopes : List String} {f g : Fact}

/-- The client may read the row: its scope, and the capability its sensitivity asks. -/
def Fact.visibleTo (accessScopes : List String) (f : Fact) : Bool :=
  scopeAuthorized f.scope accessScopes && f.visibleIn (accessScopes ++ [f.scope])

/-- One of the two replaced the other, and the client may read the second. -/
def Ledger.Linked (l : Ledger) (accessScopes : List String) (f g : Fact) : Prop :=
  g ∈ l.facts ∧ g.visibleTo accessScopes = true ∧
    (f.supersededBy = some g.factId ∨ g.supersededBy = some f.factId)

/-- Connected through replacements the client may all read. -/
def Ledger.Connected (l : Ledger) (accessScopes : List String) : Fact → Fact → Prop :=
  Relation.ReflTransGen (l.Linked accessScopes)

open Classical in
noncomputable def Ledger.connected (l : Ledger) (accessScopes : List String) (f : Fact) : List Fact :=
  l.facts.filter fun g => l.Connected accessScopes f g

/-- A successor is a stored fact of the same scope. -/
def Ledger.Kin (l : Ledger) : Prop :=
  ∀ f ∈ l.facts, ∀ k, f.supersededBy = some k → ∃ g ∈ l.facts, g.factId = k ∧ g.scope = f.scope

theorem kinScope (unique : Table.Unique Fact.factId l.facts) (kin : l.Kin) (hf : f ∈ l.facts) (hg : g ∈ l.facts)
    (replaced : f.supersededBy = some g.factId) : g.scope = f.scope := by
  obtain ⟨h, hh, same, scope⟩ := kin f hf _ replaced
  rwa [Table.uniqueEq unique hh hg same] at scope

theorem linkedScope (unique : Table.Unique Fact.factId l.facts) (kin : l.Kin) (hf : f ∈ l.facts)
    (linked : l.Linked accessScopes f g) : g.scope = f.scope := by
  obtain ⟨hg, -, onward | back⟩ := linked
  · exact kinScope unique kin hf hg onward
  · exact (kinScope unique kin hg hf back).symm

theorem connectedSource (unique : Table.Unique Fact.factId l.facts) (kin : l.Kin) (hf : f ∈ l.facts)
    (visible : f.visibleTo accessScopes = true) (connected : l.Connected accessScopes f g) :
    g ∈ l.facts ∧ g.visibleTo accessScopes = true ∧ g.scope = f.scope := by
  induction connected with
  | refl => exact ⟨hf, visible, rfl⟩
  | tail _ linked ih =>
    obtain ⟨hg, -, scope⟩ := ih
    exact ⟨linked.1, linked.2.1, (linkedScope unique kin hg linked).trans scope⟩

theorem connectedMem : g ∈ l.connected accessScopes f ↔ g ∈ l.facts ∧ l.Connected accessScopes f g := by
  simp [Ledger.connected]

theorem chainStepMem (unique : Table.Unique Fact.factId l.facts) (kin : l.Kin) (hf : f ∈ l.facts)
    (visible : f.visibleTo accessScopes = true) {row : Nat × Option Nat} :
    row ∈ l.chainStep (accessScopes ++ [f.scope]) f.link ↔ ∃ g, l.Linked accessScopes f g ∧ g.link = row := by
  simp only [Fact.visibleTo, Bool.and_eq_true] at visible
  have granted {g : Fact} (same : g.scope = f.scope) (seen : g.visibleIn (accessScopes ++ [f.scope]) = true) :
      g.visibleTo accessScopes = true := by
    simp only [Fact.visibleTo, Bool.and_eq_true, same]
    exact ⟨visible.1, seen⟩
  simp only [Ledger.chainStep, List.mem_append, List.mem_map, List.mem_filter, Bool.and_eq_true]
  constructor
  · rintro (⟨g, ⟨hg, hit, seen⟩, rfl⟩ | ⟨g, ⟨hg, hit, seen⟩, rfl⟩)
    · have back : g.supersededBy = some f.factId := of_decide_eq_true hit
      exact ⟨g, ⟨hg, granted (kinScope unique kin hg hf back).symm seen, .inr back⟩, rfl⟩
    · have onward : some g.factId = f.supersededBy := of_decide_eq_true hit
      exact ⟨g, ⟨hg, granted (kinScope unique kin hf hg onward.symm) seen, .inl onward.symm⟩, rfl⟩
  · rintro ⟨g, linked, rfl⟩
    have scope := linkedScope unique kin hf linked
    obtain ⟨hg, seen, direction⟩ := linked
    simp only [Fact.visibleTo, Bool.and_eq_true, scope] at seen
    rcases direction with onward | back
    · exact .inr ⟨g, ⟨hg, decide_eq_true onward.symm, seen.2⟩, rfl⟩
    · exact .inl ⟨g, ⟨hg, decide_eq_true back, seen.2⟩, rfl⟩

theorem chainReach (unique : Table.Unique Fact.factId l.facts) (kin : l.Kin) (hf : f ∈ l.facts)
    (visible : f.visibleTo accessScopes = true) {row : Nat × Option Nat} :
    Relation.ReflTransGen (fun a b => b ∈ l.chainStep (accessScopes ++ [f.scope]) a) f.link row ↔
      ∃ g, l.Connected accessScopes f g ∧ g.link = row := by
  have onward {g : Fact} (connected : l.Connected accessScopes f g) {row : Nat × Option Nat} :
      row ∈ l.chainStep (accessScopes ++ [f.scope]) g.link ↔ ∃ h, l.Linked accessScopes g h ∧ h.link = row := by
    obtain ⟨hg, seen, scope⟩ := connectedSource unique kin hf visible connected
    rw [← scope]
    exact chainStepMem unique kin hg seen
  constructor
  · intro reached
    induction reached with
    | refl => exact ⟨f, .refl, rfl⟩
    | tail _ stepped ih =>
      obtain ⟨g, connected, rfl⟩ := ih
      obtain ⟨h, linked, rfl⟩ := (onward connected).mp stepped
      exact ⟨h, connected.tail linked, rfl⟩
  · rintro ⟨g, connected, rfl⟩
    induction connected with
    | refl => exact .refl
    | tail connected linked ih => exact ih.tail ((onward connected).mpr ⟨_, linked, rfl⟩)

theorem chainRows (unique : Table.Unique Fact.factId l.facts) (kin : l.Kin) (hf : f ∈ l.facts)
    (visible : f.visibleTo accessScopes = true) {limit : Nat}
    (enough : (l.connected accessScopes f).length ≤ limit) :
    (RecursiveQuery.rows (l.chainStep (accessScopes ++ [f.scope])) limit [f.link] [f.link]).Perm
      ((l.connected accessScopes f).map Fact.link) := by
  have member {row : Nat × Option Nat} : row ∈ (l.connected accessScopes f).map Fact.link ↔
      ∃ g, l.Connected accessScopes f g ∧ g.link = row := by
    rw [List.mem_map]
    refine exists_congr fun g => and_congr_left fun _ => ?_
    rw [connectedMem]
    exact ⟨And.right, fun connected => ⟨(connectedSource unique kin hf visible connected).1, connected⟩⟩
  have distinct : ((l.connected accessScopes f).map Fact.link).Nodup := by
    have ids : (((l.connected accessScopes f).map Fact.link).map Prod.fst).Nodup := by
      rw [List.map_map]
      exact (List.filter_sublist.map Fact.factId).nodup unique
    exact ids.of_map Prod.fst
  have once : ([] ++ [f.link]).Nodup := List.nodup_singleton _
  refine (List.perm_ext_iff_of_nodup (RecursiveQuery.rowsDistinct once) distinct).mpr fun row => ?_
  rw [member, ← chainReach unique kin hf visible]
  refine RecursiveQuery.rowsMem (member.mpr ⟨f, .refl, rfl⟩) (fun a ha b stepped => ?_) (by simpa using enough)
  rw [member] at ha ⊢
  rw [← chainReach unique kin hf visible] at ha ⊢
  exact ha.tail stepped

theorem chainFacts (unique : Table.Unique Fact.factId l.facts) (kin : l.Kin) (hf : f ∈ l.facts)
    (visible : f.visibleTo accessScopes = true) {limit : Nat}
    (enough : (l.connected accessScopes f).length ≤ limit) :
    factHistory l (accessScopes ++ [f.scope]) f.factId limit =
        (inOrder Fact.chainPlace ((RecursiveQuery.rows (l.chainStep (accessScopes ++ [f.scope])) limit [f.link]
          [f.link]).flatMap fun row => l.facts.filter fun g =>
            g.factId = row.1 && g.visibleIn (accessScopes ++ [f.scope]))).take limit ∧
      ((RecursiveQuery.rows (l.chainStep (accessScopes ++ [f.scope])) limit [f.link] [f.link]).flatMap fun row =>
        l.facts.filter fun g => g.factId = row.1 && g.visibleIn (accessScopes ++ [f.scope])).Perm
          (l.connected accessScopes f) := by
  have alone {g : Fact} (hg : g ∈ l.facts) (seen : g.visibleIn (accessScopes ++ [f.scope]) = true) :
      (l.facts.filter fun h => h.factId = g.factId && h.visibleIn (accessScopes ++ [f.scope])) = [g] := by
    have rows : l.facts.Nodup := List.Nodup.of_map _ unique
    refine List.perm_singleton.mp ((List.perm_ext_iff_of_nodup (rows.filter _) (List.nodup_singleton g)).mpr
      fun h => ?_)
    simp only [List.mem_filter, Bool.and_eq_true, decide_eq_true_eq, List.mem_singleton]
    constructor
    · rintro ⟨hh, same, -⟩
      exact Table.uniqueEq unique hh hg same
    · rintro rfl
      exact ⟨hg, rfl, seen⟩
  constructor
  · unfold factHistory
    dsimp only
    rw [alone hf (by simp only [Fact.visibleTo, Bool.and_eq_true] at visible; exact visible.2)]
    rfl
  · refine ((chainRows unique kin hf visible enough).flatMap_right _).trans ?_
    rw [List.flatMap_map]
    refine .of_eq (Eq.trans (List.flatMap_congr fun g inside => ?_) (List.flatMap_singleton' _))
    obtain ⟨hg, connected⟩ := connectedMem.mp inside
    obtain ⟨-, seen, scope⟩ := connectedSource unique kin hf visible connected
    simp only [Fact.visibleTo, Bool.and_eq_true, scope] at seen
    exact alone hg seen.2

/-! ## Requests for a fact -/

-- the order of the rows selected for a fact, and the rows they are selected from
def Fact.historyPlace (f : Fact) : Fact → String ×ₗ Nat :=
  match f.slotKeys with
  | some _ => Fact.slotPlace
  | none => Fact.chainPlace

noncomputable def Ledger.historyBase (l : Ledger) (accessScopes : List String) (f : Fact) : List Fact :=
  match f.slotKeys with
  | some (subject, predicate) => l.facts.filter fun g =>
      g.visibleIn (slotScopes accessScopes f) && g.keyedBy subject predicate
  | none => l.connected accessScopes f

-- a capability is no run scope, so that the scope of a fact grants none
theorem capabilityGranted {scope capability : String} (plain : isRunScope capability = false)
    (authorized : scopeAuthorized scope accessScopes = true)
    (granted : capability ∈ accessScopes ++ [scope]) : capability ∈ accessScopes := by
  rcases List.mem_append.mp granted with granted | same
  · exact granted
  · rw [← List.mem_singleton.mp same] at authorized
    simpa [scopeAuthorized, plain] using authorized

theorem visibleGranted (visible : f.visibleTo accessScopes = true) : factIsVisible accessScopes f = true := by
  simp only [Fact.visibleTo, Fact.visibleIn, Bool.and_eq_true, Bool.or_eq_true, decide_eq_true_eq,
    List.contains_eq_mem] at visible
  obtain ⟨authorized, -, (normal | ⟨sensitive, granted⟩) | ⟨secret, granted⟩⟩ := visible
  · simp [factIsVisible, authorized, normal]
  · simp [factIsVisible, authorized, sensitive, capabilityGranted (by decide) authorized granted]
  · simp [factIsVisible, authorized, secret, capabilityGranted (by decide) authorized granted]

theorem anchorFound (unique : Table.Unique Fact.factId l.facts) (hf : f ∈ l.facts)
    (visible : f.visibleTo accessScopes = true) (limit : Nat) :
    anchoredHistory l accessScopes f.factId limit = match f.slotKeys with
      | some (subject, predicate) => .ok (slotHistory l (slotScopes accessScopes f) subject predicate (limit + 1))
      | none => .ok (factHistory l (accessScopes ++ [f.scope]) f.factId (limit + 1)) := by
  have stored : l.fact f.factId = some f := Table.findOfMem unique hf
  by_cases granted : f.visibleIn accessScopes = true
  · have anchor : historicalFact l f.factId accessScopes = some f := by
      simp [historicalFact, stored, granted]
    simp [anchoredHistory, anchor, okBind]
  · have anchor : historicalFact l f.factId accessScopes = none := by
      simp [historicalFact, stored, granted]
    have scopes : authorizedReadScopes l accessScopes f.factId = some (accessScopes ++ [f.scope]) := by
      simp [authorizedReadScopes, stored, visibleGranted visible]
    simp only [Fact.visibleTo, Bool.and_eq_true] at visible
    have widened : historicalFact l f.factId (accessScopes ++ [f.scope]) = some f := by
      simp [historicalFact, stored, visible.2]
    simp [anchoredHistory, anchor, scopes, widened, okBind]

theorem anchoredShown (bounds : OutputBounds) (serializedBytes : HistoryRow → Nat)
    (unique : Table.Unique Fact.factId l.facts) (kin : l.Kin) (hf : f ∈ l.facts)
    (visible : f.visibleTo accessScopes = true) {limit : Nat}
    (enough : (l.connected accessScopes f).length ≤ limit) :
    ∃ rows, anchoredHistory l accessScopes f.factId limit = .ok rows ∧ ∀ g ∈ l.facts,
      ((∃ row ∈ (fillHistory bounds serializedBytes limit emptyHistoryBytes true rows).facts,
          row.fact.factId = g.factId) ↔
        Fits bounds serializedBytes limit f.historyPlace (l.historyBase accessScopes f) g) := by
  have slotNamed (g h : Fact) (same : g.slotPlace = h.slotPlace) : g.factId = h.factId :=
    congrArg (fun place => (ofLex place).2) same
  have chainNamed (g h : Fact) (same : g.chainPlace = h.chainPlace) : g.factId = h.factId :=
    congrArg (fun place => (ofLex place).2) same
  rw [anchorFound unique hf visible]
  unfold Fact.historyPlace Ledger.historyBase
  cases f.slotKeys with
  | some keys =>
    obtain ⟨subject, predicate⟩ := keys
    refine ⟨_, rfl, fun g hg => shown ((List.filter_sublist.map Fact.factId).nodup unique) slotNamed
      fun h hh same => Table.uniqueEq unique (List.mem_filter.mp hh).1 hg same⟩
  | none =>
    obtain ⟨rows, same⟩ := chainFacts unique kin hf visible (Nat.le_succ_of_le enough)
    refine ⟨_, rfl, fun g hg => ?_⟩
    rw [rows, shown (((same.map Fact.factId).nodup_iff).mpr ((List.filter_sublist.map Fact.factId).nodup unique))
      chainNamed fun h hh id => Table.uniqueEq unique (connectedMem.mp (same.subset hh)).1 hg id]
    exact ⟨Fits.perm same, Fits.perm same.symm⟩

/-- Asked for a fact, with room for all facts connected with it, the history has them all if and only if
each of them is in the slot the fact has keys of, if it has any, and fits the answer. -/
theorem historyComplete {bounds : OutputBounds} {serializedBytes : HistoryRow → Nat} {ops : List (Operation rt)}
    (planned : Run.Meets Operation.perform Operation.Planned Store.empty ops) (hf : f ∈ (history ops).facts)
    (positive : 0 < f.factId) (visible : f.visibleTo accessScopes = true) {limit : Nat}
    (accepted : 0 < limit ∧ limit ≤ 200)
    (enough : ((history ops).toLedger.connected accessScopes f).length ≤ limit) :
    ∃ response, memoryHistory bounds serializedBytes rt (history ops).toLedger accessScopes
        [("fact_id", .int f.factId), ("limit", .int limit)] = .ok response ∧
      ((∀ g ∈ (history ops).toLedger.connected accessScopes f, ∃ row ∈ response.facts, row.fact.factId = g.factId) ↔
        ∀ g ∈ (history ops).toLedger.connected accessScopes f, Fits bounds serializedBytes limit f.historyPlace
          ((history ops).toLedger.historyBase accessScopes f) g) := by
  have forest : (history ops).toLedger.Forest := Run.invariantWhen (P := fun s : Store => s.toLedger.Forest)
    (fun _ _ _ planned done forest => performForest planned done forest) planned forestEmpty
  obtain ⟨rows, found, shows⟩ := anchoredShown bounds serializedBytes
    forest.factIds forest.kin hf visible enough
  refine ⟨_, ?_, forall₂_congr fun g hg => shows g (connectedMem.mp hg).1⟩
  obtain ⟨some', few⟩ := accepted
  have limited : readLimit (.int limit) 100 = .ok limit := by
    simp [readLimit, readOptionalPositiveInt, readPositiveInt, some', few, okBind, ensure]
  have asked : readPositiveInt "fact_id" (.int f.factId) = .ok f.factId := by
    simp [readPositiveInt, positive]
  have checked : checkParams rt [("fact_id", .int f.factId), ("limit", .int limit)] []
      ["fact_id", "subject_key", "predicate_key", "scope", "limit"] = .ok () := by
    simp [checkParams, okBind, ensure]
  have last : List.lookup "limit" [("fact_id", Json.int f.factId), ("limit", Json.int limit)] =
      some (.int limit) := rfl
  simp only [memoryHistory, checked, okBind, last, Option.getD_some, limited]
  simp [asked, found, okBind, ensure]

end Chains

namespace Example

def stamped : List (Operation .plain) :=
  [.write trusted caller (claim "k1" "Alex is in Lima" none (by decide +kernel)),
    .write trusted caller (claim "k2" "Alex is in Oslo" (some 1) (by decide +kernel)),
    .write trusted caller (claim "k3" "Alex is not in Oslo" none (by decide +kernel))]

theorem unmerged {ops : List (Operation .plain)} (kinds : ∀ o ∈ ops, o.isMerge = false) :
    Run.Meets Operation.perform Operation.Planned Store.empty ops :=
  Run.meetsTrivial fun s o ho => by
    have kind := kinds o ho
    cases o with
    | mergeClusters => cases kind
    | _ => trivial

-- the slot has the two disputed rows, the replaced one is not in it
theorem chainHidden : Run.Meets Operation.perform Operation.Planned Store.empty stamped ∧
    ∃ f ∈ (history stamped).facts, 0 < f.factId ∧ f.visibleTo ["private"] = true ∧
      ((history stamped).toLedger.connected ["private"] f).length ≤ 200 ∧
      ∃ response, memoryHistory defaultOutputBounds (fun _ => 0) .plain (history stamped).toLedger ["private"]
          [("fact_id", .int f.factId), ("limit", .int 200)] = .ok response ∧ response.outputTruncated = false ∧
        ∃ g ∈ (history stamped).toLedger.connected ["private"] f,
          ∀ row ∈ response.facts, row.fact.factId ≠ g.factId := by
  refine ⟨unmerged fun o ho => ?_, ?_⟩
  · simpa using List.all_eq_true.mp (by decide : (stamped.all fun o => !o.isMerge) = true) o ho
  · have stored : ∃ f ∈ (history stamped).facts, f.factId = 2 ∧ f.visibleTo ["private"] = true ∧
        ∃ g ∈ (history stamped).facts, g.factId = 1 ∧ g.visibleTo ["private"] = true ∧ g.supersededBy = some 2 := by
      decide +kernel
    have answered : ((memoryHistory defaultOutputBounds (fun _ => 0) .plain (history stamped).toLedger ["private"]
        [("fact_id", .int 2), ("limit", .int 200)]).toOption.map fun response =>
          (response.facts.map fun row => row.fact.factId, response.outputTruncated)) = some ([2, 3], false) := by
      decide +kernel
    obtain ⟨f, hf, id, seen, g, hg, gid, gseen, replaced⟩ := stored
    obtain ⟨response, done, rows⟩ := Option.map_eq_some_iff.mp answered
    obtain ⟨ids, whole⟩ := Prod.mk.inj rows
    refine ⟨f, hf, by omega, seen, ?_, response, ?_, whole, g, ?_, fun row inside same => ?_⟩
    · refine (List.length_filter_le _ _).trans ?_
      decide +kernel
    · rw [id]
      exact okOfOption done
    · exact connectedMem.mpr ⟨hg, .single ⟨hg, gseen, .inr (id ▸ replaced)⟩⟩
    · have listed : row.fact.factId ∈ [2, 3] := ids ▸ List.mem_map_of_mem inside
      rw [same, gid] at listed
      simp at listed

def replacedClaim : List (Operation .plain) := stamped.take 2

theorem historyCompleteHere : ∃ f ∈ (history replacedClaim).facts, f.factId = 2 ∧
    ∃ response, memoryHistory defaultOutputBounds (fun _ => 0) .plain (history replacedClaim).toLedger ["private"]
        [("fact_id", .int f.factId), ("limit", .int 200)] = .ok response ∧
      ((∀ g ∈ (history replacedClaim).toLedger.connected ["private"] f,
          ∃ row ∈ response.facts, row.fact.factId = g.factId) ↔
        ∀ g ∈ (history replacedClaim).toLedger.connected ["private"] f,
          Fits defaultOutputBounds (fun _ => 0) 200 f.historyPlace
            ((history replacedClaim).toLedger.historyBase ["private"] f) g) := by
  have stored : ∃ f ∈ (history replacedClaim).facts, f.factId = 2 ∧ f.visibleTo ["private"] = true := by
    decide +kernel
  obtain ⟨f, hf, id, seen⟩ := stored
  have kinds : ∀ o ∈ replacedClaim, o.isMerge = false := fun o ho => by
    simpa using List.all_eq_true.mp (by decide : (replacedClaim.all fun o => !o.isMerge) = true) o ho
  refine ⟨f, hf, id, historyComplete (unmerged kinds) hf (by omega) seen ⟨by decide, by decide⟩ ?_⟩
  refine (List.length_filter_le _ _).trans ?_
  decide +kernel

end Example
end Enfold
