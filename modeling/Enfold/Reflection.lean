import Enfold.CitationText
import Enfold.ClusterMerge
import Enfold.EmbeddedJson
import Enfold.InsightSources
import Enfold.SlotVocabulary

/-! The reflection pass: clusters of active facts, one answer of a model for each, and the insights made of the
answers. The store goes on changing while a model answers, and the sources are read again before the insert. -/
namespace Enfold

open Fallible

/-! ## The answer -/

/-- A `TypeError` or `ValueError`, and an `OverflowError`. -/
inductive IntFault where
  | refused | overflow
  deriving DecidableEq, Repr

structure ReflectionRuntime extends ResponseRuntime where
  /-- `int` of a text, and of a float literal. -/
  parsed : PyText → Option Int
  truncated : NumberText → Except IntFault Int

def NumberText.isWhole (t : NumberText) : Bool := t.fraction = [] && t.exponent = []

def NumberText.wholeValue (t : NumberText) : Int :=
  if t.sign = ['-'] then -(readNat t.whole : Int) else readNat t.whole

structure Insight where
  content : PyText
  sourceFactIds : List Nat
  deriving DecidableEq, Repr

inductive ReflectionFault where
  | loads (fault : LoadFault)
  | overflow
  deriving DecidableEq, Repr

-- no other letter has one of these as its upper case
def CodePoint.upper : CodePoint → CodePoint
  | .char c => .char c.toUpper
  | .surrogate code => .surrogate code

def saysNone (text : PyText) : Bool := text.map CodePoint.upper = pyText "NONE"

section Parse
variable (rt : ReflectionRuntime)

/-- `int(value)`. -/
def pyInt : PyJson → Except IntFault Int
  | .bool b => .ok (if b then 1 else 0)
  | .number t => if t.isWhole then .ok t.wholeValue else rt.truncated t
  | .str text => (rt.parsed text).elim (.error .refused) .ok
  | .constant name => if name = "NaN" then .error .refused else .error .overflow
  | _ => .error .refused

def decodedReflection (text : List Char) : Except ReflectionFault (Option PyJson) :=
  let decoded (text : List Char) (other : Except ReflectionFault (Option PyJson)) :=
    match pyLoads rt.recursionLimit text with
    | .ok value => .ok (some value)
    | .error .decodeError => other
    | .error fault => .error (.loads fault)
  decoded text (match extractJsonObject text with
    | none => .ok none
    | some block => decoded block (.ok none))

/-- The ids a response cites, when it cites two or more and no others than these. -/
def groundedIds (items : List PyJson) (validIds : List Nat) : Except ReflectionFault (Option (List Nat)) :=
  match items.mapM (pyInt rt) with
  | .error .refused => .ok none
  | .error .overflow => .error .overflow
  | .ok ids =>
    let cited := Text.firstPlaces ids
    if cited.length < 2 || cited.any fun i => !validIds.any fun v => decide ((v : Int) = i) then .ok none
    else .ok (some (cited.map Int.toNat))

/-- `_parse_reflection_response`. -/
def parseReflectionResponse (raw : List Char) (validIds : List Nat) :
    Except ReflectionFault (Option Insight) := do
  let text := Text.stripWith Text.isSpace raw
  if text = [] || saysNone (text.map .char) then .ok none
  else match ← decodedReflection rt text with
    | some (.obj members) =>
      let insight := responseField rt.toResponseRuntime members "insight" ""
      if insight = [] || saysNone insight then .ok none
      else match (members.reverse.find? fun member => member.1 = pyText "source_fact_ids").map Prod.snd with
        | some (.arr (item :: items)) => do
          let ids ← groundedIds rt (item :: items) validIds
          .ok (ids.map fun ids => ⟨insight, ids⟩)
        | _ => .ok none
    | _ => .ok none

end Parse

/-! ## Clusters -/

def Fact.reflects (f : Fact) : Bool :=
  f.current && f.conflictGroup.isNone && f.category ≠ "insight" && !isLegacySuperseded f.content

/-- `_active_fact_rows`. -/
def activeFactRows (l : Ledger) : List Fact := l.facts.filter Fact.reflects

/-- `_sources_still_active`. -/
def sourcesStillActive (l : Ledger) (sourceIds : List Nat) : Bool :=
  let rows := l.facts.filter fun f => sourceIds.contains f.factId
  sourceIds ≠ [] && rows.length = sourceIds.dedup.length && rows.all Fact.reflects

structure ReflectionStore extends EntityStore where
  /-- The embedding matrix of the identity, when there is one. -/
  matrix : Option (List (Nat × List Rat))
  lastRun : Option Rat

structure ReflectionConfig where
  intervalSeconds : Rat
  maxClusters : Nat
  hubDegreeLimit : Nat
  cosineLow : Rat
  cosineHigh : Rat

def cosinePopulationLimit : Nat := 2000

/-- `_entity_clusters`. -/
def entityClusters (s : ReflectionStore) (activeIds : List Nat) (hubDegreeLimit : Nat) : List (List Nat) :=
  let rows := s.factEntities.filter fun link =>
    s.facts.any (·.factId = link.factId) && activeIds.contains link.factId
  let members (entityId : Nat) : List Nat :=
    ((rows.filter (·.entityId = entityId)).map FactEntity.factId).dedup.insertionSort (· ≤ ·)
  ((Text.firstPlaces (rows.map FactEntity.entityId)).map members).filter fun unique =>
    2 ≤ unique.length && unique.length ≤ hubDegreeLimit

/-- `_cosine_clusters`; `similar` is the product of two rows. -/
def cosineClusters (similar : List Rat → List Rat → Rat) (config : ReflectionConfig) (s : ReflectionStore)
    (activeIds : List Nat) (maxClusters : Nat) : List (List Nat) :=
  let rows := ((s.matrix.getD []).filter fun row => activeIds.contains row.1).take cosinePopulationLimit
  let near (a b : Nat × List Rat) : Option (List Nat) :=
    let similarity := similar b.2 a.2
    if config.cosineLow ≤ similarity && similarity < config.cosineHigh then
      some (([a.1, b.1].dedup).insertionSort (· ≤ ·)) else none
  ((rows.tails.flatMap fun tail => match tail with
    | [] => []
    | a :: others => others.filterMap (near a)).take maxClusters)

/-- `select_clusters`. -/
def selectClusters (similar : List Rat → List Rat → Rat) (config : ReflectionConfig) (s : ReflectionStore) :
    List (List Nat) :=
  let activeIds := (activeFactRows s.toLedger).map Fact.factId
  if activeIds.length < 2 then []
  else
    let clusters := entityClusters s activeIds config.hubDegreeLimit
    let filled := if clusters.length < config.maxClusters then
      clusters ++ cosineClusters similar config s activeIds (config.maxClusters - clusters.length) else clusters
    filled.take config.maxClusters

/-! ## Passes

Any number of threads reflect on one store. -/

structure Reflecting where
  now : Rat
  active : List Fact
  waiting : List (List Nat)

inductive ReflectionPhase where
  | idle
  | due (now : Rat)
  | asking (pass : Reflecting)
  | checking (pass : Reflecting) (cluster : List Nat) (insight : Insight)
  | inserting (pass : Reflecting) (cluster : List Nat) (insight : Insight)

def Reflecting.facts (pass : Reflecting) (cluster : List Nat) : List Nat :=
  cluster.filter fun factId => pass.active.any (·.factId = factId)

/-- The clock of the store: a pass is due when there was none, or the interval has gone by. -/
def begun (config : ReflectionConfig) (s : ReflectionStore) (now : Rat) : ReflectionPhase :=
  if s.lastRun.any fun last => decide (now - last < config.intervalSeconds) then .idle else .due now

/-- `reflect_on_cluster`: no answer when the call failed, and none is asked for fewer than two facts. -/
def reflectOnCluster (rt : ReflectionRuntime) (facts : List Nat) (answer : Option (List Char)) :
    Option Insight :=
  if facts.length < 2 then none
  else answer.bind fun raw => (parseReflectionResponse rt raw facts).toOption.join

def Insight.sorted (insight : Insight) : List Nat := insight.sourceFactIds.insertionSort (· ≤ ·)

def sourceTags (ids : List Nat) : String := String.ofList (citationMark ++ joinedNumbers (ids.map numeral))

structure Insertion where
  cluster : List Nat
  selected : List Fact
  content : PyText
  sourceIds : List Nat
  before : Ledger

structure ReflectionSystem where
  store : ReflectionStore
  passes : Nat → ReflectionPhase
  insertions : List Insertion

def ReflectionSystem.set (sys : ReflectionSystem) (w : Nat) (phase : ReflectionPhase) : ReflectionSystem :=
  { sys with passes := fun v => if v = w then phase else sys.passes v }

section System
variable (rt : ReflectionRuntime) (config : ReflectionConfig) (similar : List Rat → List Rat → Rat)
  (adds : ReflectionStore → PyText → String → ReflectionStore → Prop)
  (environment : ReflectionStore → ReflectionStore → Prop)

/-- One step of a pass, or of whatever else changes the store. `adds` is the store's own way to add a fact. -/
inductive ReflectionStep : ReflectionSystem → ReflectionSystem → Prop
  | begins {sys w now} (idle : sys.passes w = .idle) :
      ReflectionStep sys (sys.set w (begun config sys.store now))
  | selects {sys w now} (due : sys.passes w = .due now) :
      ReflectionStep sys (sys.set w
        (.asking ⟨now, activeFactRows sys.store.toLedger, selectClusters similar config sys.store⟩))
  | hears {sys w pass cluster rest} (answer : Option (List Char)) (asking : sys.passes w = .asking pass)
      (waiting : pass.waiting = cluster :: rest) :
      ReflectionStep sys (sys.set w (match reflectOnCluster rt (pass.facts cluster) answer with
        | none => .asking { pass with waiting := rest }
        | some insight => .checking { pass with waiting := rest } cluster insight))
  | duplicates {sys w pass cluster insight} (checking : sys.passes w = .checking pass cluster insight) :
      ReflectionStep sys (sys.set w (.asking pass))
  | passes {sys w pass cluster insight} (checking : sys.passes w = .checking pass cluster insight) :
      ReflectionStep sys (sys.set w (.inserting pass cluster insight))
  | stale {sys w pass cluster insight} (inserting : sys.passes w = .inserting pass cluster insight)
      (inactive : sourcesStillActive sys.store.toLedger insight.sorted = false) :
      ReflectionStep sys (sys.set w (.asking pass))
  | inserts {sys w pass cluster insight t} (inserting : sys.passes w = .inserting pass cluster insight)
      (active : sourcesStillActive sys.store.toLedger insight.sorted = true)
      (added : adds sys.store insight.content (sourceTags insight.sorted) t) :
      ReflectionStep sys { sys.set w (.asking pass) with
        store := t
        insertions := sys.insertions ++
          [⟨cluster, pass.active, insight.content, insight.sorted, sys.store.toLedger⟩] }
  | raises {sys w pass cluster insight} (inserting : sys.passes w = .inserting pass cluster insight) :
      ReflectionStep sys (sys.set w (.asking pass))
  | finishes {sys w pass} (asking : sys.passes w = .asking pass) (done : pass.waiting = []) :
      ReflectionStep sys { sys.set w .idle with store := { sys.store with lastRun := some pass.now } }
  | ends {sys w} : ReflectionStep sys (sys.set w .idle)
  | environment {sys t} (changes : environment sys.store t) : ReflectionStep sys { sys with store := t }

inductive ReflectionRun : ReflectionSystem → ReflectionSystem → Prop
  | refl {sys} : ReflectionRun sys sys
  | step {sys mid last} (before : ReflectionRun sys mid)
      (next : ReflectionStep rt config similar adds environment mid last) : ReflectionRun sys last

end System

/-! ## What an answer cites -/

section Answers
variable {rt : ReflectionRuntime} {validIds ids : List Nat} {raw : List Char} {insight : Insight}

theorem groundedIdsSource {items : List PyJson} (h : groundedIds rt items validIds = .ok (some ids)) :
    ids.Nodup ∧ 2 ≤ ids.length ∧ ∀ k ∈ ids, k ∈ validIds := by
  unfold groundedIds at h
  split at h
  · cases h
  · cases h
  · rename_i read found
    dsimp only at h
    split at h
    · cases h
    · rename_i accepted
      cases h
      simp only [Bool.or_eq_true, decide_eq_true_eq, not_or, Nat.not_lt, List.any_eq_true, not_exists, not_and,
        Bool.not_eq_true', Bool.not_eq_false] at accepted
      obtain ⟨two, known⟩ := accepted
      have valid : ∀ i ∈ Text.firstPlaces read, ∃ v ∈ validIds, (v : Int) = i := fun i inside => by
        simpa using known i inside
      refine ⟨?_, by rwa [List.length_map], fun k inside => ?_⟩
      · refine List.Nodup.map_on (fun i listed j listed' same => ?_)
          (List.nodup_reverse.mpr (List.nodup_dedup _))
        obtain ⟨v, -, rfl⟩ := valid i listed
        obtain ⟨w, -, rfl⟩ := valid j listed'
        exact congrArg Int.ofNat same
      · obtain ⟨i, listed, rfl⟩ := List.mem_map.mp inside
        obtain ⟨v, here, rfl⟩ := valid i listed
        exact here

/-- What the parser lets through: a content, and two or more of the ids it was given. -/
structure Insight.Grounded (insight : Insight) (validIds : List Nat) : Prop where
  distinct : insight.sourceFactIds.Nodup
  two : 2 ≤ insight.sourceFactIds.length
  valid : ∀ k ∈ insight.sourceFactIds, k ∈ validIds
  said : insight.content ≠ [] ∧ saysNone insight.content = false

theorem parseGrounded (h : parseReflectionResponse rt raw validIds = .ok (some insight)) :
    insight.Grounded validIds := by
  unfold parseReflectionResponse at h
  dsimp only at h
  split at h
  · cases h
  · obtain ⟨decoded, -, h⟩ := bindOk.mp h
    split at h
    · split at h
      · cases h
      · rename_i said
        split at h
        · obtain ⟨found, read, h⟩ := bindOk.mp h
          cases found with
          | none => cases h
          | some ids =>
            cases h
            obtain ⟨distinct, two, valid⟩ := groundedIdsSource read
            rw [Bool.or_eq_true, not_or, decide_eq_true_eq, Bool.not_eq_true] at said
            exact ⟨distinct, two, valid, said⟩
        · cases h
    · cases h

theorem clusterGrounded {facts : List Nat} {answer : Option (List Char)}
    (h : reflectOnCluster rt facts answer = some insight) : insight.Grounded facts := by
  unfold reflectOnCluster at h
  split at h
  · cases h
  · obtain ⟨raw, -, read⟩ := Option.bind_eq_some_iff.mp h
    refine @parseGrounded rt facts raw insight ?_
    cases parsed : parseReflectionResponse rt raw facts with
    | error fault =>
      rw [parsed] at read
      cases read
    | ok found =>
      rw [parsed] at read
      exact congrArg Except.ok read

end Answers

/-! ## Tags -/

theorem citedTags {ids : List Nat} (some : ids ≠ []) : citedIds (sourceTags ids) = ids := by
  have digits : ∀ n, ∀ c ∈ numeral n, Text.isDigitAscii c = true := by
    intro n c inside
    simp only [numeral, Nat.toString_eq_repr, Nat.toList_repr] at inside
    exact Nat.isDigit_of_mem_toDigits (by omega) (by omega) inside
  have words : ids.map numeral ≠ [] := by simpa using some
  have whole : ∀ word ∈ ids.map numeral, ',' ∉ word := by
    intro word listed comma
    obtain ⟨n, -, rfl⟩ := List.mem_map.mp listed
    exact absurd (digits n _ comma) (by decide)
  have solid : ∀ word ∈ ids.map numeral, word ≠ [] := by
    intro word listed
    obtain ⟨n, -, rfl⟩ := List.mem_map.mp listed
    simp only [numeral, Nat.toString_eq_repr, Nat.toList_repr]
    exact Nat.toDigits_ne_nil
  have running : (joinedNumbers (ids.map numeral)).takeWhile runChar = joinedNumbers (ids.map numeral) := by
    refine List.takeWhile_eq_self_iff.mpr fun c inside => ?_
    rcases Text.joinedChars inside with rfl | ⟨word, listed, here⟩
    · rfl
    · obtain ⟨n, -, rfl⟩ := List.mem_map.mp listed
      exact (digitFacts (digits n c here)).2.2
  have marked : Text.afterFirst citationMark (citationMark ++ joinedNumbers (ids.map numeral)) =
      Option.some (joinedNumbers (ids.map numeral)) := by
    have first : citationMark ++ joinedNumbers (ids.map numeral) =
        's' :: ("ource_facts:".toList ++ joinedNumbers (ids.map numeral)) := rfl
    rw [first, Text.afterFirst, ← first, Text.afterMark]
  have parts := Text.splitOnJoined whole words
  have nonempty : joinedNumbers (ids.map numeral) ≠ [] := by
    intro none'
    rw [← joinedNumbers, none'] at parts
    exact solid [] (parts ▸ List.mem_singleton_self _) rfl
  have found : sourceRun (citationMark ++ joinedNumbers (ids.map numeral)) =
      joinedNumbers (ids.map numeral) := by
    rw [sourceRunFirst marked (by rwa [running]), running]
  rw [citedIds, sourceTags, String.toList_ofList, found, joinedNumbers, parts,
    List.filter_eq_self.mpr fun word listed => decide_eq_true (solid word listed), List.map_map]
  exact (List.map_congr_left fun n _ => readNumeral n).trans (List.map_id ids)

/-! ## Sources read again -/

section Sources
variable {l l' : Ledger} {ids : List Nat} {f : Fact}

theorem stillActive (h : sourcesStillActive l ids = true) (inside : f ∈ l.facts) (cited : f.factId ∈ ids) :
    f.reflects = true := by
  simp only [sourcesStillActive, Bool.and_eq_true, List.all_eq_true] at h
  exact h.2 f (List.mem_filter.mpr ⟨inside, List.contains_iff_mem.mpr cited⟩)

theorem sourcesStored (unique : Table.Unique Fact.factId l.facts) (h : sourcesStillActive l ids = true)
    {k : Nat} (cited : k ∈ ids) : ∃ f ∈ l.facts, f.factId = k := by
  simp only [sourcesStillActive, Bool.and_eq_true, decide_eq_true_eq] at h
  have distinct : ((l.facts.filter fun f => ids.contains f.factId).map Fact.factId).Nodup :=
    List.Nodup.sublist (List.filter_sublist.map _) unique
  have inside : ((l.facts.filter fun f => ids.contains f.factId).map Fact.factId) ⊆ ids.dedup := by
    intro k listed
    obtain ⟨f, here, rfl⟩ := List.mem_map.mp listed
    exact List.mem_dedup.mpr (List.contains_iff_mem.mp (List.mem_filter.mp here).2)
  have all := (List.subperm_of_subset distinct inside).perm_of_length_le (by rw [List.length_map, h.1.2])
  obtain ⟨f, here, same⟩ := List.mem_map.mp (all.mem_iff.mpr (List.mem_dedup.mpr cited))
  exact ⟨f, (List.mem_filter.mp here).1, same⟩

def AddsInsight (l l' : Ledger) (tags : String) : Prop :=
  l'.facts = l.facts ∨ ∃ g, l'.facts = l.facts ++ [g] ∧ g.current = true ∧ g.tags = tags ∧
    g.category = "insight" ∧ ∀ f ∈ l.facts, f.factId ≠ g.factId

theorem addsUnique {tags : String} (unique : Table.Unique Fact.factId l.facts) (added : AddsInsight l l' tags) :
    Table.Unique Fact.factId l'.facts := by
  rcases added with same | ⟨g, shape, -, -, -, fresh⟩
  · rwa [same]
  · rw [shape]
    exact Table.uniqueAppend unique fresh

theorem insertFresh (some : ids ≠ []) (active : sourcesStillActive l ids = true)
    (added : AddsInsight l l' (sourceTags ids)) (fresh : l.InsightsFresh) : l'.InsightsFresh := by
  rcases added with same | ⟨g, shape, current, tags, category, -⟩
  · intro insight tags held
    unfold Ledger.Insight at held
    rw [same] at held ⊢
    exact fresh insight tags held
  · intro insight others held k cited f listed same
    obtain ⟨i, inside, id, kind, now, mine⟩ := held
    rw [shape] at inside listed
    rcases List.mem_append.mp listed with here | new
    · rcases List.mem_append.mp inside with old | added
      · exact fresh insight others ⟨i, old, id, kind, now, mine⟩ k cited f here same
      · obtain rfl := List.mem_singleton.mp added
        rw [← mine, tags, citedTags some] at cited
        have source := stillActive active here (same ▸ cited)
        simp only [Fact.reflects, Bool.and_eq_true] at source
        exact source.1.1.1
    · obtain rfl := List.mem_singleton.mp new
      exact current

end Sources

/-! ## Runs -/

/-- An insight is drawn from its cluster and from what the pass had read. -/
structure Drawn (pass : Reflecting) (cluster : List Nat) (insight : Insight) : Prop where
  active : ∀ f ∈ pass.active, f.reflects = true
  grounded : insight.Grounded (pass.facts cluster)

def ReflectionPhase.Sound : ReflectionPhase → Prop
  | .idle => True
  | .due _ => True
  | .asking pass => ∀ f ∈ pass.active, f.reflects = true
  | .checking pass cluster insight => Drawn pass cluster insight
  | .inserting pass cluster insight => Drawn pass cluster insight

structure Insertion.Grounded (entry : Insertion) : Prop where
  ordered : entry.sourceIds.Pairwise (· < ·)
  two : 2 ≤ entry.sourceIds.length
  clustered : ∀ k ∈ entry.sourceIds, k ∈ entry.cluster
  selected : ∀ k ∈ entry.sourceIds, ∃ f ∈ entry.selected, f.factId = k ∧ f.reflects = true
  active : ∀ k ∈ entry.sourceIds, ∃ f ∈ entry.before.facts, f.factId = k ∧ f.reflects = true
  cited : citedIds (sourceTags entry.sourceIds) = entry.sourceIds
  said : entry.content ≠ [] ∧ saysNone entry.content = false

theorem drawnGrounded {pass : Reflecting} {cluster : List Nat} {insight : Insight} {l : Ledger}
    (drawn : Drawn pass cluster insight) (unique : Table.Unique Fact.factId l.facts)
    (active : sourcesStillActive l insight.sorted = true) :
    (⟨cluster, pass.active, insight.content, insight.sorted, l⟩ : Insertion).Grounded := by
  have perm := List.perm_insertionSort (· ≤ ·) insight.sourceFactIds
  have two : 2 ≤ insight.sorted.length := by
    rw [Insight.sorted, perm.length_eq]
    exact drawn.grounded.two
  have source {k : Nat} (listed : k ∈ insight.sorted) :
      k ∈ cluster ∧ ∃ f ∈ pass.active, f.factId = k ∧ f.reflects = true := by
    have valid := drawn.grounded.valid k (perm.mem_iff.mp listed)
    obtain ⟨inside, known⟩ := List.mem_filter.mp valid
    obtain ⟨f, here, same⟩ := List.any_eq_true.mp known
    exact ⟨inside, f, here, of_decide_eq_true same, drawn.active f here⟩
  refine ⟨?_, two, fun k listed => (source listed).1, fun k listed => (source listed).2, fun k listed => ?_, ?_,
    drawn.grounded.said⟩
  · have sorted := List.pairwise_insertionSort (· ≤ ·) insight.sourceFactIds
    have distinct := perm.nodup_iff.mpr drawn.grounded.distinct
    exact (sorted.and distinct).imp fun both => lt_of_le_of_ne both.1 both.2
  · obtain ⟨f, here, same⟩ := sourcesStored unique active listed
    exact ⟨f, here, same, stillActive active here (same ▸ listed)⟩
  · refine citedTags fun none' => ?_
    change insight.sorted = [] at none'
    rw [none'] at two
    exact absurd two (by decide)

section Runs
variable {rt : ReflectionRuntime} {config : ReflectionConfig} {similar : List Rat → List Rat → Rat}
  {adds : ReflectionStore → PyText → String → ReflectionStore → Prop}
  {environment : ReflectionStore → ReflectionStore → Prop} {start sys last : ReflectionSystem}

structure ReflectionSystem.Sound (sys : ReflectionSystem) : Prop where
  keyed : Table.Unique Fact.factId sys.store.facts
  passes : ∀ w, (sys.passes w).Sound
  insertions : ∀ entry ∈ sys.insertions, entry.Grounded

theorem ReflectionSystem.Sound.set (sound : sys.Sound) {w : Nat} {phase : ReflectionPhase}
    (next : phase.Sound) : (sys.set w phase).Sound where
  keyed := sound.keyed
  passes v := by
    change (if v = w then phase else sys.passes v).Sound
    split
    · exact next
    · exact sound.passes v
  insertions := sound.insertions

theorem begunSound (s : ReflectionStore) (now : Rat) : (begun config s now).Sound := by
  unfold begun
  split
  · exact trivial
  · exact trivial

theorem reflectionStep
    (addsFact : ∀ s content tags t, adds s content tags t → AddsInsight s.toLedger t.toLedger tags)
    (keyed : ∀ s t, environment s t → Table.Unique Fact.factId t.facts) (sound : sys.Sound)
    (step : ReflectionStep rt config similar adds environment sys last) : last.Sound := by
  have phase {w : Nat} {phase : ReflectionPhase} (here : sys.passes w = phase) : phase.Sound :=
    here ▸ sound.passes w
  cases step with
  | begins idle => exact sound.set (begunSound _ _)
  | selects due => exact sound.set fun f inside => (List.mem_filter.mp inside).2
  | @hears w pass cluster rest answer asking waiting =>
    refine sound.set ?_
    have active : ∀ f ∈ pass.active, f.reflects = true := phase asking
    split
    · exact active
    · rename_i insight heard
      exact ⟨active, clusterGrounded heard⟩
  | duplicates checking => exact sound.set (Drawn.active (phase checking))
  | @passes w pass cluster insight checking =>
    have drawn : Drawn pass cluster insight := phase checking
    exact sound.set drawn
  | stale inserting => exact sound.set (Drawn.active (phase inserting))
  | raises inserting => exact sound.set (Drawn.active (phase inserting))
  | @inserts w pass cluster insight t inserting active added =>
    have drawn : Drawn pass cluster insight := phase inserting
    have moved : (sys.set w (.asking pass)).Sound := sound.set drawn.active
    refine ⟨addsUnique sound.keyed (addsFact _ _ _ _ added), moved.passes, fun entry inside => ?_⟩
    rcases List.mem_append.mp inside with old | new
    · exact sound.insertions entry old
    · rw [List.mem_singleton.mp new]
      exact drawnGrounded drawn sound.keyed active
  | @finishes w pass asking done =>
    have moved : (sys.set w .idle).Sound := sound.set trivial
    exact ⟨sound.keyed, moved.passes, sound.insertions⟩
  | ends => exact sound.set trivial
  | environment changes => exact ⟨keyed _ _ changes, sound.passes, sound.insertions⟩

theorem freshStep
    (addsFact : ∀ s content tags t, adds s content tags t → AddsInsight s.toLedger t.toLedger tags)
    (keeps : ∀ s t, environment s t → s.toLedger.InsightsFresh → t.toLedger.InsightsFresh)
    (fresh : sys.store.toLedger.InsightsFresh)
    (step : ReflectionStep rt config similar adds environment sys last) :
    last.store.toLedger.InsightsFresh := by
  cases step with
  | begins => exact fresh
  | selects => exact fresh
  | hears => exact fresh
  | duplicates => exact fresh
  | passes => exact fresh
  | stale => exact fresh
  | raises => exact fresh
  | @inserts w pass cluster insight t inserting active added =>
    refine insertFresh (fun none' => ?_) active (addsFact _ _ _ _ added) fresh
    simp [sourcesStillActive, none'] at active
  | finishes => exact fresh
  | ends => exact fresh
  | environment changes => exact keeps _ _ changes fresh

theorem soundRun
    (addsFact : ∀ s content tags t, adds s content tags t → AddsInsight s.toLedger t.toLedger tags)
    (keyed : ∀ s t, environment s t → Table.Unique Fact.factId t.facts) (begins : start.Sound)
    (run : ReflectionRun rt config similar adds environment start sys) : sys.Sound := by
  induction run with
  | refl => exact begins
  | step _ next ih => exact reflectionStep addsFact keyed ih next

theorem freshRun
    (addsFact : ∀ s content tags t, adds s content tags t → AddsInsight s.toLedger t.toLedger tags)
    (keeps : ∀ s t, environment s t → s.toLedger.InsightsFresh → t.toLedger.InsightsFresh)
    (fresh : start.store.toLedger.InsightsFresh)
    (run : ReflectionRun rt config similar adds environment start sys) :
    sys.store.toLedger.InsightsFresh := by
  induction run with
  | refl => exact fresh
  | step _ next ih => exact freshStep addsFact keeps ih next

/-- Whatever models answer, and whatever other threads do to the store meanwhile: an insight is inserted with
two or more sources of its cluster, which were active facts when the cluster was read and are so again at
the insert, and its tags are read back as these sources. So passes make no stale insight where nothing else
does. -/
theorem reflectionGrounded
    (addsFact : ∀ s content tags t, adds s content tags t → AddsInsight s.toLedger t.toLedger tags)
    (keyed : ∀ s t, environment s t → Table.Unique Fact.factId t.facts)
    (unique : Table.Unique Fact.factId start.store.facts) (idle : ∀ w, start.passes w = .idle)
    (none' : start.insertions = []) (run : ReflectionRun rt config similar adds environment start sys) :
    (∀ entry ∈ sys.insertions, entry.Grounded) ∧
      ((∀ s t, environment s t → s.toLedger.InsightsFresh → t.toLedger.InsightsFresh) →
        start.store.toLedger.InsightsFresh → sys.store.toLedger.InsightsFresh) := by
  have begins : start.Sound := by
    refine ⟨unique, fun w => ?_, fun entry inside => ?_⟩
    · rw [idle w]
      exact trivial
    · rw [none'] at inside
      exact absurd inside List.not_mem_nil
  exact ⟨(soundRun addsFact keyed begins run).insertions, fun keeps fresh => freshRun addsFact keeps fresh run⟩

end Runs

namespace Example

def reflecting : ReflectionRuntime where
  recursionLimit := 1000
  str := fun _ => []
  errorPos := fun _ => 0
  parsed := fun _ => none
  truncated := fun _ => .error .refused

def hourly : ReflectionConfig := ⟨3600, 3, 25, 3 / 4, 23 / 25⟩

def linked : ReflectionSystem where
  store := { Store.empty with
    facts := [(WriteRequest.plain "k1" "the cat sat on the mat" "user").row 1 "2026-01-03",
      (WriteRequest.plain "k2" "the cat sleeps at noon" "user").row 2 "2026-01-03"]
    entities := []
    factEntities := [⟨1, 7⟩, ⟨2, 7⟩]
    matrix := none
    lastRun := none }
  passes := fun _ => .idle
  insertions := []

def addsRow (s : ReflectionStore) (_ : PyText) (tags : String) (t : ReflectionStore) : Prop :=
  t = { s with facts := s.facts ++
    [{ (WriteRequest.plain "k3" "the cat rests" "reflection").row (nextRowid (s.facts.map Fact.factId))
        "2026-01-04" with category := "insight", tags }] }

def restAnswer : List Char :=
  "\x7b\x22insight\x22: \x22the cat rests\x22, \x22source_fact_ids\x22: [2, 1]\x7d".toList

-- beside the passes anything may happen to the store
def LinkedStep : ReflectionSystem → ReflectionSystem → Prop :=
  ReflectionStep reflecting hourly (fun _ _ => 0) addsRow fun _ t => Table.Unique Fact.factId t.facts

theorem reflectionGroundedHere : ∃ sys, ReflectionRun reflecting hourly (fun _ _ => 0) addsRow
      (fun _ t => Table.Unique Fact.factId t.facts) linked sys ∧
    sys.insertions.map Insertion.sourceIds = [[1, 2]] ∧ ∀ entry ∈ sys.insertions, entry.Grounded := by
  have clusters : selectClusters (fun _ _ => 0) hourly linked.store = [[1, 2]] := by decide +kernel
  have some' : (reflectOnCluster reflecting [1, 2] (some restAnswer)).isSome = true := by decide +kernel
  obtain ⟨insight, heard⟩ := Option.isSome_iff_exists.mp some'
  have ids : (reflectOnCluster reflecting [1, 2] (some restAnswer)).map Insight.sorted = some [1, 2] := by
    decide +kernel
  rw [heard] at ids
  have ids : insight.sorted = [1, 2] := Option.some.inj ids
  let read : Reflecting := ⟨0, activeFactRows linked.store.toLedger, [[1, 2]]⟩
  let pass : Reflecting := { read with waiting := [] }
  have facts : read.facts [1, 2] = [1, 2] := by decide +kernel
  let due := linked.set 0 (.due 0)
  let asking := due.set 0 (.asking read)
  let checking := asking.set 0 (.checking pass [1, 2] insight)
  let inserting := checking.set 0 (.inserting pass [1, 2] insight)
  have begins : LinkedStep linked due := .begins rfl
  have selects : LinkedStep due asking := by
    have step : LinkedStep due _ := @ReflectionStep.selects _ _ _ _ _ due 0 0 rfl
    rwa [show selectClusters (fun _ _ => 0) hourly due.store = [[1, 2]] from clusters] at step
  have hears : LinkedStep asking checking := by
    have step : LinkedStep asking _ :=
      @ReflectionStep.hears _ _ _ _ _ asking 0 read [1, 2] [] (some restAnswer) rfl rfl
    rwa [facts, heard] at step
  have passes : LinkedStep checking inserting :=
    @ReflectionStep.passes _ _ _ _ _ checking 0 pass [1, 2] insight rfl
  have active : sourcesStillActive linked.store.toLedger [1, 2] = true := by decide +kernel
  have inserts : LinkedStep inserting _ :=
    @ReflectionStep.inserts _ _ _ _ _ inserting 0 pass [1, 2] insight _ rfl
      (by rwa [ids]) (show addsRow _ _ _ _ from rfl)
  have unique : (linked.store.facts.map Fact.factId).Nodup := by decide +kernel
  have run := ((((ReflectionRun.refl.step begins).step selects).step hears).step passes).step inserts
  refine ⟨_, run, by simp [inserting, checking, asking, due, ReflectionSystem.set, linked, ids], ?_⟩
  refine (reflectionGrounded (fun s content tags t added => ?_) (fun _ _ h => h) unique
    (fun _ => rfl) rfl run).1
  rw [show t = _ from added]
  exact .inr ⟨_, rfl, rfl, rfl, rfl, fun f inside => Nat.ne_of_lt (nextRowidFresh (List.mem_map_of_mem inside))⟩

end Example
end Enfold
