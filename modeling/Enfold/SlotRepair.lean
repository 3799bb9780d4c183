import Enfold.ConflictLedger
import Enfold.SlotKeys

/-! The start-up repair of the state-slot schema: persisted keys are canonicalised, slots that then hold
several undisputed values are put in dispute, and the one-value index is installed. -/
namespace Enfold

open Fallible

variable (rt : Runtime)

/-! ## The repair -/

def Fact.canonicalize (f : Fact) : Except Raised Fact :=
  match f.subjectKey, f.predicateKey with
  | some subject, some predicate =>
    match normalizeSubjectKey subject, normalizePredicateKey predicate with
    | .ok subjectKey, .ok predicateKey =>
      .ok { f with subjectKey := some subjectKey, predicateKey := some predicateKey }
    | _, _ => .error ⟨.stateSlotInvariantError,
        "fact " ++ toString f.factId ++ " has invalid persisted state-slot keys"⟩
  | _, _ => .ok f

def canonicalizeExistingStateSlots (l : Ledger) : Except Raised Ledger := do
  let facts ← l.facts.mapM Fact.canonicalize
  .ok { l with facts }

/-- `GROUP BY scope, subject_key, predicate_key HAVING COUNT(*) > 1` over the indexed rows. -/
def Ledger.duplicateCurrentSlots (l : Ledger) : List (String × String × String) :=
  let keys := l.facts.filterMap Fact.slotKey
  keys.dedup.filter fun key => 1 < keys.count key

def Ledger.slotIds (l : Ledger) (key : String × String × String) : List Nat :=
  ((l.facts.filter fun f => f.slotKey = some key).map Fact.factId).insertionSort (· ≤ ·)

def repairDetail : JsonObject := [("reason", .str "schema repair duplicate current slot")]

-- each conflict reads the clock when it is opened
def openDuplicateCurrentSlot (now : Nat → String) (l : Ledger) (key : String × String × String) :
    Except Raised Ledger := do
  let (l, _) ← openStateConflict rt l key.2.1 key.2.2 (l.slotIds key) key.1 (now l.nextConflictId)
    repairDetail
  .ok l

def openConflicts (now : Nat → String) : Ledger → List (String × String × String) →
    Except Raised Ledger
  | l, [] => .ok l
  | l, key :: rest => do
    let l ← openDuplicateCurrentSlot rt now l key
    openConflicts now l rest

def openConflictsForDuplicateCurrentSlots (now : Nat → String) (l : Ledger) : Except Raised Ledger :=
  openConflicts rt now l l.duplicateCurrentSlots

/-- `ensure_state_slot_schema` on a facts table with these columns; it is skipped when the temporal
ones are absent. -/
def ensureStateSlotSchema (columns : List String) (now : Nat → String) (l : Ledger) :
    Except Raised (Ledger × Bool) :=
  if ["invalid_at", "superseded_by"].all columns.contains then do
    let l ← canonicalizeExistingStateSlots l
    let l ← openConflictsForDuplicateCurrentSlots rt now l
    let l ← l.admitted l.facts
    .ok (l, true)
  else .ok (l, false)

variable {rt}

/-! ## Canonical facts -/

def Fact.KeysSettled (f : Fact) : Prop :=
  ∀ subject predicate, f.subjectKey = some subject → f.predicateKey = some predicate →
    normalizeSubjectKey subject = .ok subject ∧ normalizePredicateKey predicate = .ok predicate

theorem canonicalizeSettled {f : Fact} (settled : f.KeysSettled) : f.canonicalize = .ok f := by
  unfold Fact.canonicalize
  split
  · rename_i subject predicate hasSubject hasPredicate
    obtain ⟨named, valued⟩ := settled subject predicate hasSubject hasPredicate
    rw [named, valued]
    show Except.ok { f with subjectKey := some subject, predicateKey := some predicate } = .ok f
    rw [← hasSubject, ← hasPredicate]
  · rfl

-- a fact with its keys canonicalised
structure Canonical (f g : Fact) : Prop where
  shape : g = { f with subjectKey := g.subjectKey, predicateKey := g.predicateKey }
  settled : g.KeysSettled

theorem canonicalizeSource {f g : Fact} (h : f.canonicalize = .ok g) : Canonical f g := by
  unfold Fact.canonicalize at h
  split at h
  · rename_i subject predicate hasSubject hasPredicate
    split at h
    · rename_i subjectKey predicateKey named valued
      cases h
      refine ⟨rfl, fun subject' predicate' first second => ?_⟩
      cases first
      cases second
      exact ⟨normalizeSubjectTwice named, normalizePredicateTwice valued⟩
    · cases h
  · rename_i bare
    cases h
    exact ⟨rfl, fun subject predicate first second => absurd second (bare subject predicate first)⟩

theorem canonicalizeAll {facts settled : List Fact} (h : facts.mapM Fact.canonicalize = .ok settled) :
    List.Forall₂ Canonical facts settled := by
  induction facts generalizing settled with
  | nil =>
    cases h
    exact .nil
  | cons f rest ih =>
    obtain ⟨g, tail, first, later, rfl⟩ := mapMCons.mp h
    exact .cons (canonicalizeSource first) (ih later)

theorem canonicalizeNothing {facts : List Fact} (settled : ∀ f ∈ facts, f.KeysSettled) :
    facts.mapM Fact.canonicalize = .ok facts := by
  induction facts with
  | nil => rfl
  | cons f rest ih =>
    exact mapMCons.mpr ⟨f, rest, canonicalizeSettled (settled f List.mem_cons_self),
      ih fun g inside => settled g (List.mem_cons_of_mem _ inside), rfl⟩

/-! ## Opened conflicts -/

def Conflict.slot (row : Conflict) : String × String × String :=
  (row.scope, row.subjectKey, row.predicateKey)

def Fact.filedUnder (rows : List Conflict) (f : Fact) : Fact :=
  match rows.find? fun row => f.slotKey = some row.slot with
  | some row => f.dispute row.conflictId
  | none => f

-- what a dispute leaves of a fact
structure Undated (f g : Fact) : Prop where
  factId : g.factId = f.factId
  state : g.isState = f.isState
  current : g.current = f.current
  scope : g.scope = f.scope
  subject : g.subjectKey = f.subjectKey
  predicate : g.predicateKey = f.predicateKey

theorem filedSame {rows : List Conflict} {f : Fact} : Undated f (f.filedUnder rows) := by
  unfold Fact.filedUnder
  split
  · exact ⟨rfl, rfl, rfl, rfl, rfl, rfl⟩
  · exact ⟨rfl, rfl, rfl, rfl, rfl, rfl⟩

theorem disputedKey {f : Fact} {conflictId : Nat} : (f.dispute conflictId).slotKey = none := by
  unfold Fact.slotKey Fact.dispute
  split
  · simp
  · rfl

theorem slotKeySource {f : Fact} {key : String × String × String} (h : f.slotKey = some key) :
    f.isState = true ∧ f.current = true ∧ f.conflictGroup = none ∧ f.scope = key.1 ∧
      f.subjectKey = some key.2.1 ∧ f.predicateKey = some key.2.2 := by
  unfold Fact.slotKey at h
  split at h
  · rename_i subject predicate hasSubject hasPredicate
    split at h
    · rename_i indexed
      cases h
      simp only [Bool.and_eq_true, Option.isNone_iff_eq_none] at indexed
      exact ⟨indexed.1.1, indexed.1.2, indexed.2, rfl, hasSubject, hasPredicate⟩
    · cases h
  · cases h

theorem slotKeyOf {f : Fact} {subject predicate : String} (state : f.isState = true)
    (current : f.current = true) (calm : f.conflictGroup = none)
    (hasSubject : f.subjectKey = some subject) (hasPredicate : f.predicateKey = some predicate) :
    f.slotKey = some (f.scope, subject, predicate) := by
  simp [Fact.slotKey, hasSubject, hasPredicate, state, current, calm]

theorem filedFirst {row : Conflict} {rows : List Conflict} {f : Fact} :
    (f.filedUnder [row]).filedUnder rows = f.filedUnder (row :: rows) := by
  by_cases hit : f.slotKey = some row.slot
  · have first : f.filedUnder [row] = f.dispute row.conflictId := by
      simp [Fact.filedUnder, hit]
    have both : f.filedUnder (row :: rows) = f.dispute row.conflictId := by
      simp [Fact.filedUnder, hit]
    have missed : rows.find? (fun other => (f.dispute row.conflictId).slotKey = some other.slot) = none :=
      List.find?_eq_none.mpr fun other _ => by simp [disputedKey]
    rw [first, both, Fact.filedUnder, missed]
  · have first : f.filedUnder [row] = f := by simp [Fact.filedUnder, hit]
    rw [first]
    simp [Fact.filedUnder, hit]

variable {k l : Ledger}

theorem slotIdsMem {f : Fact} {key : String × String × String} (keyed : k.Keyed) (hf : f ∈ k.facts) :
    f.factId ∈ k.slotIds key ↔ f.slotKey = some key := by
  simp only [Ledger.slotIds, List.mem_insertionSort, List.mem_map, List.mem_filter, decide_eq_true_eq]
  constructor
  · rintro ⟨g, ⟨hg, slot⟩, id⟩
    rwa [Table.uniqueEq keyed.factIds hg hf id] at slot
  · exact fun slot => ⟨f, ⟨hf, slot⟩, rfl⟩

structure Reopened (k l : Ledger) (keys : List (String × String × String)) (rows : List Conflict) :
    Prop where
  slots : rows.map Conflict.slot = keys
  unresolved : ∀ row ∈ rows, row.resolvedAt = none ∧ k.nextConflictId ≤ row.conflictId
  ids : (rows.map Conflict.conflictId).Nodup
  facts : l.facts = k.facts.map (Fact.filedUnder rows)
  conflicts : l.conflicts = k.conflicts ++ rows
  members : l.members = k.members ++ rows.flatMap fun row =>
    (k.slotIds row.slot).map fun factId => ⟨row.conflictId, factId⟩

theorem openDuplicateSource {now : Nat → String} {key : String × String × String} (keyed : k.Keyed)
    (h : openDuplicateCurrentSlot rt now k key = .ok l) :
    l.Keyed ∧ ∃ row, Reopened k l [key] [row] ∧ l.nextConflictId = k.nextConflictId + 1 ∧
      row.conflictId = k.nextConflictId := by
  simp only [openDuplicateCurrentSlot, bindOk, Prod.exists] at h
  obtain ⟨l', conflictId, opened, last⟩ := h
  cases last
  obtain ⟨-, nonempty, -, members, rfl⟩ := openStateConflictSource opened
  -- a member stands in the slot under its stripped keys, so the keys are stripped already
  obtain ⟨factId, inside⟩ := List.exists_mem_of_ne_nil _ nonempty
  obtain ⟨f, hf, id, state, slot, current, calm⟩ := members factId inside
  have own := (slotIdsMem keyed hf).mp (id ▸ inside)
  obtain ⟨-, -, -, scope, subject, predicate⟩ := slotKeySource own
  simp only [Fact.inSlot, Bool.and_eq_true, decide_eq_true_eq] at slot
  have stripped : (Text.strip key.1, Text.strip key.2.1, Text.strip key.2.2) = key := by
    obtain ⟨⟨inScope, inSubject⟩, inPredicate⟩ := slot
    rw [subject] at inSubject
    rw [predicate] at inPredicate
    rw [← inScope, scope, ← Option.some.inj inSubject, ← Option.some.inj inPredicate]
  have marked : ∀ f, (Fact.dispute k.nextConflictId f).factId = f.factId := fun _ => rfl
  have later := keyed.openConflict (.detected k.nextConflictId (Text.strip key.1) (Text.strip key.2.1)
    (Text.strip key.2.2) (now k.nextConflictId) repairDetail) (k.slotIds key) rfl marked
  obtain ⟨row, shape⟩ : ∃ row, row = Conflict.detected k.nextConflictId (Text.strip key.1)
    (Text.strip key.2.1) (Text.strip key.2.2) (now k.nextConflictId) repairDetail := ⟨_, rfl⟩
  have same : row.slot = key := by rw [shape]; exact stripped
  have rowId : row.conflictId = k.nextConflictId := by rw [shape]; rfl
  have unresolved : row.resolvedAt = none := by rw [shape]; rfl
  rw [← shape] at later ⊢
  refine ⟨later, row, ⟨?_, ?_, by simp, ?_, rfl, ?_⟩, rfl, rowId⟩
  · rw [List.map_singleton, same]
  · intro row' inside'
    rw [List.mem_singleton.mp inside']
    exact ⟨unresolved, rowId.ge⟩
  · refine List.map_congr_left fun g hg => ?_
    by_cases hit : g.slotKey = some key
    · have listed := (slotIdsMem keyed hg).mpr hit
      simp [Fact.filedUnder, same, hit, listed, rowId]
    · have unlisted : g.factId ∉ k.slotIds key := fun listed => hit ((slotIdsMem keyed hg).mp listed)
      simp [Fact.filedUnder, same, hit, unlisted]
  · simp [same, Ledger.openConflict]

theorem reopenedIds {keys : List (String × String × String)} {rows : List Conflict}
    (opened : Reopened k l keys rows) {key : String × String × String} (other : key ∉ keys) :
    l.slotIds key = k.slotIds key := by
  have missed : ∀ f : Fact, f.slotKey = some key → f.filedUnder rows = f := by
    intro f slot
    have none : rows.find? (fun row => f.slotKey = some row.slot) = none := by
      refine List.find?_eq_none.mpr fun row inside => ?_
      rw [slot]
      intro hit
      have same : key = row.slot := Option.some.inj (of_decide_eq_true hit)
      exact other (opened.slots ▸ same ▸ List.mem_map_of_mem inside)
    rw [Fact.filedUnder, none]
  have kept : ∀ f : Fact, decide ((f.filedUnder rows).slotKey = some key) =
      decide (f.slotKey = some key) := by
    intro f
    by_cases slot : f.slotKey = some key
    · rw [missed f slot]
    · have gone : (f.filedUnder rows).slotKey ≠ some key := by
        unfold Fact.filedUnder
        split
        · rw [disputedKey]
          exact fun h => by cases h
        · exact slot
      simp [slot, gone]
  unfold Ledger.slotIds
  rw [opened.facts, List.filter_map, List.map_map]
  refine congrArg (List.insertionSort (· ≤ ·)) ?_
  have same : (fun f : Fact => decide (f.slotKey = some key)) ∘ Fact.filedUnder rows =
      fun f => decide (f.slotKey = some key) := funext kept
  rw [same]
  exact List.map_congr_left fun f _ => filedSame.factId

theorem openConflictsSource {now : Nat → String} {keys : List (String × String × String)}
    (keyed : k.Keyed) (distinct : keys.Nodup) (h : openConflicts rt now k keys = .ok l) :
    ∃ rows, Reopened k l keys rows := by
  induction keys generalizing k with
  | nil =>
    cases h
    exact ⟨[], rfl, fun row inside => absurd inside List.not_mem_nil, List.nodup_nil,
      (List.map_id _).symm, (List.append_nil _).symm, (List.append_nil _).symm⟩
  | cons key rest ih =>
    obtain ⟨middle, first, later⟩ := bindOk.mp h
    obtain ⟨outside, distinct⟩ := List.nodup_cons.mp distinct
    obtain ⟨keyed', row, opened, next, rowId⟩ := openDuplicateSource keyed first
    obtain ⟨rows, opened'⟩ := ih keyed' distinct later
    have slot : row.slot = key := List.singleton_inj.mp opened.slots
    refine ⟨row :: rows, ?_, ?_, ?_, ?_, ?_, ?_⟩
    · rw [List.map_cons, opened'.slots, slot]
    · intro other inside
      rcases List.mem_cons.mp inside with rfl | inside
      · exact opened.unresolved other List.mem_cons_self
      · obtain ⟨unresolved, behind⟩ := opened'.unresolved other inside
        exact ⟨unresolved, by omega⟩
    · refine List.nodup_cons.mpr ⟨fun again => ?_, opened'.ids⟩
      obtain ⟨other, inside, same⟩ := List.mem_map.mp again
      have behind := (opened'.unresolved other inside).2
      omega
    · rw [opened'.facts, opened.facts, List.map_map]
      exact List.map_congr_left fun f _ => filedFirst
    · rw [opened'.conflicts, opened.conflicts, List.append_assoc]
      rfl
    · rw [opened'.members, opened.members, List.append_assoc, List.flatMap_cons, List.flatMap_cons,
        List.flatMap_nil, List.append_nil]
      have stays : ∀ other ∈ rows, middle.slotIds other.slot = k.slotIds other.slot := by
        intro other inside
        refine reopenedIds opened fun here => outside ?_
        rw [← List.mem_singleton.mp here, ← opened'.slots]
        exact List.mem_map_of_mem inside
      have pairs : rows.flatMap (fun other => (middle.slotIds other.slot).map fun factId =>
          (⟨other.conflictId, factId⟩ : Member)) =
          rows.flatMap fun other => (k.slotIds other.slot).map fun factId =>
            ⟨other.conflictId, factId⟩ := by
        refine List.flatMap_congr fun other inside => ?_
        rw [stays other inside]
      rw [pairs]

/-! ## Consistent slots -/

structure Ledger.Lists (l : Ledger) (row : Conflict) (f : Fact) : Prop where
  mem : row ∈ l.conflicts
  unresolved : row.resolvedAt = none
  member : ⟨row.conflictId, f.factId⟩ ∈ l.members

-- two current state facts of one slot
structure Fact.Shares (f g : Fact) : Prop extends Rivals f g where
  keyed : ∃ subject predicate, f.subjectKey = some subject ∧ f.predicateKey = some predicate

structure Ledger.SlotsConsistent (l : Ledger) : Prop where
  filed : ∀ f ∈ l.facts, f.current = true → f.conflictGroup ≠ none → ∃! row, l.Lists row f
  keyed : ∀ row, ∀ f ∈ l.facts, f.isState = true → f.current = true → l.Lists row f →
    f.inSlot row.scope row.subjectKey row.predicateKey = true
  single : ∀ f ∈ l.facts, ∀ g ∈ l.facts, f.Shares g → ∀ row row', l.Lists row f → l.Lists row' g →
    row = row'
  unmixed : ∀ f ∈ l.facts, ∀ g ∈ l.facts, f.Shares g → f.conflictGroup = none → g.conflictGroup = none

/-- No unresolved conflict reaches a slot that holds several undisputed values. -/
def Ledger.DuplicatesFree (l : Ledger) : Prop :=
  ∀ key ∈ l.duplicateCurrentSlots, ∀ f ∈ l.facts, f.isState = true → f.current = true →
    f.inSlot key.1 key.2.1 key.2.2 = true → ∀ row, ¬ l.Lists row f

/-- The primary keys of a stored ledger, and a fresh conflict id that no member row names. -/
structure Ledger.Legacy (l : Ledger) : Prop extends l.Keyed where
  memberBound : ∀ m ∈ l.members, m.conflictId < l.nextConflictId

section Opened
variable {rows : List Conflict} {f g : Fact} {row : Conflict}

theorem Fact.Shares.slotKeys (shares : f.Shares g) (calm : f.conflictGroup = none)
    (calm' : g.conflictGroup = none) : ∃ key, f.slotKey = some key ∧ g.slotKey = some key := by
  obtain ⟨subject, predicate, hasSubject, hasPredicate⟩ := shares.keyed
  refine ⟨(f.scope, subject, predicate),
    slotKeyOf shares.states.1 shares.current.1 calm hasSubject hasPredicate, ?_⟩
  rw [shares.scope]
  exact slotKeyOf shares.states.2 shares.current.2 calm' (shares.subject ▸ hasSubject)
    (shares.predicate ▸ hasPredicate)

theorem filedShares : (f.filedUnder rows).Shares (g.filedUnder rows) ↔ f.Shares g := by
  have left : Undated f (f.filedUnder rows) := filedSame
  have right : Undated g (g.filedUnder rows) := filedSame
  constructor
  · intro shares
    obtain ⟨⟨states, current, scope, subject, predicate⟩, keyed⟩ := shares
    rw [left.state, right.state] at states
    rw [left.current, right.current] at current
    rw [left.scope, right.scope] at scope
    rw [left.subject, right.subject] at subject
    rw [left.predicate, right.predicate] at predicate
    rw [left.subject, left.predicate] at keyed
    exact ⟨⟨states, current, scope, subject, predicate⟩, keyed⟩
  · intro shares
    obtain ⟨⟨states, current, scope, subject, predicate⟩, keyed⟩ := shares
    refine ⟨⟨?_, ?_, ?_, ?_, ?_⟩, ?_⟩
    · rw [left.state, right.state]
      exact states
    · rw [left.current, right.current]
      exact current
    · rw [left.scope, right.scope]
      exact scope
    · rw [left.subject, right.subject]
      exact subject
    · rw [left.predicate, right.predicate]
      exact predicate
    · rw [left.subject, left.predicate]
      exact keyed

theorem filedMiss (missed : ∀ row ∈ rows, f.slotKey ≠ some row.slot) : f.filedUnder rows = f := by
  have none : rows.find? (fun row => f.slotKey = some row.slot) = none :=
    List.find?_eq_none.mpr fun row inside => by simpa using missed row inside
  rw [Fact.filedUnder, none]

theorem filedHit (hit : ∃ row ∈ rows, f.slotKey = some row.slot) :
    (f.filedUnder rows).conflictGroup ≠ none := by
  unfold Fact.filedUnder
  split
  · exact Option.some_ne_none _
  · rename_i none
    obtain ⟨row, inside, slot⟩ := hit
    have missed := List.find?_eq_none.mp none row inside
    simp [slot] at missed

theorem duplicateSource {key : String × String × String} (h : key ∈ k.duplicateCurrentSlots) :
    ∃ f ∈ k.facts, f.slotKey = some key := by
  have inside := List.mem_dedup.mp (List.mem_filter.mp h).1
  exact List.mem_filterMap.mp inside

theorem duplicatesNodup : k.duplicateCurrentSlots.Nodup := (List.nodup_dedup _).filter _

theorem inSlotOf {key : String × String × String} (slot : f.slotKey = some key) :
    f.inSlot key.1 key.2.1 key.2.2 = true := by
  obtain ⟨-, -, -, scope, subject, predicate⟩ := slotKeySource slot
  simp [Fact.inSlot, scope, subject, predicate]

section Rows
variable (opened : Reopened k l k.duplicateCurrentSlots rows)
include opened

theorem rowOf {key : String × String × String} (duplicate : key ∈ k.duplicateCurrentSlots) :
    ∃ row ∈ rows, row.slot = key := List.mem_map.mp (opened.slots.symm ▸ duplicate)

theorem oneRow {other : Conflict} (inside : row ∈ rows) (inside' : other ∈ rows)
    (same : row.slot = other.slot) : row = other := by
  have distinct : (rows.map Conflict.slot).Nodup := opened.slots.symm ▸ duplicatesNodup
  exact List.inj_on_of_nodup_map distinct inside inside' same

end Rows

variable (legacy : k.Legacy) (opened : Reopened k l k.duplicateCurrentSlots rows)
include legacy opened

theorem listsAfter (hf : f ∈ k.facts) : l.Lists row (f.filedUnder rows) ↔
    k.Lists row f ∨ (row ∈ rows ∧ f.slotKey = some row.slot) := by
  have same : Undated f (f.filedUnder rows) := filedSame
  have id := same.factId
  constructor
  · rintro ⟨mem, unresolved, member⟩
    rw [id, opened.members] at member
    rw [opened.conflicts] at mem
    rcases List.mem_append.mp mem with old | new
    · rcases List.mem_append.mp member with old' | new'
      · exact .inl ⟨old, unresolved, old'⟩
      · obtain ⟨other, inside, pair⟩ := List.mem_flatMap.mp new'
        obtain ⟨factId, -, same⟩ := List.mem_map.mp pair
        have below := legacy.conflictBound row old
        have behind := (opened.unresolved other inside).2
        have same := congrArg Member.conflictId same
        simp only at same
        omega
    · rcases List.mem_append.mp member with old' | new'
      · have below := legacy.memberBound _ old'
        have behind := (opened.unresolved row new).2
        simp only at below
        omega
      · obtain ⟨other, inside, pair⟩ := List.mem_flatMap.mp new'
        obtain ⟨factId, listed, same⟩ := List.mem_map.mp pair
        obtain ⟨sameRow, sameFact⟩ := Member.mk.inj same
        have this : other = row := List.inj_on_of_nodup_map opened.ids inside new sameRow
        subst this
        exact .inr ⟨new, (slotIdsMem legacy.toKeyed hf).mp (sameFact ▸ listed)⟩
  · rintro (⟨mem, unresolved, member⟩ | ⟨inside, slot⟩)
    · refine ⟨?_, unresolved, ?_⟩
      · rw [opened.conflicts]
        exact List.mem_append_left _ mem
      · rw [id, opened.members]
        exact List.mem_append_left _ member
    · refine ⟨?_, (opened.unresolved row inside).1, ?_⟩
      · rw [opened.conflicts]
        exact List.mem_append_right _ inside
      · rw [id, opened.members]
        refine List.mem_append_right _ (List.mem_flatMap.mpr ⟨row, inside, ?_⟩)
        exact List.mem_map_of_mem ((slotIdsMem legacy.toKeyed hf).mpr slot)

theorem consistentAfter (consistent : k.SlotsConsistent) (free : k.DuplicatesFree) :
    l.SlotsConsistent := by
  have lists : ∀ f ∈ k.facts, ∀ row, l.Lists row (f.filedUnder rows) →
      (k.Lists row f ∧ ∀ other ∈ rows, f.slotKey ≠ some other.slot) ∨
        (row ∈ rows ∧ f.slotKey = some row.slot) := by
    intro f hf row listed
    rcases (listsAfter legacy opened hf).mp listed with old | new
    · refine .inl ⟨old, fun other inside slot => ?_⟩
      obtain ⟨state, current, -⟩ := slotKeySource slot
      have duplicate : other.slot ∈ k.duplicateCurrentSlots :=
        opened.slots ▸ List.mem_map_of_mem inside
      exact free other.slot duplicate f hf state current (inSlotOf slot) row old
    · exact .inr new
  refine ⟨fun g hg current grouped => ?_, fun row g hg state current listed => ?_,
    fun g hg h hh shares row row' left right => ?_, fun g hg h hh shares calm => ?_⟩
  · rw [opened.facts] at hg
    obtain ⟨f, hf, rfl⟩ := List.mem_map.mp hg
    by_cases hit : ∃ row ∈ rows, f.slotKey = some row.slot
    · obtain ⟨row, inside, slot⟩ := hit
      refine ⟨row, (listsAfter legacy opened hf).mpr (.inr ⟨inside, slot⟩), fun other listed => ?_⟩
      rcases lists f hf other listed with ⟨-, missed⟩ | ⟨inside', slot'⟩
      · exact absurd slot (missed row inside)
      · exact oneRow opened inside' inside (Option.some.inj (slot'.symm.trans slot))
    · have missed : ∀ row ∈ rows, f.slotKey ≠ some row.slot := fun row inside slot =>
        hit ⟨row, inside, slot⟩
      have same := filedMiss missed
      rw [same] at current grouped
      obtain ⟨row, listed, only⟩ := consistent.filed f hf current grouped
      refine ⟨row, (listsAfter legacy opened hf).mpr (.inl listed), fun other listed' => ?_⟩
      rcases lists f hf other listed' with ⟨old, -⟩ | ⟨inside, slot⟩
      · exact only other old
      · exact absurd slot (missed other inside)
  · rw [opened.facts] at hg
    obtain ⟨f, hf, rfl⟩ := List.mem_map.mp hg
    have same : Undated f (f.filedUnder rows) := filedSame
    rw [same.state] at state
    rw [same.current] at current
    have slot : f.inSlot row.scope row.subjectKey row.predicateKey = true := by
      rcases lists f hf row listed with ⟨old, -⟩ | ⟨-, slot⟩
      · exact consistent.keyed row f hf state current old
      · exact inSlotOf slot
    simpa only [Fact.inSlot, same.scope, same.subject, same.predicate] using slot
  · rw [opened.facts] at hg hh
    obtain ⟨f, hf, rfl⟩ := List.mem_map.mp hg
    obtain ⟨u, hu, rfl⟩ := List.mem_map.mp hh
    have shares := filedShares.mp shares
    rcases lists f hf row left with ⟨old, missed⟩ | ⟨inside, slot⟩
    · rcases lists u hu row' right with ⟨old', -⟩ | ⟨inside', slot'⟩
      · exact consistent.single f hf u hu shares row row' old old'
      · -- a conflict that was there before does not reach a slot the repair opened one for
        have duplicate : row'.slot ∈ k.duplicateCurrentSlots :=
          opened.slots ▸ List.mem_map_of_mem inside'
        obtain ⟨-, -, -, scope, subject, predicate⟩ := slotKeySource slot'
        have slot : f.inSlot row'.slot.1 row'.slot.2.1 row'.slot.2.2 = true := by
          simp [Fact.inSlot, shares.scope, shares.subject, shares.predicate, scope, subject, predicate]
        exact absurd old (free row'.slot duplicate f hf shares.states.1 shares.current.1 slot row)
    · have duplicate : row.slot ∈ k.duplicateCurrentSlots :=
        opened.slots ▸ List.mem_map_of_mem inside
      obtain ⟨-, -, -, scope, subject, predicate⟩ := slotKeySource slot
      have slotted : u.inSlot row.slot.1 row.slot.2.1 row.slot.2.2 = true := by
        simp [Fact.inSlot, ← shares.scope, ← shares.subject, ← shares.predicate, scope, subject,
          predicate]
      rcases lists u hu row' right with ⟨old', -⟩ | ⟨inside', slot'⟩
      · exact absurd old' (free row.slot duplicate u hu shares.states.2 shares.current.2 slotted row')
      · refine oneRow opened inside inside' ?_
        obtain ⟨-, -, -, scope', subject', predicate'⟩ := slotKeySource slot'
        have first : row.slot.1 = row'.slot.1 := by rw [← scope, ← scope', shares.scope]
        have second : row.slot.2.1 = row'.slot.2.1 :=
          Option.some.inj (by rw [← subject, ← subject', shares.subject])
        have third : row.slot.2.2 = row'.slot.2.2 :=
          Option.some.inj (by rw [← predicate, ← predicate', shares.predicate])
        exact Prod.ext first (Prod.ext second third)
  · rw [opened.facts] at hg hh
    obtain ⟨f, hf, rfl⟩ := List.mem_map.mp hg
    obtain ⟨u, hu, rfl⟩ := List.mem_map.mp hh
    have shares := filedShares.mp shares
    have missed : ∀ row ∈ rows, f.slotKey ≠ some row.slot := fun row inside slot =>
      filedHit ⟨row, inside, slot⟩ calm
    rw [filedMiss missed] at calm
    have calm' := consistent.unmixed f hf u hu shares calm
    obtain ⟨key, slot, slot'⟩ := shares.slotKeys calm calm'
    have missed' : ∀ row ∈ rows, u.slotKey ≠ some row.slot := by
      intro row inside
      rw [slot', ← slot]
      exact missed row inside
    rw [filedMiss missed']
    exact calm'

theorem consistentBefore (consistent : l.SlotsConsistent) : k.SlotsConsistent ∧ k.DuplicatesFree := by
  have filed : ∀ f ∈ k.facts, f.filedUnder rows ∈ l.facts := fun f hf => by
    rw [opened.facts]
    exact List.mem_map_of_mem hf
  have still : ∀ f ∈ k.facts, ∀ row, k.Lists row f → l.Lists row (f.filedUnder rows) :=
    fun f hf row old => (listsAfter legacy opened hf).mpr (.inl old)
  -- a disputed fact has no index key, so the repair left it alone
  have grouped : ∀ f : Fact, f.conflictGroup ≠ none → ∀ row ∈ rows, f.slotKey ≠ some row.slot :=
    fun f grouped row _ slot => grouped (slotKeySource slot).2.2.1
  refine ⟨⟨fun f hf current group => ?_, fun row f hf state current listed => ?_,
    fun f hf g hg shares row row' left right => ?_, fun f hf g hg shares calm => ?_⟩, ?_⟩
  · have missed := grouped f group
    have same := filedMiss missed
    have there := filed f hf
    rw [same] at there
    obtain ⟨row, listed, only⟩ := consistent.filed f there current group
    have old : k.Lists row f := by
      rw [← same] at listed
      rcases (listsAfter legacy opened hf).mp listed with old | ⟨inside, slot⟩
      · exact old
      · exact absurd slot (missed row inside)
    refine ⟨row, old, fun other old' => only other ?_⟩
    have listed' := still f hf other old'
    rwa [same] at listed'
  · have same : Undated f (f.filedUnder rows) := filedSame
    have slot := consistent.keyed row (f.filedUnder rows) (filed f hf) (same.state.trans state)
      (same.current.trans current) (still f hf row listed)
    simpa only [Fact.inSlot, same.scope, same.subject, same.predicate] using slot
  · exact consistent.single _ (filed f hf) _ (filed g hg) (filedShares.mpr shares) row row'
      (still f hf row left) (still g hg row' right)
  · by_contra group
    have shares' : (f.filedUnder rows).Shares (g.filedUnder rows) := filedShares.mpr shares
    by_cases hit : ∃ row ∈ rows, f.slotKey = some row.slot
    · obtain ⟨row, inside, slot⟩ := hit
      have opens : l.Lists row (f.filedUnder rows) :=
        (listsAfter legacy opened hf).mpr (.inr ⟨inside, slot⟩)
      have there := filed g hg
      have same := filedMiss (grouped g group)
      have current : (g.filedUnder rows).current = true := filedSame.current.trans shares.current.2
      obtain ⟨row', listed, -⟩ := consistent.filed _ there current (same.symm ▸ group)
      have one := consistent.single _ (filed f hf) _ there shares' row row' opens listed
      subst one
      rcases (listsAfter legacy opened hg).mp listed with old | ⟨-, slot'⟩
      · have below := legacy.conflictBound row old.mem
        have behind := (opened.unresolved row inside).2
        omega
      · exact group (slotKeySource slot').2.2.1
    · have missed : ∀ row ∈ rows, f.slotKey ≠ some row.slot := fun row inside slot =>
        hit ⟨row, inside, slot⟩
      have calm' := consistent.unmixed _ (filed f hf) _ (filed g hg) shares'
        (by rw [filedMiss missed]; exact calm)
      rw [filedMiss (grouped g group)] at calm'
      exact group calm'
  · intro key duplicate g hg state current slot row old
    obtain ⟨f, hf, indexed⟩ := duplicateSource duplicate
    obtain ⟨row', inside, same⟩ := rowOf opened duplicate
    obtain ⟨state', current', -, scope, subject, predicate⟩ := slotKeySource indexed
    simp only [Fact.inSlot, Bool.and_eq_true, decide_eq_true_eq] at slot
    have shares : f.Shares g := ⟨⟨⟨state', state⟩, ⟨current', current⟩, scope.trans slot.1.1.symm,
      subject.trans slot.1.2.symm, predicate.trans slot.2.symm⟩, ⟨_, _, subject, predicate⟩⟩
    have opens : l.Lists row' (f.filedUnder rows) :=
      (listsAfter legacy opened hf).mpr (.inr ⟨inside, same.symm ▸ indexed⟩)
    have one := consistent.single _ (filed f hf) _ (filed g hg) (filedShares.mpr shares) row' row opens
      (still g hg row old)
    have below := legacy.conflictBound row old.mem
    have behind := (opened.unresolved row' inside).2
    rw [one] at behind
    omega

end Opened

/-! ## The repaired store -/

-- a fact with other slot keys or another conflict group, and nothing else changed
def Fact.Rekeyed (f g : Fact) : Prop :=
  g = { f with
    subjectKey := g.subjectKey, predicateKey := g.predicateKey, conflictGroup := g.conflictGroup }

/-- What the repair owes: every fact kept in its row, what was current still current, current facts and
open conflicts in agreement, and nothing left to repair. -/
structure Ledger.Repaired (rt : Runtime) (columns : List String) (before after : Ledger) : Prop where
  kept : List.Forall₂ Fact.Rekeyed before.facts after.facts
  stillCurrent : ∀ f ∈ before.facts, f.current = true →
    ∃ g ∈ after.facts, g.factId = f.factId ∧ g.current = true
  consistent : after.SlotsConsistent
  stable : ∀ now, ensureStateSlotSchema rt columns now after = .ok (after, true)

/-- With every key canonical, the conflicts that are open already are consistent, and reach no slot that
the repair has to open one for. -/
def Ledger.Repairable (l : Ledger) : Prop :=
  ∃ k, canonicalizeExistingStateSlots l = .ok k ∧ k.SlotsConsistent ∧ k.DuplicatesFree

theorem canonicalIds {facts settled : List Fact} (h : List.Forall₂ Canonical facts settled) :
    settled.map Fact.factId = facts.map Fact.factId := by
  induction h with
  | nil => rfl
  | cons canonical _ ih =>
    rw [List.map_cons, List.map_cons, ih, canonical.shape]

theorem canonicalSettled {facts settled : List Fact} (h : List.Forall₂ Canonical facts settled) :
    ∀ g ∈ settled, g.KeysSettled := by
  induction h with
  | nil => exact fun g hg => absurd hg List.not_mem_nil
  | cons canonical _ ih => exact List.forall_mem_cons.mpr ⟨canonical.settled, ih⟩

theorem canonicalLegacy {settled : List Fact} (legacy : l.Legacy)
    (h : List.Forall₂ Canonical l.facts settled) : ({ l with facts := settled } : Ledger).Legacy where
  factIds := by
    have unique : (l.facts.map Fact.factId).Nodup := legacy.factIds
    show (settled.map Fact.factId).Nodup
    rwa [canonicalIds h]
  factBound g hg := by
    have inside : g.factId ∈ l.facts.map Fact.factId := canonicalIds h ▸ List.mem_map_of_mem hg
    obtain ⟨f, hf, id⟩ := List.mem_map.mp inside
    rw [← id]
    exact legacy.factBound f hf
  conflictIds := legacy.conflictIds
  conflictBound := legacy.conflictBound
  memberBound := legacy.memberBound

theorem rekeyedAll {facts settled : List Fact} {rows : List Conflict}
    (h : List.Forall₂ Canonical facts settled) :
    List.Forall₂ Fact.Rekeyed facts (settled.map (Fact.filedUnder rows)) := by
  induction h with
  | nil => exact .nil
  | @cons f g _ _ canonical _ ih =>
    refine .cons ?_ ih
    unfold Fact.filedUnder
    split
    · rw [Fact.Rekeyed, canonical.shape]
      rfl
    · rw [Fact.Rekeyed, canonical.shape]

theorem rekeyedCurrent {facts settled : List Fact} (h : List.Forall₂ Fact.Rekeyed facts settled) :
    ∀ f ∈ facts, f.current = true → ∃ g ∈ settled, g.factId = f.factId ∧ g.current = true := by
  induction h with
  | nil => exact fun f hf => absurd hf List.not_mem_nil
  | @cons f g rest tail rekeyed _ ih =>
    intro u hu current
    rcases List.mem_cons.mp hu with rfl | hu
    · refine ⟨g, List.mem_cons_self, ?_, ?_⟩
      · rw [rekeyed]
      · rw [rekeyed]
        exact current
    · obtain ⟨v, hv, same⟩ := ih u hu current
      exact ⟨v, List.mem_cons_of_mem _ hv, same⟩

theorem ensureNothing {columns : List String} {now : Nat → String}
    (temporal : ["invalid_at", "superseded_by"].all columns.contains = true)
    (settled : ∀ f ∈ l.facts, f.KeysSettled) (free : (l.facts.filterMap Fact.slotKey).Nodup) :
    ensureStateSlotSchema rt columns now l = .ok (l, true) := by
  have calm : l.duplicateCurrentSlots = [] := by
    refine List.filter_eq_nil_iff.mpr fun key _ => ?_
    have once := List.nodup_iff_count_le_one.mp free key
    simpa using once
  have index : l.admitted l.facts = .ok l := by
    simp only [Ledger.admitted, decide_eq_true free, ensure, if_true, okBind]
  simp only [ensureStateSlotSchema, temporal, if_true, canonicalizeExistingStateSlots,
    canonicalizeNothing settled, okBind, openConflictsForDuplicateCurrentSlots, calm, openConflicts,
    index]

/-- The repair leaves a consistent store exactly when the open conflicts it found fit the canonical
keys, and none of them reaches a slot it had to open a conflict for. -/
theorem schemaRepairs {columns : List String} {now : Nat → String} {l l' : Ledger}
    (legacy : l.Legacy) (h : ensureStateSlotSchema rt columns now l = .ok (l', true)) :
    l.Repaired rt columns l' ↔ l.Repairable := by
  unfold ensureStateSlotSchema at h
  split at h
  · rename_i temporal
    simp only [bindOk] at h
    obtain ⟨k, canonical, opened, filed, indexed, admitted, last⟩ := h
    cases last
    obtain ⟨same, free⟩ := admittedSource admitted
    subst same
    have source := canonical
    simp only [canonicalizeExistingStateSlots, bindOk] at source
    obtain ⟨facts, settled, last⟩ := source
    cases last
    have all := canonicalizeAll settled
    have legacy' := canonicalLegacy legacy all
    obtain ⟨rows, reopened⟩ := openConflictsSource legacy'.toKeyed duplicatesNodup filed
    have kept : List.Forall₂ Fact.Rekeyed l.facts opened.facts := by
      rw [reopened.facts]
      exact rekeyedAll all
    have stays : ∀ f ∈ opened.facts, f.KeysSettled := by
      intro g hg
      rw [reopened.facts] at hg
      obtain ⟨f, hf, rfl⟩ := List.mem_map.mp hg
      intro subject predicate named valued
      rw [filedSame.subject] at named
      rw [filedSame.predicate] at valued
      exact canonicalSettled all f hf subject predicate named valued
    constructor
    · intro repaired
      exact ⟨_, canonical, consistentBefore legacy' reopened repaired.consistent⟩
    · rintro ⟨k, found, consistent, duplicates⟩
      cases canonical.symm.trans found
      exact ⟨kept, rekeyedCurrent kept, consistentAfter legacy' reopened consistent duplicates,
        fun now => ensureNothing temporal stays free⟩
  · cases h

namespace Example

def slotFact (factId : Nat) (content subject predicate : String) (group : Option Nat) : Fact :=
  { (WriteRequest.plain "k" content "user").row factId "2026-01-01" with
    memoryKind := some .state
    subjectKey := some subject
    predicateKey := some predicate
    conflictGroup := group }

def collided : Ledger :=
  { Store.empty.toLedger with
    facts := [slotFact 1 "Avery is east" "Person:Avery" "home-zone" none,
      slotFact 2 "Avery was west" "person:avery" "home_zone" none]
    nextFactId := 3 }

def misfiled : Ledger :=
  { Store.empty.toLedger with
    facts := [slotFact 1 "Avery is east" "Person:Avery" "home-zone" (some 1),
      slotFact 2 "Avery was west" "Person:Avery" "home-zone" (some 1)]
    conflicts := [.detected 1 "private" "Person:Avery" "home-zone" "2026-01-01" []]
    members := [⟨1, 1⟩, ⟨1, 2⟩]
    nextFactId := 3
    nextConflictId := 2 }

theorem misfiledLegacy : misfiled.Legacy where
  factIds := show (misfiled.facts.map Fact.factId).Nodup by decide
  factBound := by decide +kernel
  conflictIds := show (misfiled.conflicts.map Conflict.conflictId).Nodup by decide
  conflictBound := by decide +kernel
  memberBound := by decide +kernel

theorem collidedLegacy : collided.Legacy where
  factIds := show (collided.facts.map Fact.factId).Nodup by decide
  factBound := by decide +kernel
  conflictIds := show (collided.conflicts.map Conflict.conflictId).Nodup by decide
  conflictBound := by decide +kernel
  memberBound := by decide +kernel

def collidedCanonical : Ledger :=
  { collided with
    facts := [slotFact 1 "Avery is east" "person:avery" "home_zone" none,
      slotFact 2 "Avery was west" "person:avery" "home_zone" none] }

theorem collidedRepairable : collided.Repairable := by
  have unlisted : ∀ row f, ¬ collidedCanonical.Lists row f := fun row f listed =>
    absurd listed.mem List.not_mem_nil
  have calm : ∀ f ∈ collidedCanonical.facts, f.conflictGroup = none := by decide +kernel
  refine ⟨collidedCanonical, okOfOption (by decide +kernel), ⟨fun f hf _ group => ?_,
    fun row f _ _ _ listed => ?_, fun f _ g _ _ row row' listed => ?_, fun _ _ g hg _ _ => calm g hg⟩,
    fun _ _ f _ _ _ _ row => unlisted row f⟩
  · exact absurd (calm f hf) group
  · exact absurd listed (unlisted row f)
  · exact absurd listed (unlisted row f)

theorem schemaRepairsHere : ∃ l', ensureStateSlotSchema .plain ["invalid_at", "superseded_by"]
    (fun _ => "2026-01-02") collided = .ok (l', true) ∧
    collided.Repaired .plain ["invalid_at", "superseded_by"] l' := by
  have done : (ensureStateSlotSchema .plain ["invalid_at", "superseded_by"] (fun _ => "2026-01-02")
      collided).toOption.map Prod.snd = some true := by
    decide +kernel
  obtain ⟨⟨l', installed⟩, found, yes⟩ := Option.map_eq_some_iff.mp done
  cases yes
  exact ⟨l', okOfOption found, (schemaRepairs collidedLegacy (okOfOption found)).mpr
    collidedRepairable⟩

/-- The facts of the dispute get canonical keys, its conflict row keeps the old ones. -/
theorem conflictKeysStale : misfiled.Legacy ∧
    ∃ l', ensureStateSlotSchema .plain ["invalid_at", "superseded_by"] (fun _ => "2026-01-02")
        misfiled = .ok (l', true) ∧
      ∃ row f, f ∈ l'.facts ∧ f.isState = true ∧ f.current = true ∧ l'.Lists row f ∧
        f.inSlot row.scope row.subjectKey row.predicateKey = false := by
  refine ⟨misfiledLegacy, { misfiled with
    facts := [slotFact 1 "Avery is east" "person:avery" "home_zone" (some 1),
      slotFact 2 "Avery was west" "person:avery" "home_zone" (some 1)] },
    okOfOption (by decide +kernel),
    .detected 1 "private" "Person:Avery" "home-zone" "2026-01-01" [],
    slotFact 1 "Avery is east" "person:avery" "home_zone" (some 1), ?_, rfl, rfl, ⟨?_, rfl, ?_⟩, ?_⟩
  · exact List.mem_cons_self
  · exact List.mem_cons_self
  · exact List.mem_cons_self
  · decide +kernel

end Example
end Enfold
