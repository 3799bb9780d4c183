import Enfold.EmbeddingCoverage
import Enfold.JsonText
import Enfold.VectorErasure

/-! What an erasure leaves to the other facts. Their evidence is split off first, so that only rows of
the erased fact alone are redacted; but every logged detail that quotes its text goes, whose ever it is. -/
namespace Enfold

open Fallible

variable {rt : Runtime} {s t : Store} {factId : Nat} {copy : Nat → Nat}

/-- The keys of the schema that the evidence of a fact rests on. -/
structure Store.Declared (s : Store) : Prop where
  factIds : Table.Unique Fact.factId s.facts
  observationIds : Table.Unique Observation.observationId s.observations
  referenced : ∀ p ∈ s.provenance, ∃ o ∈ s.observations, o.observationId = p.observationId

/-- The same observation under another row id and digest. -/
def Observation.Copies (o o' : Observation) : Prop :=
  o' = { o with observationId := o'.observationId, contentSha256 := o'.contentSha256 }

def Provenance.onto (copy : Nat → Nat) (p : Provenance) : Provenance :=
  { p with observationId := copy p.observationId }

def WriteLogRow.onto (copy : Nat → Nat) (row : WriteLogRow) : WriteLogRow :=
  { row with observationId := row.observationId.map copy }

/-- Every fact but one refers to copies of its observations. -/
structure Separated (factId : Nat) (copy : Nat → Nat) (s t : Store) : Prop where
  provenance : t.provenance = s.provenance.map fun p => if p.factId = factId then p else p.onto copy
  writeLog : t.writeLog = s.writeLog.map fun row =>
    if row.factId = some factId then row else row.onto copy
  kept : ∀ o ∈ s.observations, o ∈ t.observations
  distinct : Table.Unique Observation.observationId t.observations
  copied : ∀ o ∈ s.observations, ∃ o' ∈ t.observations,
    o'.observationId = copy o.observationId ∧ o.Copies o'
  fresh : ∀ x, copy x = x ∨ ∀ o ∈ s.observations, o.observationId < copy x

def Store.Shared (s : Store) (factId observationId : Nat) : Prop :=
  ∃ p ∈ s.provenance, p.factId ≠ factId ∧ p.observationId = observationId

theorem Separated.start (factId : Nat) (declared : s.Declared) : Separated factId id s s where
  provenance := by
    refine (List.map_id'' (fun p => ?_) _).symm
    split <;> rfl
  writeLog := by
    refine (List.map_id'' (fun row => ?_) _).symm
    split
    · rfl
    · simp [WriteLogRow.onto]
  kept := fun _ there => there
  distinct := declared.observationIds
  copied := fun o there => ⟨o, there, rfl, rfl⟩
  fresh := fun _ => .inl rfl

theorem Separated.hits (separated : Separated factId copy s t) {o : Observation} (there : o ∈ s.observations)
    (alone : copy o.observationId = o.observationId) {x : Nat} : copy x = o.observationId ↔ x = o.observationId := by
  constructor
  · intro same
    rcases separated.fresh x with kept | beyond
    · exact kept.symm.trans same
    · exact absurd (beyond o there) (by omega)
  · rintro rfl
    exact alone

theorem Separated.shared (separated : Separated factId copy s t) {o : Observation} (there : o ∈ s.observations)
    (alone : copy o.observationId = o.observationId) :
    t.Shared factId o.observationId ↔ s.Shared factId o.observationId := by
  unfold Store.Shared
  rw [separated.provenance]
  constructor
  · rintro ⟨p', inside, other, same⟩
    obtain ⟨p, there', rfl⟩ := List.mem_map.mp inside
    by_cases own : p.factId = factId
    · rw [if_pos own] at other
      exact absurd own other
    · rw [if_neg own] at same
      exact ⟨p, there', own, (separated.hits there alone).mp same⟩
  · rintro ⟨p, inside, other, same⟩
    refine ⟨p.onto copy, List.mem_map.mpr ⟨p, inside, if_neg other⟩, other, ?_⟩
    rw [Provenance.onto, same]
    exact alone

theorem Separated.clone (erasureId : Nat) (separated : Separated factId copy s t) {o : Observation} (there : o ∈ s.observations)
    (alone : copy o.observationId = o.observationId) : ∃ copyId,
      Separated factId (Function.update copy o.observationId copyId) s
        (cloneSharedObservation t o.observationId factId erasureId) ∧
      (s.Shared factId o.observationId → copyId ≠ o.observationId) := by
  unfold cloneSharedObservation
  split
  · rename_i single
    refine ⟨o.observationId, ?_, fun shared => ?_⟩
    · have same : Function.update copy o.observationId o.observationId = copy := by
        nth_rewrite 2 [← alone]
        exact Function.update_eq_self _ _
      rwa [same]
    · obtain ⟨p, inside, other, same⟩ := (separated.shared there alone).mpr shared
      have apart := List.all_eq_true.mp single p inside
      simp [other, same] at apart
  · have here := separated.kept o there
    have found : t.observations.find? (·.observationId = o.observationId) = some o :=
      Table.findOfMem separated.distinct here
    rw [found]
    have beyond : ∀ old ∈ t.observations,
        old.observationId < nextRowid (t.observations.map Observation.observationId) :=
      fun old inside => nextRowidFresh (List.mem_map_of_mem inside)
    generalize nextRowid (t.observations.map Observation.observationId) = copyId at beyond
    refine ⟨copyId, ?_, fun _ => Nat.ne_of_gt (beyond o here)⟩
    exact
      { provenance := by
          show Table.amend _ _ t.provenance = _
          rw [separated.provenance, Table.amend, List.map_map]
          refine List.map_congr_left fun p _ => ?_
          by_cases own : p.factId = factId
          · simp [own]
          · have hit := separated.hits there alone (x := p.observationId)
            by_cases same : p.observationId = o.observationId
            · simp [own, Provenance.onto, same, alone]
            · simp [own, Provenance.onto, hit, same]
        writeLog := by
          show Table.amend _ _ t.writeLog = _
          rw [separated.writeLog, Table.amend, List.map_map]
          refine List.map_congr_left fun row _ => ?_
          by_cases own : row.factId = some factId
          · simp [own]
          · cases named : row.observationId with
            | none => simp [own, WriteLogRow.onto, named]
            | some x =>
              have hit := separated.hits there alone (x := x)
              by_cases same : x = o.observationId
              · simp [own, WriteLogRow.onto, named, same, alone]
              · simp [own, WriteLogRow.onto, named, hit, same]
        kept := fun old inside => List.mem_append_left _ (separated.kept old inside)
        distinct := Table.uniqueAppend separated.distinct fun old inside => Nat.ne_of_lt (beyond old inside)
        copied := by
          intro old inside
          by_cases same : old.observationId = o.observationId
          · have equal : old = o :=
              Table.uniqueEq separated.distinct (separated.kept old inside) here same
            subst equal
            refine ⟨_, List.mem_append_right _ List.mem_cons_self, ?_, rfl⟩
            simp
          · obtain ⟨old', inside', id, copies⟩ := separated.copied old inside
            refine ⟨old', List.mem_append_left _ inside', ?_, copies⟩
            rw [id, Function.update_of_ne same]
        fresh := by
          intro x
          by_cases same : x = o.observationId
          · subst same
            rw [Function.update_self]
            exact .inr fun old inside => beyond old (separated.kept old inside)
          · rw [Function.update_of_ne same]
            exact separated.fresh x }

theorem Separated.all {observationIds : List Nat} (erasureId : Nat) (separated : Separated factId copy s t)
    (nodup : observationIds.Nodup)
    (known : ∀ x ∈ observationIds, ∃ o ∈ s.observations, o.observationId = x)
    (alone : ∀ x ∈ observationIds, copy x = x) : ∃ copy',
      Separated factId copy' s (observationIds.foldl (fun s observationId =>
        cloneSharedObservation s observationId factId erasureId) t) ∧
      (∀ x ∈ observationIds, s.Shared factId x → copy' x ≠ x) ∧
      ∀ x ∉ observationIds, copy' x = copy x := by
  induction observationIds generalizing t copy with
  | nil => exact ⟨copy, separated, nofun, fun _ _ => rfl⟩
  | cons x rest ih =>
    obtain ⟨o, there, rfl⟩ := known x List.mem_cons_self
    obtain ⟨first, nodup⟩ := List.nodup_cons.mp nodup
    obtain ⟨copyId, once, moved⟩ := separated.clone erasureId there (alone _ List.mem_cons_self)
    have unmoved : ∀ y ∈ rest, Function.update copy o.observationId copyId y = y := by
      intro y inside
      have other : y ≠ o.observationId := by
        rintro rfl
        exact first inside
      rw [Function.update_of_ne other]
      exact alone y (List.mem_cons_of_mem _ inside)
    obtain ⟨copy', last, apart, outside⟩ :=
      ih once nodup (fun y inside => known y (List.mem_cons_of_mem _ inside)) unmoved
    refine ⟨copy', last, fun y inside shared => ?_, fun y out => ?_⟩
    · rcases List.mem_cons.mp inside with rfl | inside
      · rw [outside _ first, Function.update_self]
        exact moved shared
      · exact apart y inside shared
    · obtain ⟨other, out⟩ := not_or.mp (List.mem_cons.not.mp out)
      rw [outside y out, Function.update_of_ne other]

/-! ## What is left to the others -/

def Store.evidenceOf (s : Store) (factId : Nat) : List Nat :=
  ((s.provenance.filter (·.factId = factId)).map Provenance.observationId).dedup

def WriteLogRow.Names (s : Store) (factId : Nat) (row : WriteLogRow) : Prop :=
  row.factId = some factId ∨
    ∃ p ∈ s.provenance, p.factId = factId ∧ row.observationId = some p.observationId

instance (row : WriteLogRow) : Decidable (row.Names s factId) :=
  inferInstanceAs (Decidable (row.factId = some factId ∨
    ∃ p ∈ s.provenance, p.factId = factId ∧ row.observationId = some p.observationId))

def WriteLogRow.Quotes (rt : Runtime) (f : Fact) (row : WriteLogRow) : Prop :=
  f.content ≠ "" ∧ occursIn f.content (rt.dumps (.obj row.detail)) = true

/-- What becomes of another fact: an active insight that cites the erased one is invalidated. -/
def Fact.bereaved (rt : Runtime) (factId : Nat) (erasedAt : String) (f : Fact) : Fact :=
  if accepts (Fact.cites rt factId) f then { f with invalidAt := some erasedAt } else f

theorem citingOthers {facts : List Fact} (erasedAt : String) (p : Fact → Bool)
    (unique : Table.Unique Fact.factId facts) {f : Fact} (inside : f ∈ facts) (other : f.factId ≠ factId) :
    f.factId ∈ ((Table.amend (·.factId = factId) (Fact.scrub erasedAt) facts).filter p).map Fact.factId ↔
      p f = true := by
  have kept : f ∈ Table.amend (·.factId = factId) (Fact.scrub erasedAt) facts :=
    Table.memAmend.mpr ⟨f, inside, by simp [other]⟩
  have unique' : Table.Unique Fact.factId (Table.amend (·.factId = factId) (Fact.scrub erasedAt) facts) :=
    Table.amendUnique (fun _ => rfl) unique
  constructor
  · intro named
    obtain ⟨g, hg, same⟩ := List.mem_map.mp named
    obtain ⟨hg, wanted⟩ := List.mem_filter.mp hg
    rwa [Table.uniqueEq unique' hg kept same] at wanted
  · intro wanted
    exact List.mem_map_of_mem (List.mem_filter.mpr ⟨kept, wanted⟩)

theorem erasedId {f : Fact} {erasedAt : String} {insights : List Nat} :
    (f.erased factId erasedAt insights).factId = f.factId := by
  unfold Fact.erased
  split <;> split <;> rfl

theorem eraseLedgerOthers {l l' : Ledger} {insights conflicts : Nat} {requestedBy erasedAt : String}
    (unique : Table.Unique Fact.factId l.facts)
    (h : eraseLedger rt l factId requestedBy erasedAt = .ok (l', insights, conflicts)) :
    l'.facts.filter (·.factId ≠ factId) =
      (l.facts.filter (·.factId ≠ factId)).map (Fact.bereaved rt factId erasedAt) := by
  simp only [eraseLedger, invalidateInsights, bindOk, Prod.exists] at h
  obtain ⟨l₁, count, ⟨citing, kept, done⟩, last⟩ := h
  obtain ⟨rfl, -⟩ := keepSource kept
  cases done
  cases last
  generalize ids : ((Table.amend (·.factId = factId) (Fact.scrub erasedAt) l.facts).filter
    (accepts (Fact.cites rt factId))).map Fact.factId = cited
  have erased : Table.amend (fun f => cited.contains f.factId) (fun f => { f with invalidAt := some erasedAt })
      (Table.amend (·.factId = factId) (Fact.scrub erasedAt) l.facts) =
        l.facts.map (Fact.erased factId erasedAt cited) := by
    rw [Table.amendAmend]
    refine List.map_congr_left fun f _ => ?_
    by_cases own : f.factId = factId
    · simp [Fact.erased, Fact.scrub, own]
    · simp [Fact.erased, own]
  simp only [leaveConflicts]
  rw [erased, List.filter_map]
  have same : (fun f : Fact => decide (f.factId ≠ factId)) ∘ Fact.erased factId erasedAt cited =
      fun f => decide (f.factId ≠ factId) := by
    funext f
    rw [Function.comp_apply, erasedId]
  rw [same]
  refine List.map_congr_left fun f inside => ?_
  obtain ⟨inside, other⟩ := List.mem_filter.mp inside
  have apart : f.factId ≠ factId := of_decide_eq_true other
  have found := citingOthers erasedAt (accepts (Fact.cites rt factId)) unique inside apart
  rw [ids] at found
  by_cases cites : accepts (Fact.cites rt factId) f
  · simp [Fact.erased, Fact.bereaved, apart, found, cites]
  · simp [Fact.erased, Fact.bereaved, apart, found, cites]

def WriteLogRow.forget (row : WriteLogRow) : WriteLogRow := { row with detail := erasedDetail }

theorem eraseFactTables {requestedBy reason erasedAt : String} {report : ErasureReport}
    (h : eraseFact rt s factId requestedBy reason erasedAt = .ok (t, report)) :
    ∃ f cloned, s.fact factId = some f ∧
      cloned = (s.evidenceOf factId).foldl (fun u observationId =>
        cloneSharedObservation u observationId factId s.nextErasureId) s ∧
      t.observations = Table.amend (fun o => (s.evidenceOf factId).contains o.observationId)
        (Observation.redact s.nextErasureId erasedAt) cloned.observations ∧
      t.provenance = Table.amend (·.factId = factId) (fun p => { p with evidenceExcerpt := none })
        cloned.provenance ∧
      t.writeLog = Table.amend
        (fun row => f.content ≠ "" && occursIn f.content (rt.dumps (.obj row.detail))) WriteLogRow.forget
        (Table.amend (fun row => row.factId = some factId || row.observationId.any (s.evidenceOf factId).contains)
          WriteLogRow.forget cloned.writeLog) := by
  simp only [eraseFact, bindOk, ensureOk] at h
  obtain ⟨-, -, -, -, h⟩ := h
  split at h
  · cases h
  · rename_i f found
    simp only [bindOk, Prod.exists] at h
    obtain ⟨l, insights, conflicts, erased, last⟩ := h
    cases last
    exact ⟨f, _, found, rfl, rfl, rfl, rfl⟩

/-- Everything another fact has is what it was: its row, unless it is an active insight that cites the
erased fact; its evidence, through copies; its vectors; and what a replay of its write answers, unless the
detail of that answer quotes the erased fact. -/
structure VectorStore.ConfinedTo (rt : Runtime) (factId : Nat) (erasedAt : String) (s t : VectorStore) :
    Prop where
  facts : t.facts.filter (·.factId ≠ factId) =
    (s.facts.filter (·.factId ≠ factId)).map (Fact.bereaved rt factId erasedAt)
  evidence : ∃ copy : Nat → Nat,
    t.provenance.filter (·.factId ≠ factId) =
      (s.provenance.filter (·.factId ≠ factId)).map (Provenance.onto copy) ∧
    ∀ p ∈ s.provenance, p.factId ≠ factId → ∀ o ∈ s.observations, o.observationId = p.observationId →
      ∃ o' ∈ t.observations.find? (·.observationId = copy p.observationId), o.Copies o'
  embeddings : t.embeddings.filter (·.factId ≠ factId) = s.embeddings.filter (·.factId ≠ factId)
  vectors : ∀ name row, row.rowid ≠ factId →
    ((∃ table ∈ t.table name, row ∈ table.rows) ↔ ∃ table ∈ s.table name, row ∈ table.rows)
  replay : ∀ f ∈ s.facts, f.factId = factId → ∀ clientId idempotencyKey row,
    loadPrior s.toStore clientId idempotencyKey = some row → ¬ row.Names s.toStore factId →
    ¬ row.Quotes rt f → loadPrior t.toStore clientId idempotencyKey = some row

theorem inEvidence {x : Nat} : x ∈ s.evidenceOf factId ↔ ∃ p ∈ s.provenance, p.factId = factId ∧ p.observationId = x := by
  simp [Store.evidenceOf, and_assoc]

theorem evidenceSeparated (erasureId : Nat) (declared : s.Declared) : ∃ copy,
    Separated factId copy s ((s.evidenceOf factId).foldl (fun s observationId =>
      cloneSharedObservation s observationId factId erasureId) s) ∧
    (∀ x, s.Shared factId x → copy x ∉ s.evidenceOf factId) ∧ ∀ x ∉ s.evidenceOf factId, copy x = x := by
  have known : ∀ x ∈ s.evidenceOf factId, ∃ o ∈ s.observations, o.observationId = x := by
    intro x inside
    obtain ⟨p, there, -, rfl⟩ := inEvidence.mp inside
    exact declared.referenced p there
  obtain ⟨copy, separated, moved, outside⟩ := (Separated.start factId declared).all erasureId
    (List.nodup_dedup _) known fun _ _ => rfl
  refine ⟨copy, separated, fun x shared inside => ?_, outside⟩
  by_cases own : x ∈ s.evidenceOf factId
  · rcases separated.fresh x with same | beyond
    · exact moved x own shared same
    · obtain ⟨o, there, id⟩ := known _ inside
      exact absurd (beyond o there) (by omega)
  · rw [outside x own] at inside
    exact own inside

theorem evidenceKept {requestedBy reason erasedAt : String} {report : ErasureReport} (declared : s.Declared)
    (h : eraseFact rt s factId requestedBy reason erasedAt = .ok (t, report)) : ∃ copy : Nat → Nat,
    t.provenance.filter (·.factId ≠ factId) =
      (s.provenance.filter (·.factId ≠ factId)).map (Provenance.onto copy) ∧
    ∀ p ∈ s.provenance, p.factId ≠ factId → ∀ o ∈ s.observations, o.observationId = p.observationId →
      ∃ o' ∈ t.observations.find? (·.observationId = copy p.observationId), o.Copies o' := by
  obtain ⟨f, cloned, -, rfl, observations, provenance, -⟩ := eraseFactTables h
  obtain ⟨copy, separated, apart, -⟩ := evidenceSeparated s.nextErasureId declared
  refine ⟨copy, ?_, fun p inside other o there same => ?_⟩
  · rw [provenance, separated.provenance, Table.amend, List.map_map, List.filter_map]
    have still : (fun p : Provenance => decide (p.factId ≠ factId)) ∘ ((fun p : Provenance =>
        if decide (p.factId = factId) = true then { p with evidenceExcerpt := none } else p) ∘
          fun p => if p.factId = factId then p else p.onto copy) = fun p => decide (p.factId ≠ factId) := by
      funext p
      by_cases own : p.factId = factId
      · simp [own]
      · simp [own, Provenance.onto]
    rw [still]
    refine List.map_congr_left fun p inside => ?_
    have other := of_decide_eq_true (List.mem_filter.mp inside).2
    simp [other, Provenance.onto]
  · obtain ⟨o', there', id, copies⟩ := separated.copied o there
    have spared : o'.observationId ∉ s.evidenceOf factId := by
      rw [id]
      exact apart _ ⟨p, inside, other, same.symm⟩
    have kept : o' ∈ t.observations := by
      rw [observations]
      exact Table.memAmend.mpr ⟨o', there', by simp [spared]⟩
    have distinct : Table.Unique Observation.observationId t.observations := by
      rw [observations]
      exact Table.amendUnique (fun _ => rfl) separated.distinct
    refine ⟨o', ?_, copies⟩
    have found := Table.findOfMem distinct kept
    rw [id, same] at found
    exact found

theorem replayKept {requestedBy reason erasedAt : String} {report : ErasureReport} (declared : s.Declared)
    (h : eraseFact rt s factId requestedBy reason erasedAt = .ok (t, report)) {f : Fact} (there : f ∈ s.facts)
    (own : f.factId = factId) {clientId idempotencyKey : String} {row : WriteLogRow}
    (prior : loadPrior s clientId idempotencyKey = some row) (unnamed : ¬ row.Names s factId)
    (unquoted : ¬ row.Quotes rt f) : loadPrior t clientId idempotencyKey = some row := by
  obtain ⟨f', cloned, found, rfl, -, -, writeLog⟩ := eraseFactTables h
  obtain ⟨copy, separated, -, outside⟩ := evidenceSeparated s.nextErasureId declared
  have same : f' = f :=
    Table.uniqueEq declared.factIds (Table.findMem found).1 there ((Table.findMem found).2.trans own.symm)
  subst same
  have unheard : ∀ x, row.observationId = some x → x ∉ s.evidenceOf factId := by
    intro x named inside
    obtain ⟨p, hp, same, rfl⟩ := inEvidence.mp inside
    exact unnamed (.inr ⟨p, hp, same, named⟩)
  have onto : row.onto copy = row := by
    have same : row.observationId.map copy = row.observationId := by
      cases named : row.observationId with
      | none => rfl
      | some x => exact congrArg some (outside x (unheard x named))
    rw [WriteLogRow.onto, same]
  have untouched : (decide (row.factId = some factId) ||
      row.observationId.any (s.evidenceOf factId).contains) = false := by
    rw [Bool.or_eq_false_iff]
    refine ⟨decide_eq_false fun own => unnamed (.inl own), ?_⟩
    cases named : row.observationId with
    | none => rfl
    | some x => simpa using unheard x named
  have silent : (decide (f'.content ≠ "") && occursIn f'.content (rt.dumps (.obj row.detail))) = false := by
    refine Bool.eq_false_iff.mpr fun quoted => unquoted ?_
    simpa [WriteLogRow.Quotes] using quoted
  rw [separated.writeLog, Table.amendAmend, List.map_map] at writeLog
  rw [loadPrior, writeLog, List.find?_map]
  -- no row changes the key it is replayed by
  have keyed (rewritten : WriteLogRow → WriteLogRow)
      (kept : ∀ row, (rewritten row).clientId = row.clientId ∧
        (rewritten row).idempotencyKey = row.idempotencyKey) :
      (fun row : WriteLogRow => decide (row.clientId = clientId) &&
        decide (row.idempotencyKey = idempotencyKey)) ∘ rewritten =
      fun row => decide (row.clientId = clientId) && decide (row.idempotencyKey = idempotencyKey) := by
    funext row
    simp only [Function.comp_apply, (kept row).1, (kept row).2]
  rw [keyed _ fun row => ?_, ← loadPrior.eq_def, prior, Option.map_some]
  · have named : row.factId ≠ some factId := fun own => unnamed (.inl own)
    simp only [Function.comp_apply, if_neg named, onto, untouched, Bool.false_eq_true, if_false, silent]
  · simp only [Function.comp_apply]
    split <;> split <;> split <;> exact ⟨rfl, rfl⟩

theorem erasureConfined {s t : VectorStore} {index : Option SQLiteVecIndex} {requestedBy reason erasedAt : String}
    (declared : s.Declared) (done : eraseWithVectors rt index s factId requestedBy reason erasedAt = .ok t) :
    s.ConfinedTo rt factId erasedAt t := by
  have vectors := erasedTables done
  simp only [eraseWithVectors, bindOk, Prod.exists] at done
  obtain ⟨store, report, erased, done⟩ := done
  have same : t.toStore = store := (throughFacts (fun _ => deleteFacts) done).trans changedFrame.1
  subst same
  obtain ⟨insights, conflicts, linked, ledger, -⟩ := eraseFactSource erased
  exact
    { facts := eraseLedgerOthers declared.factIds ledger
      evidence := evidenceKept declared erased
      embeddings := by
        rw [eraseFactEmbeddings erased, Table.remove, List.filter_filter]
        refine List.filter_congr fun e _ => ?_
        simp
      vectors := by
        intro name row other
        rw [vectors name row]
        exact and_iff_left fun _ => other
      replay := fun f there own _ _ _ prior unnamed unquoted =>
        replayKept declared erased there own prior unnamed unquoted }

namespace Example

-- no text of these runs holds a float
def floatless : FloatText where
  isDouble := fun _ => false
  repr := fun _ => []
  read := fun _ => none
  shape := undoubledShape
  exact := undoubledExact

def spelled : Runtime := { Runtime.plain with dumps := fun v => String.ofList (print floatless v.sorted) }

def oneWord : TimedWrite spelled where
  clock := .at "2026-01-03"
  item := {
    request := WriteRequest.plain "k0" "timezone" "user"
    candidate := none
    requestBuilt := by decide +kernel
    candidateBuilt := WriteItem.unslotted }

def limaSpelled : TimedWrite spelled where
  clock := .at "2026-01-03"
  item := {
    request := { WriteRequest.plain "k1" "Alex is in Lima" "user" with sourceAuthority := 4 / 5 }
    candidate := some ⟨"Alex is in Lima", "person:alex", "timezone", some "Lima", 4 / 5,
      some "2026-01-01", "state", "private", none⟩
    requestBuilt := limaBuilt
    candidateBuilt := by decide +kernel }

def worded : VectorStore := .bare (history [.write trusted caller oneWord, .write trusted caller limaSpelled])

def unworded : Except Raised VectorStore := eraseWithVectors spelled none worded 1 "owner" "privacy" "t9"

theorem erasureConfinedHere : ∃ t, unworded = .ok t ∧ worded.ConfinedTo spelled 1 "t9" t := by
  have goes : unworded.toOption.isSome = true := by decide +kernel
  obtain ⟨t, done⟩ := Option.isSome_iff_exists.mp goes
  have declared : worded.Declared :=
    { factIds := by unfold Table.Unique; decide +kernel
      observationIds := by unfold Table.Unique; decide +kernel
      referenced := by decide +kernel }
  exact ⟨t, okOfOption done, erasureConfined declared (okOfOption done)⟩

/-- The word of the erased remark is the name of a slot: a write that has nothing to do with the remark
is replayed without its detail. -/
theorem wordForgotten : ∃ t row, unworded = .ok t ∧ loadPrior worded.toStore "host" "k1" = some row ∧
    ¬ row.Names worded.toStore 1 ∧ row.existingFactId = none ∧ row.detail ≠ erasedDetail ∧
    (loadPrior t.toStore "host" "k1").map WriteLogRow.detail = some erasedDetail := by
  have replayed : unworded.toOption.any (fun t => (loadPrior t.toStore "host" "k1").map WriteLogRow.detail =
      some erasedDetail) = true := by decide +kernel
  have stored : (loadPrior worded.toStore "host" "k1").any (fun row => !decide (row.Names worded.toStore 1) &&
      row.existingFactId = none && row.detail ≠ erasedDetail) = true := by decide +kernel
  obtain ⟨t, done, replayed⟩ := (Option.any_eq_true _ _).mp replayed
  obtain ⟨row, prior, stored⟩ := (Option.any_eq_true _ _).mp stored
  simp only [Bool.and_eq_true, Bool.not_eq_true', decide_eq_true_eq, decide_eq_false_iff_not] at stored
  exact ⟨t, row, okOfOption done, prior, stored.1.1, stored.1.2, stored.2, of_decide_eq_true replayed⟩

end Example
end Enfold
