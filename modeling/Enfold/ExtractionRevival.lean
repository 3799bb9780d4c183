import Enfold.ExtractionJobs

/-! Dead rows queued again: of the rows of one payload only the oldest dead one is taken, and only when
no row of it is active. The oldest is looked for among all dead rows, those outside the request too. -/
namespace Enfold

-- the rows of `uq_extract_queue_active_payload_hash`
def QueueRow.activeFor (hash : String) (row : QueueRow) : Bool :=
  row.payloadHash = some hash && (row.status = .pending || row.status = .processing)

def ActiveUnique (queue : List QueueRow) : Prop := ∀ hash, Table.matching (QueueRow.activeFor hash) queue ≤ 1

def QueueRow.deadFor (hash : String) (row : QueueRow) : Bool := row.payloadHash = some hash && row.status = .dead

-- `ids is None`, or among the ids
def listedIn (ids : Option (List Nat)) (row : QueueRow) : Bool := ids.all fun ids => ids.contains row.id

def QueueRow.revivable (queue : List QueueRow) (row : QueueRow) : Bool :=
  row.status = .dead && row.payloadHash.all fun hash =>
    ((queue.filter (QueueRow.deadFor hash)).map QueueRow.id).min? = some row.id &&
      !queue.any (QueueRow.activeFor hash)

def QueueRow.revive (row : QueueRow) : QueueRow :=
  { row with
    status := .pending
    attempts := 0
    notBefore := none
    leaseOwner := none
    leaseUntil := none
    lastError := some (row.lastError.getD "" ++ " (revived)") }

/-- `revive_dead`, with the number of rows it revived. -/
def reviveDead (queue : List QueueRow) (ids : Option (List Nat)) : List QueueRow × Nat :=
  if ids = some [] then (queue, 0)
  else
    let chosen (row : QueueRow) : Bool := row.revivable queue && listedIn ids row
    (Table.amend chosen QueueRow.revive queue, Table.matching chosen queue)

def quotaErrorPatterns : List String := ["429", "usage_limit_reached", "usage_limit", "rate limit", "quota"]

-- `is_quota_error`
def isQuotaError (error : Option String) : Bool :=
  let text := Text.lower (error.getD "")
  quotaErrorPatterns.any fun pattern => (Text.afterFirst pattern.toList text).isSome

/-- The rows a quota error killed; `recent` is the age check against the database's clock. -/
def quotaDead (recent : QueueRow → Bool) (queue : List QueueRow) : List Nat :=
  (queue.filter fun row => row.status = .dead && recent row && isQuotaError row.lastError).map QueueRow.id

/-- `revive_recent_quota_dead`. -/
def reviveRecentQuotaDead (recent : QueueRow → Bool) (queue : List QueueRow) : List QueueRow × Nat :=
  if quotaDead recent queue = [] then (queue, 0) else reviveDead queue (some (quotaDead recent queue))

section Revival
variable {queue : List QueueRow} {ids : Option (List Nat)} {row : QueueRow} {hash : String}

theorem reviveActive (row : QueueRow) : row.revive.activeFor hash = decide (row.payloadHash = some hash) := by
  by_cases same : row.payloadHash = some hash
  · simp [QueueRow.activeFor, QueueRow.revive, same]
  · simp [QueueRow.activeFor, QueueRow.revive, same]

def QueueRow.chosen (queue : List QueueRow) (ids : Option (List Nat)) (row : QueueRow) : Bool :=
  row.revivable queue && listedIn ids row

theorem reviveDeadQueue : (reviveDead queue ids).1 = Table.amend (QueueRow.chosen queue ids) QueueRow.revive queue := by
  unfold reviveDead
  split
  · rename_i empty
    refine (Table.amendUntouched fun row _ => ?_).symm
    simp [QueueRow.chosen, listedIn, empty]
  · rfl

theorem chosenDead (chosen : row.chosen queue ids = true) : row.status = .dead := by
  simp only [QueueRow.chosen, QueueRow.revivable, Bool.and_eq_true, decide_eq_true_eq] at chosen
  exact chosen.1.1

theorem chosenListed (chosen : row.chosen queue ids = true) : listedIn ids row = true :=
  (Bool.and_eq_true_iff.mp chosen).2

theorem chosenHashed (here : row.payloadHash = some hash) : row.chosen queue ids = true ↔
    row.status = .dead ∧ ((queue.filter (QueueRow.deadFor hash)).map QueueRow.id).min? = some row.id ∧
      (∀ other ∈ queue, other.activeFor hash = false) ∧ listedIn ids row = true := by
  simp [QueueRow.chosen, QueueRow.revivable, here, and_assoc]

variable (queue ids hash) in
theorem activeAfter : Table.matching (QueueRow.activeFor hash) (reviveDead queue ids).1 =
    Table.matching (QueueRow.activeFor hash) queue +
      Table.matching (fun row => row.chosen queue ids && row.payloadHash = some hash) queue := by
  rw [reviveDeadQueue]
  suffices each : ∀ rows : List QueueRow, Table.matching (QueueRow.activeFor hash)
      (Table.amend (QueueRow.chosen queue ids) QueueRow.revive rows) = Table.matching (QueueRow.activeFor hash) rows +
        Table.matching (fun row => row.chosen queue ids && row.payloadHash = some hash) rows from each queue
  intro rows
  induction rows with
  | nil => rfl
  | cons row rows ih =>
    rw [← List.singleton_append, Table.amendAppend, Table.matchingAppend, Table.matchingAppend,
      Table.matchingAppend, ih, Table.amendSingle, Table.matchingSingle, Table.matchingSingle,
      Table.matchingSingle]
    cases taken : row.chosen queue ids with
    | true =>
      have inactive : row.activeFor hash = false := by
        simp [QueueRow.activeFor, chosenDead taken]
      rw [if_pos rfl, reviveActive, inactive, Bool.true_and, if_neg Bool.false_ne_true]
      omega
    | false =>
      rw [if_neg Bool.false_ne_true, Bool.false_and, if_neg Bool.false_ne_true]
      omega

variable (ids hash) in
theorem chosenOnce (keyed : Table.Unique QueueRow.id queue) :
    Table.matching (fun row => row.chosen queue ids && row.payloadHash = some hash) queue ≤ 1 := by
  by_cases any : ∃ row ∈ queue, (row.chosen queue ids && row.payloadHash = some hash) = true
  · obtain ⟨row, hr, hit⟩ := any
    refine Nat.le_of_eq (Table.matchingKeyed keyed (k := row.id) (fun other taken => ?_) hr hit)
    simp only [Bool.and_eq_true, decide_eq_true_eq] at taken hit
    have first := ((chosenHashed taken.2).mp taken.1).2.1
    have second := ((chosenHashed hit.2).mp hit.1).2.1
    exact Option.some.inj (first.symm.trans second)
  · rw [Table.matchingNone fun row hr => Bool.eq_false_iff.mpr fun hit => any ⟨row, hr, hit⟩]
    exact Nat.zero_le 1

theorem chosenNone (active : 0 < Table.matching (QueueRow.activeFor hash) queue) :
    Table.matching (fun row => row.chosen queue ids && row.payloadHash = some hash) queue = 0 := by
  obtain ⟨other, ho, busy⟩ := List.countP_pos_iff.mp active
  refine Table.matchingNone fun row hr => Bool.eq_false_iff.mpr fun hit => ?_
  simp only [Bool.and_eq_true, decide_eq_true_eq] at hit
  have free := ((chosenHashed hit.2).mp hit.1).2.2.1 other ho
  rw [busy] at free
  cases free

/-- The oldest dead row of this payload is among the ids. -/
def OldestListed (queue : List QueueRow) (ids : Option (List Nat)) (hash : String) : Prop :=
  ∃ row ∈ queue, row.deadFor hash = true ∧ listedIn ids row = true ∧
    ∀ peer ∈ queue, peer.deadFor hash = true → row.id ≤ peer.id

theorem oldestChosen (free : Table.matching (QueueRow.activeFor hash) queue = 0) :
    0 < Table.matching (fun row => row.chosen queue ids && row.payloadHash = some hash) queue ↔
      OldestListed queue ids hash := by
  have idle (other : QueueRow) (ho : other ∈ queue) : other.activeFor hash = false :=
    Bool.eq_false_iff.mpr fun busy => absurd (List.countP_pos_iff.mpr ⟨other, ho, busy⟩) (by
      rw [show List.countP (QueueRow.activeFor hash) queue = 0 from free]
      omega)
  rw [Table.matching, List.countP_pos_iff]
  constructor
  · rintro ⟨row, hr, hit⟩
    simp only [Bool.and_eq_true, decide_eq_true_eq] at hit
    obtain ⟨dead, smallest, -, listed⟩ := (chosenHashed hit.2).mp hit.1
    refine ⟨row, hr, by simp [QueueRow.deadFor, hit.2, dead], listed, fun peer hp gone => ?_⟩
    exact (List.min?_eq_some_iff.mp smallest).2 _ (List.mem_map_of_mem (List.mem_filter.mpr ⟨hp, gone⟩))
  · rintro ⟨row, hr, gone, listed, oldest⟩
    have both : row.payloadHash = some hash ∧ row.status = .dead := by simpa [QueueRow.deadFor] using gone
    refine ⟨row, hr, ?_⟩
    simp only [Bool.and_eq_true, decide_eq_true_eq]
    refine ⟨(chosenHashed both.1).mpr ⟨both.2, List.min?_eq_some_iff.mpr ⟨?_, fun id hid => ?_⟩, idle, listed⟩, both.1⟩
    · exact List.mem_map_of_mem (List.mem_filter.mpr ⟨hr, gone⟩)
    · obtain ⟨peer, hp, rfl⟩ := List.mem_map.mp hid
      exact oldest peer (List.mem_of_mem_filter hp) (List.mem_filter.mp hp).2

theorem othersUntouched (queue : List QueueRow) (ids : Option (List Nat)) :
    (reviveDead queue ids).1.filter (fun row => !listedIn ids row) = queue.filter fun row => !listedIn ids row := by
  have kept (row : QueueRow) : listedIn ids (if row.chosen queue ids then row.revive else row) = listedIn ids row := by
    split
    · rfl
    · rfl
  rw [reviveDeadQueue, Table.amend, List.filter_map]
  have same : ((fun row => !listedIn ids row) ∘ fun row : QueueRow =>
      if row.chosen queue ids then row.revive else row) = fun row => !listedIn ids row := by
    funext row
    show (!listedIn ids (if row.chosen queue ids then row.revive else row)) = _
    rw [kept]
  rw [same]
  refine (List.map_congr_left fun row hr => ?_).trans (List.map_id _)
  have apart : listedIn ids row = false := by simpa using (List.mem_filter.mp hr).2
  refine if_neg fun chosen => ?_
  rw [chosenListed chosen] at apart
  cases apart

end Revival

/-- Every payload among the listed dead rows has exactly one active row, the other rows are as they were,
and the index of active payloads holds. -/
structure Revived (before after : List QueueRow) (ids : Option (List Nat)) : Prop where
  recovered : ∀ hash, (∃ row ∈ before, row.deadFor hash = true ∧ listedIn ids row = true) →
    Table.matching (QueueRow.activeFor hash) after = 1
  untouched : after.filter (fun row => !listedIn ids row) = before.filter fun row => !listedIn ids row
  index : ActiveUnique after

theorem revivedIff {queue : List QueueRow} (keyed : Table.Unique QueueRow.id queue)
    (index : ActiveUnique queue) (ids : Option (List Nat)) : Revived queue (reviveDead queue ids).1 ids ↔
      ∀ row ∈ queue, ∀ hash, row.deadFor hash = true → listedIn ids row = true →
        0 < Table.matching (QueueRow.activeFor hash) queue ∨ OldestListed queue ids hash := by
  constructor
  · intro revived row hr hash gone listed
    have one := revived.recovered hash ⟨row, hr, gone, listed⟩
    rw [activeAfter queue ids hash] at one
    by_cases active : 0 < Table.matching (QueueRow.activeFor hash) queue
    · exact .inl active
    · have free : Table.matching (QueueRow.activeFor hash) queue = 0 := by omega
      exact .inr ((oldestChosen free).mp (by omega))
  · intro covered
    refine ⟨fun hash listed => ?_, ?_, fun hash => ?_⟩
    · obtain ⟨row, hr, gone, named⟩ := listed
      have atMost := index hash
      have once := chosenOnce ids hash keyed
      rw [activeAfter queue ids hash]
      rcases covered row hr hash gone named with active | oldest
      · rw [chosenNone active]
        omega
      · by_cases active : 0 < Table.matching (QueueRow.activeFor hash) queue
        · rw [chosenNone active]
          omega
        · have free : Table.matching (QueueRow.activeFor hash) queue = 0 := by omega
          have some' := (oldestChosen free).mpr oldest
          omega
    · exact othersUntouched queue ids
    · have atMost := index hash
      have once := chosenOnce ids hash keyed
      rw [activeAfter queue ids hash]
      by_cases active : 0 < Table.matching (QueueRow.activeFor hash) queue
      · rw [chosenNone active]
        omega
      · omega

/-- Reviving recovers every listed payload exactly when each of them was active already or has its oldest
dead row among the ids; so too when the ids are those of the recent quota errors. -/
theorem reviveDeadRecovers {queue : List QueueRow} (keyed : Table.Unique QueueRow.id queue)
    (index : ActiveUnique queue) : (∀ ids, Revived queue (reviveDead queue ids).1 ids ↔
      ∀ row ∈ queue, ∀ hash, row.deadFor hash = true → listedIn ids row = true →
        0 < Table.matching (QueueRow.activeFor hash) queue ∨ OldestListed queue ids hash) ∧
    ∀ recent, Revived queue (reviveRecentQuotaDead recent queue).1 (some (quotaDead recent queue)) ↔
      ∀ row ∈ queue, ∀ hash, row.deadFor hash = true → listedIn (some (quotaDead recent queue)) row = true →
        0 < Table.matching (QueueRow.activeFor hash) queue ∨
          OldestListed queue (some (quotaDead recent queue)) hash := by
  refine ⟨revivedIff keyed index, fun recent => ?_⟩
  have same : reviveRecentQuotaDead recent queue = reviveDead queue (some (quotaDead recent queue)) := by
    unfold reviveRecentQuotaDead reviveDead
    split
    · rename_i empty
      rw [if_pos (congrArg some empty)]
    · rfl
  rw [same]
  exact revivedIff keyed index _

namespace Example

def deadRow (id : Nat) : QueueRow where
  id := id
  createdAt := "2026-01-05"
  payload := "payload"
  status := .dead
  payloadHash := some "digest"
  attempts := 3
  lastError := some "usage_limit_reached"
  notBefore := none
  leaseOwner := none
  leaseUntil := none
  leaseToken := none
  proposalJson := none
  proposalHash := none

theorem deadInactive : ActiveUnique [deadRow 1, deadRow 2] := by
  intro hash
  rw [Table.matchingNone fun row hr => ?_]
  · exact Nat.zero_le 1
  · simp only [List.mem_cons, List.not_mem_nil, or_false] at hr
    rcases hr with rfl | rfl
    · simp [QueueRow.activeFor, deadRow]
    · simp [QueueRow.activeFor, deadRow]

/-- Two dead rows of one payload, of which the second is asked for. -/
theorem youngerListed : Table.Unique QueueRow.id [deadRow 1, deadRow 2] ∧ ActiveUnique [deadRow 1, deadRow 2] ∧
    ¬ Revived [deadRow 1, deadRow 2] (reviveDead [deadRow 1, deadRow 2] (some [2])).1 (some [2]) := by
  refine ⟨by simp [Table.Unique, deadRow], deadInactive, fun revived => ?_⟩
  have one := revived.recovered "digest" ⟨deadRow 2, by simp, by decide, by decide⟩
  have none : Table.matching (QueueRow.activeFor "digest")
      (reviveDead [deadRow 1, deadRow 2] (some [2])).1 = 0 := by decide
  rw [none] at one
  cases one

/-- Both are asked for. -/
theorem bothListed : Revived [deadRow 1, deadRow 2] (reviveDead [deadRow 1, deadRow 2] (some [1, 2])).1
    (some [1, 2]) := by
  refine ((reviveDeadRecovers (by simp [Table.Unique, deadRow]) deadInactive).1 _).mpr
    fun row hr hash gone listed => .inr ⟨deadRow 1, by simp, ?_, by decide, fun peer hp _ => ?_⟩
  · simp only [List.mem_cons, List.not_mem_nil, or_false] at hr
    rcases hr with rfl | rfl
    · exact gone
    · exact gone
  · simp only [List.mem_cons, List.not_mem_nil, or_false] at hp
    rcases hp with rfl | rfl
    · exact le_refl 1
    · exact Nat.le_succ 1

end Example
end Enfold
