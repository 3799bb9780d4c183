import Enfold.WriteSource

/-! The mutations of a write in closed form: under unique fact ids each is one of a few pure
changes of the fact, conflict and member tables. -/
namespace Enfold

open Fallible

variable {rt : Runtime}

/-- Fact and conflict ids are unique and below the next ones. -/
structure Ledger.Keyed (l : Ledger) : Prop where
  factIds : Table.Unique Fact.factId l.facts
  factBound : ∀ f ∈ l.facts, f.factId < l.nextFactId
  conflictIds : Table.Unique Conflict.conflictId l.conflicts
  conflictBound : ∀ row ∈ l.conflicts, row.conflictId < l.nextConflictId

namespace Ledger

def insert (l : Ledger) (g : Fact) : Ledger :=
  { l with facts := l.facts ++ [g], nextFactId := l.nextFactId + 1 }

/-- One `UPDATE facts` of the row with this id. -/
def retire (l : Ledger) (factId : Nat) (h : Fact → Fact) : Ledger :=
  { l with facts := Table.amend (fun f => f.factId = factId) h l.facts }

def join (l : Ledger) (member : Member) : Ledger := { l with members := l.members ++ [member] }

variable {l l' : Ledger}

theorem factFind {factId : Nat} {f : Fact} (h : l.fact factId = some f) :
    f ∈ l.facts ∧ f.factId = factId := Table.findMem h

theorem Keyed.find (keyed : l.Keyed) {f : Fact} (mem : f ∈ l.facts) : l.fact f.factId = some f :=
  Table.findOfMem keyed.factIds mem

theorem Keyed.insert (keyed : l.Keyed) {g : Fact} (next : g.factId = l.nextFactId) :
    (l.insert g).Keyed where
  factIds := Table.uniqueAppend keyed.factIds fun f hf => by
    have := keyed.factBound f hf
    omega
  factBound f hf := by
    rcases List.mem_append.mp hf with hf | hf
    · have := keyed.factBound f hf
      simp only [Ledger.insert]
      omega
    · rw [List.mem_singleton.mp hf, next]
      simp [Ledger.insert]
  conflictIds := keyed.conflictIds
  conflictBound := keyed.conflictBound

theorem Keyed.amend (keyed : l.Keyed) {p : Fact → Bool} {h : Fact → Fact}
    (kept : ∀ f, (h f).factId = f.factId) :
    ({ l with facts := Table.amend p h l.facts } : Ledger).Keyed where
  factIds := Table.amendUnique kept keyed.factIds
  factBound f hf := by
    obtain ⟨old, hold, rfl⟩ := Table.memAmend.mp hf
    have := keyed.factBound old hold
    split
    · rw [kept]
      exact this
    · exact this
  conflictIds := keyed.conflictIds
  conflictBound := keyed.conflictBound

theorem Keyed.freshMiss (keyed : l.Keyed) {q : Fact → Bool} {f : Fact} (hf : f ∈ l.facts) :
    (decide (f.factId = l.nextFactId) && q f) = false := by
  have := keyed.factBound f hf
  simp only [Bool.and_eq_false_iff, decide_eq_false_iff_not]
  exact .inl (by omega)

theorem Keyed.amendFresh (keyed : l.Keyed) {q : Fact → Bool} {h : Fact → Fact} {g : Fact}
    (next : g.factId = l.nextFactId) (hit : q g = true) :
    Table.amend (fun f => f.factId = l.nextFactId && q f) h (l.facts ++ [g]) =
      l.facts ++ [h g] := by
  rw [Table.amendAppend, Table.amendUntouched fun f hf => keyed.freshMiss hf, Table.amendSingle]
  simp [next, hit]

theorem Keyed.amendOneSource (keyed : l.Keyed) {factId : Nat} {q : Fact → Bool} {h : Fact → Fact}
    {missed : Raised} (done : l.amendOne (fun f => f.factId = factId && q f) h missed = .ok l') :
    ∃ f ∈ l.facts, f.factId = factId ∧ q f = true ∧ l' = l.retire factId h := by
  simp only [amendOne, bindOk, ensureOk, decide_eq_true_eq] at done
  obtain ⟨-, one, last⟩ := done
  cases last
  obtain ⟨f, hf, hit⟩ := Table.matchingPos one
  simp only [Bool.and_eq_true, decide_eq_true_eq] at hit
  obtain ⟨rfl, hit⟩ := hit
  refine ⟨f, hf, rfl, hit, ?_⟩
  simp only [Ledger.retire, Table.amendByKey keyed.factIds hf hit]

theorem retireInsert {g : Fact} {factId : Nat} {h : Fact → Fact} (other : g.factId ≠ factId) :
    (l.insert g).retire factId h = (l.retire factId h).insert g := by
  simp [Ledger.retire, Ledger.insert, Table.amendAppend, Table.amendSingle, other]

theorem Keyed.retireFresh (keyed : l.Keyed) {g : Fact} {h : Fact → Fact}
    (next : g.factId = l.nextFactId) :
    (l.insert g).retire l.nextFactId h = l.insert (h g) := by
  have hit := keyed.amendFresh (q := fun _ => true) (h := h) next rfl
  simp only [Bool.and_true] at hit
  simp only [Ledger.retire, Ledger.insert, hit]

theorem Keyed.openConflict (keyed : l.Keyed) (row : Conflict) (factIds : List Nat)
    {mark : Fact → Fact} (next : row.conflictId = l.nextConflictId)
    (kept : ∀ f, (mark f).factId = f.factId) : (l.openConflict row factIds mark).Keyed where
  factIds := (keyed.amend (p := fun f => factIds.contains f.factId) kept).factIds
  factBound := (keyed.amend (p := fun f => factIds.contains f.factId) kept).factBound
  conflictIds := Table.uniqueAppend keyed.conflictIds fun old hold => by
    have := keyed.conflictBound old hold
    omega
  conflictBound old hold := by
    rcases List.mem_append.mp hold with hold | hold
    · have := keyed.conflictBound old hold
      simp only [Ledger.openConflict]
      omega
    · rw [List.mem_singleton.mp hold, next]
      simp [Ledger.openConflict]

theorem Keyed.join (keyed : l.Keyed) {member : Member} : (l.join member).Keyed :=
  ⟨keyed.factIds, keyed.factBound, keyed.conflictIds, keyed.conflictBound⟩

theorem openConflictInsert {g : Fact} {row : Conflict} {factIds : List Nat} {mark : Fact → Fact}
    (other : g.factId ∉ factIds) :
    (l.insert g).openConflict row factIds mark = (l.openConflict row factIds mark).insert g := by
  have miss : factIds.contains g.factId = false := by simpa using other
  simp only [Ledger.insert, Ledger.openConflict, Table.amendAppend, Table.amendSingle, miss,
    Bool.false_eq_true, if_false]

end Ledger

variable {l l' : Ledger} {request : WriteRequest} {clock : Clock}

theorem factWriterSource {now : String} {factId : Nat}
    (h : factWriter l request now = .ok (l', factId)) :
    factId = l.nextFactId ∧ l' = l.insert (request.row l.nextFactId now) := by
  simp only [factWriter, bindOk] at h
  obtain ⟨content, -, category, -, scope, -, sensitivity, -, -, -, -, -, last⟩ := h
  cases last
  exact ⟨rfl, rfl⟩

theorem rowCurrent {factId : Nat} {now : String} : (request.row factId now).current = true := rfl

end Enfold
