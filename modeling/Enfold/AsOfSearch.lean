import Enfold.HybridRetrieval
import Enfold.Temporal
import Enfold.Foundation.MatchQuery

/-! The search as of a time. It writes the words of a query into a full-text expression as they stand, so the
expression is the conjunction of the words just when each of them is a bareword that is no operator. -/
namespace Enfold

open Fallible KeyOrder

-- `query.replace(",", " ").split()`
def queryWords (query : String) : List (List Char) :=
  Text.runs (fun c => !(c = ',' || Text.isSpace c)) query.toList

def asOfMatch (query : String) : List Char := " AND ".toList.intercalate (queryWords query)

/-- What the full-text index answers to an expression: the rows that match, or what it raises. -/
structure MatchIndex where
  matching : List Document → List Char → Except Raised (List Nat)

/-- `EnfoldService._search_as_of`, in its own order and cut to a limit. -/
def searchAsOf (rt : Runtime) (index : MatchIndex) (s : RecallStore) (scopes : List String) (query : String)
    (category : Option String) (minTrust : Rat) (limit : Nat) (includeUnreviewed : Bool)
    (asOfValid asOfTx : Option String) : Except Raised (List Fact) :=
  if queryWords query = [] then .ok []
  else do
    let hits ← index.matching (s.facts.map Fact.document) (asOfMatch query)
    let rows := s.facts.filter fun f => hits.contains f.factId && f.visibleIn scopes && minTrust ≤ f.trustScore &&
      (asOfTx.isSome || f.conflictGroup.isNone) && category.all (f.category = ·) &&
        (includeUnreviewed || f.correctionStatus ≠ some "unreviewed")
    let ordered := sortedBy (fun f : Fact => toLex (-f.trustScore, f.factId)) rows
    .ok ((ordered.filter fun f => rowMatchesAsOf rt f asOfValid asOfTx).take limit)

/-- The expression of a query, if it makes one, is read as the conjunction of its words. -/
def AsOfAccepted (query : String) : Prop :=
  queryWords query ≠ [] → ∃ q, MatchQuery.Reads (asOfMatch query) q ∧ q.Conjunction (queryWords query)

theorem runsMember {member : Char → Bool} {text : List Char} :
    ∀ run ∈ Text.runs member text, ∀ c ∈ run, member c = true := by
  induction text with
  | nil => exact fun _ listed => absurd listed List.not_mem_nil
  | cons c rest ih =>
    intro run listed
    unfold Text.runs at listed
    split at listed
    · rename_i inside
      have grown : ∀ d ∈ [c], member d = true := fun d hd => List.mem_singleton.mp hd ▸ inside
      split at listed
      · split at listed
        · rename_i head tail shape
          rw [shape] at ih
          rcases List.mem_cons.mp listed with rfl | later
          · exact List.forall_mem_cons.mpr ⟨inside, ih head List.mem_cons_self⟩
          · exact ih run (List.mem_cons_of_mem _ later)
        · rw [List.mem_singleton.mp listed]
          exact grown
      · rcases List.mem_cons.mp listed with rfl | later
        · exact grown
        · exact ih run later
    · exact ih run listed

theorem queryWordsSpec {query : String} : ∀ word ∈ queryWords query, ' ' ∉ word :=
  fun word listed blank => absurd (runsMember word listed ' ' blank) (by decide)

/-- Any query is searched as of a time for the conjunction of its words just when all of them are plain. -/
theorem asOfAccepted (query : String) :
    AsOfAccepted query ↔ ∀ word ∈ queryWords query, MatchQuery.Plain word := by
  have same : asOfMatch query = MatchQuery.conjoined (queryWords query) := rfl
  unfold AsOfAccepted
  rw [same]
  by_cases some : queryWords query = []
  · rw [some]
    exact ⟨fun _ _ listed => absurd listed List.not_mem_nil, fun _ full => absurd rfl full⟩
  · rw [← MatchQuery.conjunctionRead some queryWordsSpec]
    exact ⟨fun accepted => accepted some, fun reads _ => reads⟩

/-- An index that answers every expression it can read answers every query of plain words. -/
theorem plainAnswered {rt : Runtime} {index : MatchIndex} {s : RecallStore} {scopes : List String} {query : String}
    {category : Option String} {minTrust : Rat} {limit : Nat} {includeUnreviewed : Bool}
    {asOfValid asOfTx : Option String}
    (answers : ∀ documents text q, MatchQuery.Reads text q → ∃ hits, index.matching documents text = .ok hits)
    (plain : ∀ word ∈ queryWords query, MatchQuery.Plain word) :
    ∃ rows, searchAsOf rt index s scopes query category minTrust limit includeUnreviewed asOfValid asOfTx = .ok rows := by
  unfold searchAsOf
  split
  · exact ⟨[], rfl⟩
  · rename_i some
    obtain ⟨q, reads, -⟩ := (asOfAccepted query).mpr plain some
    obtain ⟨hits, found⟩ := answers (s.facts.map Fact.document) _ q reads
    rw [found]
    exact ⟨_, rfl⟩

namespace Example

/-- An apostrophe is no character of a bareword. -/
theorem apostropheRefused : ¬ AsOfAccepted "Avery's backups" := by
  intro accepted
  have lexed : MatchQuery.lex (asOfMatch "Avery's backups") = none := by decide +kernel
  obtain ⟨_, ⟨lexemes, read, _⟩, _⟩ := accepted (by decide +kernel)
  rw [lexed] at read
  cases read

end Example

end Enfold
