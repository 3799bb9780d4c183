import Enfold.Contradiction
import Enfold.Store
import Mathlib.Tactic.NormNum

/-! The write-time near-duplicate search: a bounded lexical candidate set, an absolute block on
changed values, polarity or lifecycle words, and the cosine threshold. -/
namespace Enfold

namespace Words

def dateWords : List String :=
  ["january", "february", "march", "april", "may", "june", "july", "august", "september",
   "october", "november", "december", "monday", "tuesday", "wednesday", "thursday", "friday",
   "saturday", "sunday", "today", "tomorrow", "yesterday"]

def lifecycleWords : List String :=
  stateWordGroups.flatten ++
    ["pending", "running", "completed", "failed", "succeeded", "deployed", "undeployed",
     "installed", "uninstalled", "available", "unavailable", "approved", "rejected", "accepted",
     "denied"]

end Words

open Words Text

def mergeValueTokens (content : String) : List String :=
  (normTokenSequence content).filter fun token => hasDigit token || dateWords.contains token

/-- Lifecycle words; an `on` or `off` that follows no copula is a preposition, and drops the
word wherever else it stands. -/
def stateTokens (content : String) : List String :=
  let tokens := normTokenSequence content
  let prepositions := ((none :: tokens.map some).zip tokens).filterMap fun (previous, token) =>
    if ["on", "off"].contains token && !(["is", "was", "turned", "set"].map some).contains previous
    then some token else none
  minus (inter tokens lifecycleWords) prepositions

/-- False for textual signals that can denote a changed fact. -/
def safeToMergeNearDuplicate (content other : String) : Bool :=
  mergeValueTokens content = mergeValueTokens other &&
    (negations content).isEmpty == (negations other).isEmpty &&
    sameSet (stateTokens content) (stateTokens other)

structure NearDuplicateCandidate where
  factId : Nat
  trustScore : Rat
  createdAt : String
  cosine : Rat
  deriving DecidableEq, Repr

/-- `NearDedupConfig`, as its `__post_init__` admits it. -/
structure NearDedupConfig where
  enabled : Bool
  cosineThreshold : Rat
  candidateLimit : Nat
  embeddingIdentity : Option String
  bounded : 0 ≤ cosineThreshold ∧ cosineThreshold ≤ 1
  positive : 0 < candidateLimit
  deriving DecidableEq

def NearDedupConfig.standard (embeddingIdentity : Option String) : NearDedupConfig where
  enabled := true
  cosineThreshold := 97 / 100
  candidateLimit := 64
  embeddingIdentity := embeddingIdentity
  bounded := by norm_num
  positive := by decide

section Search
variable (rt : Runtime)

/-- The rows of `facts_fts`. -/
def Ledger.documents (l : Ledger) : List Document :=
  l.facts.map fun f => ⟨f.factId, f.content, f.tags⟩

def Fact.mergeable (f : Fact) (scope : String) : Bool :=
  f.scope = scope && f.current && f.conflictGroup.isNone

/-- The joined rows of the candidate query, in `bm25` order and cut at the limit. -/
def nearDuplicateRows (s : Store) (terms : List String) (scope identity : String) (limit : Nat) :
    List (Fact × Embedding) :=
  ((rt.ftsMatch s.documents terms).filterMap fun rowid => do
    let f ← s.fact rowid
    let e ← s.embeddings.find? fun e => e.factId = f.factId && e.embeddingIdentity = identity
    if f.mergeable scope then some (f, e) else none).take limit

/-- Safe write-time near duplicates, found without scanning the whole scope. -/
def findWriteNearDuplicates (s : Store) (content scope : String) (vector : List Rat)
    (config : NearDedupConfig) (identity : String) : List NearDuplicateCandidate :=
  let terms := (normTokenSequence content).dedup
  if terms = [] || vector.all (· = 0) then []
  else (nearDuplicateRows rt s terms scope identity config.candidateLimit).filterMap fun (f, e) =>
    let cosine := rt.cosine vector e.embedding
    if e.dim = vector.length && safeToMergeNearDuplicate content f.content &&
        e.embedding.length = vector.length && !e.embedding.all (· = 0) &&
        config.cosineThreshold ≤ cosine
    then some ⟨f.factId, f.trustScore, f.createdAt, cosine⟩ else none

/-- The order `(trust_score, created_at, fact_id)` the best candidate is taken by. -/
def NearDuplicateCandidate.below (a b : NearDuplicateCandidate) : Bool :=
  a.trustScore < b.trustScore ||
    (a.trustScore = b.trustScore &&
      (a.createdAt < b.createdAt || (a.createdAt = b.createdAt && a.factId < b.factId)))

/-- `max` with a key: the first of the greatest. -/
def greatest {α : Type} (below : α → α → Bool) : List α → Option α
  | [] => none
  | a :: rest => some (rest.foldl (fun best item => if below best item then item else best) a)

theorem foldlGreatestMem {α : Type} {below : α → α → Bool} {rest : List α} {a : α} :
    rest.foldl (fun best item => if below best item then item else best) a ∈ a :: rest := by
  induction rest generalizing a with
  | nil => simp
  | cons b rest ih =>
    simp only [List.foldl_cons]
    have tail := ih (a := if below a b then b else a)
    rcases List.mem_cons.mp tail with same | inside
    · rw [same]
      split
      · exact List.mem_cons_of_mem _ List.mem_cons_self
      · exact List.mem_cons_self
    · exact List.mem_cons_of_mem _ (List.mem_cons_of_mem _ inside)

theorem greatestMem {α : Type} {below : α → α → Bool} {items : List α} {best : α}
    (h : greatest below items = some best) : best ∈ items := by
  cases items with
  | nil => simp [greatest] at h
  | cons a rest =>
    simp only [greatest, Option.some.injEq] at h
    exact h ▸ foldlGreatestMem

theorem greatestNone {α : Type} {below : α → α → Bool} {items : List α} :
    greatest below items = none ↔ items = [] := by
  cases items <;> simp [greatest]

theorem foldlGreatestTop {α : Type} {below : α → α → Bool}
    (apart : ∀ a b, below a b = true → below b a = false)
    (between : ∀ a b c, below a c = true → below a b = true ∨ below b c = true) {rest : List α} {a : α} :
    ∀ b ∈ a :: rest, below (rest.foldl (fun best item => if below best item then item else best) a) b =
      false := by
  induction rest generalizing a with
  | nil =>
    intro b hb
    obtain rfl := List.mem_singleton.mp hb
    cases self : below b b with
    | false => exact List.foldl_nil ▸ self
    | true => exact absurd (self.symm.trans (apart b b self)) Bool.noConfusion
  | cons c rest ih =>
    simp only [List.foldl_cons]
    have top := ih (a := if below a c then c else a)
    generalize rest.foldl _ _ = best at top ⊢
    have head := top _ List.mem_cons_self
    have both : below best a = false ∧ below best c = false := by
      cases less : below a c with
      | true =>
        rw [less, if_pos rfl] at head
        refine ⟨?_, head⟩
        by_contra up
        rcases between best c a (by simpa using up) with above | back
        · exact absurd (head.symm.trans above) Bool.noConfusion
        · exact absurd (back.symm.trans (apart a c less)) Bool.noConfusion
      | false =>
        rw [less, if_neg Bool.noConfusion] at head
        refine ⟨head, ?_⟩
        by_contra up
        rcases between best a c (by simpa using up) with above | back
        · exact absurd (head.symm.trans above) Bool.noConfusion
        · exact absurd (less.symm.trans back) Bool.noConfusion
    intro b hb
    rcases List.mem_cons.mp hb with rfl | hb
    · exact both.1
    · rcases List.mem_cons.mp hb with rfl | hb
      · exact both.2
      · exact top b (List.mem_cons_of_mem _ hb)

theorem greatestTop {α : Type} {below : α → α → Bool} {items : List α} {best : α}
    (apart : ∀ a b, below a b = true → below b a = false)
    (between : ∀ a b c, below a c = true → below a b = true ∨ below b c = true)
    (h : greatest below items = some best) : ∀ b ∈ items, below best b = false := by
  cases items with
  | nil => cases h
  | cons a rest =>
    simp only [greatest, Option.some.injEq] at h
    exact h ▸ foldlGreatestTop apart between

theorem nearDuplicateSource {s : Store} {content scope : String} {vector : List Rat}
    {config : NearDedupConfig} {identity : String} {candidate : NearDuplicateCandidate}
    (h : candidate ∈ findWriteNearDuplicates rt s content scope vector config identity) :
    ∃ f ∈ s.facts, f.factId = candidate.factId ∧ f.trustScore = candidate.trustScore ∧
      f.createdAt = candidate.createdAt ∧ f.mergeable scope = true ∧
      safeToMergeNearDuplicate content f.content = true := by
  unfold findWriteNearDuplicates at h
  dsimp only at h
  split at h
  · cases h
  · obtain ⟨⟨f, e⟩, row, hit⟩ := List.mem_filterMap.mp h
    have joined := List.mem_of_mem_take row
    obtain ⟨rowid, -, found⟩ := List.mem_filterMap.mp joined
    simp only [Option.bind_eq_bind, Option.bind_eq_some_iff] at found
    obtain ⟨g, hg, e', -, last⟩ := found
    split at last
    case isFalse => cases last
    case isTrue mergeable =>
      cases last
      split at hit
      case isFalse => cases hit
      case isTrue safe =>
        cases hit
        simp only [Bool.and_eq_true] at safe
        exact ⟨f, (Table.findMem hg).1, rfl, rfl, rfl, mergeable, safe.1.1.1.2⟩

end Search
end Enfold
