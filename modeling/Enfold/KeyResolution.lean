import Enfold.SlotVocabulary

/-! A slot key that has been resolved is a key of its grammar, and resolved again, among the same known
predicates, it stays as it is. -/
namespace Enfold

open Fallible

-- each known predicate as it was canonicalised
theorem knownPredicatesNormal {predicates known : List String}
    (read : predicates.mapM normalizePredicateKey = .ok known) : ∀ p ∈ known, normalizePredicateKey p = .ok p := by
  intro p inside
  obtain ⟨stated, -, normal⟩ := mapMSource read p inside
  exact normalizePredicateTwice normal

theorem resolvePredicateTwice {value key : String} {knownPredicates : List String}
    (h : resolveExtractedPredicateKey value knownPredicates = .ok key) :
    normalizePredicateKey key = .ok key ∧ resolveExtractedPredicateKey key knownPredicates = .ok key := by
  simp only [resolveExtractedPredicateKey, bindOk] at h
  obtain ⟨normalized, first, known, read, h⟩ := h
  split at h
  · rename_i listed
    cases h
    have again := normalizePredicateTwice first
    refine ⟨again, ?_⟩
    simp only [resolveExtractedPredicateKey, again, read, okBind, if_pos listed]
  · rename_i apart
    split at h
    · rename_i only one
      cases h
      have chosen : key ∈ known.dedup.filter fun candidate => pluralKey candidate = normalized := by
        rw [one]
        exact List.mem_singleton_self key
      have inside : key ∈ known := List.mem_dedup.mp (List.mem_filter.mp chosen).1
      have again := knownPredicatesNormal read key inside
      refine ⟨again, ?_⟩
      simp only [resolveExtractedPredicateKey, again, read, okBind, if_pos (List.contains_iff_mem.mpr inside)]
    · rename_i many
      cases h
      have again := normalizePredicateTwice first
      refine ⟨again, ?_⟩
      simp only [resolveExtractedPredicateKey, again, read, okBind, if_neg apart]

def Settles (resolve : String → Except Raised String) (grammar : List Char → Bool) : Prop :=
  ∀ value key, resolve value = .ok key → grammar key.toList = true ∧ resolve key = .ok key

/-- Every way to canonicalise a slot key settles it at once, whatever predicates are known. -/
theorem keysSettled : Settles normalizeSubjectKey isSubjectKey ∧ Settles normalizePredicateKey isPredicateKey ∧
    Settles resolveExtractedSubjectKey isSubjectKey ∧
    ∀ knownPredicates, Settles (resolveExtractedPredicateKey · knownPredicates) isPredicateKey := by
  refine ⟨fun value key h => ?_, fun value key h => ?_, fun value key h => ?_, fun known value key h => ?_⟩
  · exact ⟨subjectKeySource h, normalizeSubjectTwice h⟩
  · exact ⟨(predicateKeySource h).1, normalizePredicateTwice h⟩
  · obtain ⟨normal, again⟩ := resolveSubjectTwice h
    exact ⟨subjectKeySource normal, again⟩
  · obtain ⟨normal, again⟩ := resolvePredicateTwice h
    exact ⟨(predicateKeySource normal).1, again⟩

end Enfold
