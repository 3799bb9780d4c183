import Enfold.SlotDecisions

/-! Canonical slot keys stay as they are when they are canonicalised again. -/
namespace Enfold

namespace Text

theorem casefoldCharKept {c : Char} (small : c.toNat < 128) (lower : isUpperAscii c = false) :
    casefoldChar c = [c] := by
  unfold casefoldChar
  rw [lower]
  simp only [Bool.false_eq_true, if_false]
  split
  all_goals first | omega | rfl

theorem casefoldKept {text : List Char}
    (kept : ∀ c ∈ text, c.toNat < 128 ∧ isUpperAscii c = false) : casefold text = text := by
  induction text with
  | nil => rfl
  | cons c rest ih =>
    obtain ⟨small, lower⟩ := kept c List.mem_cons_self
    have tail := ih fun d inside => kept d (List.mem_cons_of_mem _ inside)
    rw [casefold] at tail ⊢
    rw [List.flatMap_cons, casefoldCharKept small lower, tail]
    rfl

theorem collapseKept {member : Char → Bool} {mark : Char} {text : List Char}
    (kept : ∀ c ∈ text, member c = false) : collapse member mark text = text := by
  induction text with
  | nil => rfl
  | cons c rest ih =>
    rw [collapse, kept c List.mem_cons_self]
    simp only [Bool.false_eq_true, if_false]
    rw [ih fun d inside => kept d (List.mem_cons_of_mem _ inside)]

theorem collapseMisses {member : Char → Bool} {mark : Char} {text : List Char}
    (apart : member mark = false) : ∀ c ∈ collapse member mark text, member c = false := by
  induction text with
  | nil => exact fun c inside => by cases inside
  | cons d rest ih =>
    intro c inside
    unfold collapse at inside
    split at inside
    · split at inside
      · exact ih c inside
      · rcases List.mem_cons.mp inside with rfl | inside
        · exact apart
        · exact ih c inside
    · rename_i plain
      rcases List.mem_cons.mp inside with rfl | inside
      · simpa using plain
      · exact ih c inside

theorem wordFolded {c : Char} (h : isWordChar c = true) :
    c.toNat < 128 ∧ isUpperAscii c = false := by
  simp only [isWordChar, isLowerAscii, isDigitAscii, Bool.or_eq_true, Bool.and_eq_true,
    decide_eq_true_eq, Char.le_def, UInt32.le_iff_toNat_le] at h
  have value : c.toNat = c.val.toNat := rfl
  simp only [isUpperAscii, value, Char.le_def, UInt32.le_iff_toNat_le, Bool.and_eq_false_iff,
    decide_eq_false_iff_not]
  rcases h with h | h <;> simp at h ⊢ <;> omega

end Text

theorem subjectKeyFolded {text : List Char} (h : isSubjectKey text = true) :
    ∀ c ∈ text, c.toNat < 128 ∧ Text.isUpperAscii c = false := by
  unfold isSubjectKey at h
  intro c inside
  have letter := Text.shapedAll (fun c word => by simp [word]) h c inside
  simp only [Bool.or_eq_true, decide_eq_true_eq] at letter
  rcases letter with ((((word | rfl) | rfl) | rfl) | rfl) | rfl
  · exact Text.wordFolded word
  all_goals decide

theorem predicateKeyFolded {text : List Char} (h : isPredicateKey text = true) :
    ∀ c ∈ text, c.toNat < 128 ∧ Text.isUpperAscii c = false := by
  unfold isPredicateKey at h
  intro c inside
  have letter := Text.shapedAll (fun c word => by simp [word]) h c inside
  simp only [Bool.or_eq_true, decide_eq_true_eq] at letter
  rcases letter with ((word | rfl) | rfl) | rfl
  · exact Text.wordFolded word
  all_goals decide

-- the shape a canonical subject key has
theorem subjectKeySource {value key : String} (h : normalizeSubjectKey value = .ok key) :
    isSubjectKey key.toList = true := by
  unfold normalizeSubjectKey at h
  dsimp only at h
  split at h
  · rename_i shape
    rw [← Except.ok.inj h, String.toList_ofList]
    exact shape
  · exact nomatch h

-- a canonical predicate key has its shape, and no hyphen
theorem predicateKeySource {value key : String} (h : normalizePredicateKey value = .ok key) :
    isPredicateKey key.toList = true ∧ ∀ c ∈ key.toList, c ≠ '-' := by
  unfold normalizePredicateKey at h
  dsimp only at h
  split at h
  · rename_i shape
    rw [← Except.ok.inj h, String.toList_ofList]
    refine ⟨shape, fun c inside hyphen => ?_⟩
    have missed := Text.collapseMisses (by decide) c inside
    rw [hyphen] at missed
    revert missed
    decide
  · exact nomatch h

theorem subjectKeyStays {key : String} (shape : isSubjectKey key.toList = true) :
    normalizeSubjectKey key = .ok key := by
  have spaceless := subjectKeySpaceless shape
  have stripped : Text.strip key = key := by
    have kept := Text.stripKept spaceless
    rwa [String.ofList_toList] at kept
  unfold normalizeSubjectKey
  dsimp only
  rw [stripped, Text.casefoldKept (subjectKeyFolded shape), Text.collapseKept spaceless, shape,
    String.ofList_toList]
  rfl

theorem predicateKeyStays {key : String} (shape : isPredicateKey key.toList = true)
    (plain : ∀ c ∈ key.toList, c ≠ '-') : normalizePredicateKey key = .ok key := by
  have spaceless := predicateKeySpaceless shape
  have stripped : Text.strip key = key := by
    have kept := Text.stripKept spaceless
    rwa [String.ofList_toList] at kept
  have missed : ∀ c ∈ key.toList, (Text.isSpace c || decide (c = '-')) = false := fun c inside => by
    rw [spaceless c inside]
    simpa using plain c inside
  unfold normalizePredicateKey
  dsimp only
  rw [stripped, Text.casefoldKept (predicateKeyFolded shape), Text.collapseKept missed, shape,
    String.ofList_toList]
  rfl

theorem normalizeSubjectTwice {value key : String} (h : normalizeSubjectKey value = .ok key) :
    normalizeSubjectKey key = .ok key := subjectKeyStays (subjectKeySource h)

theorem normalizePredicateTwice {value key : String} (h : normalizePredicateKey value = .ok key) :
    normalizePredicateKey key = .ok key :=
  predicateKeyStays (predicateKeySource h).1 (predicateKeySource h).2

end Enfold
