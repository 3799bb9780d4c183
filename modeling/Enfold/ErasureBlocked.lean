import Enfold.InsightSources

/-! What may keep a privacy erasure from going through: the tags of the active insights, which it reads
for citations. -/
namespace Enfold

open Fallible

def citedWord (rest : List Char) : List Char := (rest.dropWhile Text.isSpace).takeWhile fun c => !Text.isSpace c

/-- A citation can be read: something stands behind the marker, and what looks like a number there is
one. -/
def CitationReads (rt : Runtime) (tags : String) : Prop :=
  ∀ rest, Text.afterFirst "source_facts:".toList tags.toList = some rest → citedWord rest ≠ [] ∧
    ∀ value ∈ Text.splitOn ',' (Text.stripWith (· = ',') (citedWord rest)), value ≠ [] →
      value.all rt.isDigit = true → value.length ≤ maxStrDigits ∧ ∀ c ∈ value, (rt.decimal c).isSome = true

section Reading
variable {rt : Runtime}

-- what `int` makes of one more character
def readDigit (rt : Runtime) (total : Nat) (c : Char) : Except Raised Nat :=
  match rt.decimal c with
  | some digit => .ok (total * 10 + digit)
  | none => .error ⟨.valueError, "invalid literal for int() with base 10"⟩

theorem digitsRead {value : List Char} : (∃ n, readDigits rt value = .ok n) ↔
    value.length ≤ maxStrDigits ∧ ∀ c ∈ value, (rt.decimal c).isSome = true := by
  have folded (value : List Char) (total : Nat) : (∃ n, value.foldlM (readDigit rt) total = .ok n) ↔
      ∀ c ∈ value, (rt.decimal c).isSome = true := by
    induction value generalizing total with
    | nil => exact iff_of_true ⟨total, rfl⟩ fun c none => absurd none List.not_mem_nil
    | cons c value ih =>
      rw [List.foldlM_cons, List.forall_mem_cons, readDigit]
      cases rt.decimal c with
      | none =>
        refine iff_of_false ?_ fun all => Bool.false_ne_true all.1
        rintro ⟨n, ⟨⟩⟩
      | some digit =>
        rw [okBind, ih]
        exact (and_iff_right rfl).symm
  have unfolded : readDigits rt value = (do
      ensure (value.length ≤ maxStrDigits)
        ⟨.valueError, "Exceeds the limit (4300 digits) for integer string conversion"⟩
      value.foldlM (readDigit rt) 0) := rfl
  simp only [unfolded, bindOk, ensureOk, decide_eq_true_eq]
  constructor
  · rintro ⟨n, -, short, read⟩
    exact ⟨short, (folded value 0).mp ⟨n, read⟩⟩
  · rintro ⟨short, digits⟩
    obtain ⟨n, read⟩ := (folded value 0).mpr digits
    exact ⟨n, (), short, read⟩

theorem citedFactsBlank {tags : String} {rest : List Char}
    (here : Text.afterFirst "source_facts:".toList tags.toList = some rest) (blank : citedWord rest = []) :
    citedFacts rt tags = .error ⟨.indexError, "list index out of range"⟩ := by
  unfold citedFacts
  rw [here]
  unfold citedWord at blank
  simp only [blank]

theorem citedFactsWord {tags : String} {rest : List Char}
    (here : Text.afterFirst "source_facts:".toList tags.toList = some rest) (some : citedWord rest ≠ []) :
    citedFacts rt tags = ((Text.splitOn ',' (Text.stripWith (· = ',') (citedWord rest))).filter fun value =>
      value ≠ [] && value.all rt.isDigit).mapM (readDigits rt) := by
  cases word : citedWord rest with
  | nil => exact absurd word some
  | cons c cs =>
    unfold citedFacts
    rw [here]
    unfold citedWord at word
    simp only [word]

theorem citationReads {tags : String} : (∃ ids, citedFacts rt tags = .ok ids) ↔ CitationReads rt tags := by
  unfold CitationReads
  cases marked : Text.afterFirst "source_facts:".toList tags.toList with
  | none =>
    refine iff_of_true ⟨[], ?_⟩ fun rest found => absurd found (Option.some_ne_none rest).symm
    rw [citedFacts, marked]
  | some rest =>
    simp only [Option.some.injEq, forall_eq']
    by_cases word : citedWord rest = []
    · rw [citedFactsBlank marked word]
      refine iff_of_false ?_ fun reads => reads.1 word
      rintro ⟨ids, ⟨⟩⟩
    · rw [citedFactsWord marked word, mapMOk, and_iff_right word]
      refine forall_congr' fun value => ?_
      simp only [digitsRead, List.mem_filter, Bool.and_eq_true, decide_eq_true_eq, and_imp]

end Reading

section Erasure
variable {rt : Runtime} {l : Ledger} {s : Store} {factId : Nat} {requestedBy reason erasedAt : String}

theorem citesReads {f : Fact} : (∃ wanted, f.cites rt factId = .ok wanted) ↔
    (f.category = "insight" → f.invalidAt = none → CitationReads rt f.tags) := by
  unfold Fact.cites
  split
  · rename_i active
    simp only [Bool.and_eq_true, decide_eq_true_eq, Option.isNone_iff_eq_none] at active
    rw [← citationReads]
    constructor
    · rintro ⟨wanted, read⟩ - -
      obtain ⟨cited, here, -⟩ := bindOk.mp read
      exact ⟨cited, here⟩
    · intro reads
      obtain ⟨cited, here⟩ := reads active.1 active.2
      exact ⟨_, bindOk.mpr ⟨cited, here, rfl⟩⟩
  · rename_i other
    simp only [Bool.and_eq_true, decide_eq_true_eq, Option.isNone_iff_eq_none, not_and] at other
    exact iff_of_true ⟨false, rfl⟩ fun insight active => absurd active (other insight)

theorem eraseLedgerReads (requestedBy erasedAt : String) : (∃ done, eraseLedger rt l factId requestedBy erasedAt = .ok done) ↔
    ∀ f ∈ l.facts, f.factId ≠ factId → f.category = "insight" → f.invalidAt = none → CitationReads rt f.tags := by
  have kept : (∃ done, eraseLedger rt l factId requestedBy erasedAt = .ok done) ↔
      ∃ citing, keep (Fact.cites rt factId) (Table.amend (·.factId = factId) (Fact.scrub erasedAt) l.facts) =
        .ok citing := by
    simp only [eraseLedger, invalidateInsights, bindOk, Prod.exists]
    constructor
    · rintro ⟨a, b, c, l₁, n, ⟨citing, read, -⟩, -⟩
      exact ⟨citing, read⟩
    · rintro ⟨citing, read⟩
      exact ⟨_, _, _, _, _, ⟨citing, read, rfl⟩, rfl⟩
  have total : (∃ citing, keep (Fact.cites rt factId)
      (Table.amend (·.factId = factId) (Fact.scrub erasedAt) l.facts) = .ok citing) ↔
      ∀ g ∈ Table.amend (·.factId = factId) (Fact.scrub erasedAt) l.facts, ∃ wanted, g.cites rt factId = .ok wanted := by
    constructor
    · rintro ⟨_, read⟩
      exact (keepSource read).2
    · exact fun each => ⟨_, keepTotal each⟩
  rw [kept, total]
  constructor
  · intro each f hf other insight active
    have same : (if decide (f.factId = factId) = true then f.scrub erasedAt else f) = f :=
      if_neg (by simpa using other)
    exact citesReads.mp (same ▸ each _ (Table.memAmend.mpr ⟨f, hf, rfl⟩)) insight active
  · intro reads g hg
    obtain ⟨f, hf, rfl⟩ := Table.memAmend.mp hg
    split
    · -- the scrubbed fact is invalid
      refine citesReads.mpr fun _ active => ?_
      simp [Fact.scrub] at active
    · rename_i other
      exact citesReads.mpr (reads f hf (by simpa using other))

/-- An erasure of a stored fact goes through just where the citations of all other active insights can be
read. -/
theorem erasureUnblocked (positive : factId ≠ 0) (stored : ∃ f ∈ s.facts, f.factId = factId)
    (named : Text.strip requestedBy ≠ "") (stated : Text.strip reason ≠ "") :
    (∃ t report, eraseFact rt s factId requestedBy reason erasedAt = .ok (t, report)) ↔
      ∀ f ∈ s.facts, f.factId ≠ factId → f.category = "insight" → f.invalidAt = none →
        CitationReads rt f.tags := by
  obtain ⟨original, found⟩ : ∃ original, s.fact factId = some original := by
    cases found : s.fact factId with
    | some original => exact ⟨original, rfl⟩
    | none =>
      obtain ⟨f, hf, id⟩ := stored
      exact absurd id (Table.findNone.mp found f hf)
  rw [← eraseLedgerReads (Text.strip requestedBy) erasedAt]
  constructor
  · rintro ⟨t, report, done⟩
    simp only [eraseFact, bindOk, ensureOk, found, Prod.exists] at done
    obtain ⟨-, -, -, -, l, insights, conflicts, erased, -⟩ := done
    rw [cloneSharedSource.1] at erased
    exact ⟨_, erased⟩
  · rintro ⟨⟨l, insights, conflicts⟩, erased⟩
    unfold eraseFact
    dsimp only
    rw [(ensureOk (u := ())).mpr (decide_eq_true positive), okBind,
      (ensureOk (u := ())).mpr (by simp [named, stated]), okBind, found]
    dsimp only
    rw [cloneSharedSource.1, erased, okBind]
    exact ⟨_, _, rfl⟩

end Erasure

namespace Example

def sourceless : TimedWrite .plain where
  clock := .at "2026-01-03"
  item := {
    request := { WriteRequest.plain "k2" "felines rest" "user" with
      category := "insight"
      tags := "source_facts:" }
    candidate := none
    requestBuilt := by decide +kernel
    candidateBuilt := WriteItem.unslotted }

theorem erasureBlocked :
    eraseFact .plain (history [.write trusted caller sourceless, .write trusted caller lima]) 2 "avery"
      "remove bad source" "2026-01-04" = .error ⟨.indexError, "list index out of range"⟩ :=
  errorOfFailure (by decide +kernel)

theorem erasureUnblockedHere : ∃ t report, eraseFact .plain
    (history [.write trusted caller lima, .write trusted caller drawn]) 1 "avery" "remove bad source"
      "2026-01-04" = .ok (t, report) := by
  refine (erasureUnblocked (by decide) (by decide +kernel) (by decide +kernel) (by decide +kernel)).mpr ?_
  intro f hf other _ _
  have cites : ∀ f ∈ (history [.write trusted caller lima, .write trusted caller drawn]).facts,
      f.factId ≠ 1 → f.tags = "source_facts:1" := by
    decide +kernel
  rw [cites f hf other]
  exact citationReads.mp ⟨[1], okOfOption (by decide +kernel)⟩

end Example
end Enfold
