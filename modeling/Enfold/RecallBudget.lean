import Enfold.RecallProjection
import Enfold.SlotVocabulary

/-! Recall answers within their budget. Facts are cut from the end and receipts only where no fact is
left, and a cut is flagged; what is left answers for all there was unless it is nothing. -/
namespace Enfold

open Fallible Fitting

variable {floats : FloatText} {budget : Nat}

def AdmittedBudget (budget : Nat) : Prop := minTokenBudget ≤ budget ∧ budget ≤ maxTokenBudget

instance : Decidable (AdmittedBudget budget) := inferInstanceAs (Decidable (_ ∧ _))

-- a conflict's `uuid4` text and its slot's keys
structure RecallReceipt.Keyed (receipt : RecallReceipt) : Prop where
  id : ∃ text : String, receipt.id = .str text ∧ text.toList.length = 36 ∧
    ∀ c ∈ text.toList, plainChar c = true
  subject : ∃ key : String, receipt.subject = .str key ∧ isSubjectKey key.toList = true
  predicate : ∃ key : String, receipt.predicate = .str key ∧ isPredicateKey key.toList = true

/-! ## Sizes -/

theorem wordPlain {c : Char} (h : Text.isWordChar c = true) : plainChar c = true := by
  simp only [Text.isWordChar, Text.isLowerAscii, Text.isDigitAscii, Bool.or_eq_true, Bool.and_eq_true,
    decide_eq_true_eq, Char.le_def, UInt32.le_iff_toNat_le] at h
  have value : c.toNat = c.val.toNat := rfl
  have bounds : (97 ≤ c.toNat ∧ c.toNat ≤ 122) ∨ (48 ≤ c.toNat ∧ c.toNat ≤ 57) := by
    rw [value]
    exact h
  have apart : ∀ d : Char, d.toNat = 34 ∨ d.toNat = 92 → c ≠ d := by
    rintro d mark rfl
    omega
  simp only [plainChar, Bool.and_eq_true, decide_eq_true_eq, bne_iff_ne, ne_eq]
  exact ⟨⟨⟨by omega, by omega⟩, apart _ (.inl rfl)⟩, apart _ (.inr rfl)⟩

theorem subjectPlain {text : List Char} (h : isSubjectKey text = true) : ∀ c ∈ text, plainChar c = true := by
  intro c inside
  have letter := subjectKeyChars h c inside
  simp only [isSubjectChar, Bool.or_eq_true, decide_eq_true_eq] at letter
  rcases letter with ((((word | rfl) | rfl) | rfl) | rfl) | rfl
  · exact wordPlain word
  all_goals decide

theorem predicatePlain {text : List Char} (h : isPredicateKey text = true) : ∀ c ∈ text, plainChar c = true := by
  unfold isPredicateKey at h
  intro c inside
  have letter := Text.shapedAll (fun c word => by simp [word]) h c inside
  simp only [Bool.or_eq_true, decide_eq_true_eq] at letter
  rcases letter with ((word | rfl) | rfl) | rfl
  · exact wordPlain word
  all_goals decide

theorem shapedShort {first rest : Char → Bool} {limit : Nat} {text : List Char}
    (h : Text.shaped first rest limit text = true) : text.length ≤ limit := by
  cases text with
  | nil => exact Nat.zero_le limit
  | cons c cs =>
    simp only [Text.shaped, Bool.and_eq_true, decide_eq_true_eq] at h
    exact h.2

theorem plainStr {w : CharWeight} {text : String} (plain : ∀ c ∈ text.toList, plainChar c = true) :
    (Json.str text).size floats w = text.toList.length + 2 := plainWidth plain

variable (floats) in
theorem strippedSize {receipt : RecallReceipt} (keyed : receipt.Keyed) :
    ({ receipt with memberFactIds := none, summary := none } : RecallReceipt).json.size floats .characters ≤ 265 := by
  obtain ⟨⟨id, named, short, plain⟩, ⟨subject, subjected, subjectKey⟩, ⟨predicate, predicated, predicateKey⟩⟩ := keyed
  have subjectShort : subject.toList.length ≤ 128 := shapedShort subjectKey
  have predicateShort : predicate.toList.length ≤ 64 := shapedShort predicateKey
  simp (disch := decide) only [RecallReceipt.json, named, subjected, predicated, sizeObj, Option.map_none,
    Option.toList_none, List.append_nil, List.map_cons, List.map_nil, List.sum_cons, List.sum_nil, plainKey]
  rw [plainStr plain, plainStr (subjectPlain subjectKey), plainStr (predicatePlain predicateKey)]
  simp only [String.reduceToList, List.length_cons, List.length_nil]
  omega

namespace RecallPayload
variable {p q : RecallPayload}

theorem jsonSize (p : RecallPayload) : p.json.size floats .characters =
    42 + (Json.bool p.truncated).size floats .characters +
      (Json.arr (p.facts.map RecallFact.json)).size floats .characters +
      (if p.openConflicts = [] then 0
        else 18 + (Json.arr (p.openConflicts.map RecallReceipt.json)).size floats .characters) := by
  rw [json, sizeObj, List.map_append, List.sum_append]
  simp (disch := decide) only [List.map_cons, List.map_nil, List.sum_cons, List.sum_nil, plainKey, sizeNull,
    String.reduceToList, List.length_cons, List.length_nil]
  split
  · simp only [List.map_nil, List.sum_nil]
    omega
  · simp (disch := decide) only [List.map_cons, List.map_nil, List.sum_cons, List.sum_nil, plainKey,
      String.reduceToList, List.length_cons, List.length_nil]
    omega

theorem exceedsIff : p.exceeds floats budget = false ↔ p.json.size floats .characters ≤ 4 * budget := by
  rw [exceeds, decide_eq_false_iff_not, Nat.not_lt, estimateWithin]

theorem raisedSize : ({ p with truncated := true } : RecallPayload).json.size floats .characters ≤
    p.json.size floats .characters := by
  rw [jsonSize, jsonSize, sizeTrue]
  dsimp only
  cases p.truncated with
  | true => rw [sizeTrue]
  | false =>
    rw [sizeFalse]
    omega

theorem raisedFits (fits : p.exceeds floats budget = false) (raised : Bool) :
    ({ p with truncated := p.truncated || raised } : RecallPayload).exceeds floats budget = false := by
  cases raised with
  | false => rwa [Bool.or_false]
  | true =>
    rw [Bool.or_true, exceedsIff]
    exact raisedSize.trans (exceedsIff.mp fits)

-- fewer facts are no longer
theorem fewerFacts {facts : List RecallFact} (fewer : facts <+: p.facts) :
    ({ p with facts := facts } : RecallPayload).json.size floats .characters ≤ p.json.size floats .characters := by
  have grows : (Json.arr (facts.map RecallFact.json)).size floats .characters ≤
      (Json.arr (p.facts.map RecallFact.json)).size floats .characters := sizeGrows (fewer.map RecallFact.json)
  rw [jsonSize, jsonSize]
  dsimp only
  omega

theorem noFactFits {first : RecallFact} {rest : List RecallFact} (shape : p.facts = first :: rest) :
    fitItems (fun facts => !({ p with facts := facts } : RecallPayload).exceeds floats budget) p.facts = [] ↔
      ({ p with facts := [first] } : RecallPayload).exceeds floats budget = true := by
  have shorter : ∀ more : List RecallFact,
      (!({ p with facts := first :: more } : RecallPayload).exceeds floats budget) = true →
      (!({ p with facts := [first] } : RecallPayload).exceeds floats budget) = true := by
    intro more fits
    rw [Bool.not_eq_true', exceedsIff] at fits ⊢
    have fewer : [first] <+: ({ p with facts := first :: more } : RecallPayload).facts := ⟨more, rfl⟩
    exact (fewerFacts fewer).trans fits
  rw [shape, fitEmpty _ shorter, Bool.not_eq_false']

theorem bareFits (admitted : AdmittedBudget budget) (noFacts : p.facts = []) (noConflicts : p.openConflicts = []) :
    p.exceeds floats budget = false := by
  have least : 128 ≤ budget := admitted.1
  rw [exceedsIff, jsonSize, noFacts, noConflicts, if_pos rfl, List.map_nil, sizeArr]
  cases p.truncated with
  | true =>
    rw [sizeTrue, List.map_nil, List.sum_nil]
    omega
  | false =>
    rw [sizeFalse, List.map_nil, List.sum_nil]
    omega

theorem strippedFits (admitted : AdmittedBudget budget) (noFacts : p.facts = []) {receipt : RecallReceipt}
    (keyed : receipt.Keyed) (only : p.openConflicts = [{ receipt with memberFactIds := none, summary := none }]) :
    p.exceeds floats budget = false := by
  have least : 128 ≤ budget := admitted.1
  have small := strippedSize floats keyed
  rw [exceedsIff, jsonSize, noFacts, only, if_neg (List.cons_ne_nil _ _), List.map_nil, sizeArr, sizeArr]
  simp only [List.map_cons, List.map_nil, List.sum_cons, List.sum_nil]
  cases p.truncated with
  | true =>
    rw [sizeTrue]
    omega
  | false =>
    rw [sizeFalse]
    omega

/-! ## What is cut -/

structure Reduced (p q : RecallPayload) : Prop where
  facts : q.facts = p.facts
  kept : q.openConflicts = [] ↔ p.openConflicts = []
  flagged : q = p ∨ q.truncated = true

theorem Reduced.refl : p.Reduced p := ⟨rfl, Iff.rfl, .inl rfl⟩

theorem Reduced.trans {r : RecallPayload} (first : p.Reduced q) (second : q.Reduced r) : p.Reduced r where
  facts := second.facts.trans first.facts
  kept := second.kept.trans first.kept
  flagged := by
    rcases second.flagged with rfl | raised
    · exact first.flagged
    · exact .inr raised

theorem dropReduced (several : 1 < p.openConflicts.length) : p.Reduced p.dropReceipt where
  facts := rfl
  kept := by
    have left : p.openConflicts.dropLast.length = p.openConflicts.length - 1 := List.length_dropLast
    rw [dropReceipt, ← List.length_eq_zero_iff, ← List.length_eq_zero_iff, left]
    omega
  flagged := .inr rfl

theorem amendReduced {amend : RecallReceipt → RecallReceipt} : p.Reduced (p.amendFirst amend) := by
  rw [amendFirst]
  split
  · exact .refl
  · rename_i receipt rest shape
    exact ⟨rfl, by rw [shape]; simp, .inr rfl⟩

theorem amendOnly {amend : RecallReceipt → RecallReceipt} {receipt : RecallReceipt}
    (only : p.openConflicts = [receipt]) : (p.amendFirst amend).openConflicts = [amend receipt] := by
  simp only [amendFirst, only]

variable (p floats budget) in
theorem dropReceiptsSource {n : Nat} (enough : p.openConflicts.length ≤ n) :
    p.Reduced (p.dropReceipts floats budget n) ∧
      (p.dropReceipts floats budget n).openConflicts <+: p.openConflicts ∧
      ((p.dropReceipts floats budget n).exceeds floats budget = false ∨
        (p.dropReceipts floats budget n).openConflicts.length ≤ 1) := by
  induction n generalizing p with
  | zero => exact ⟨.refl, List.prefix_rfl, .inr (enough.trans (Nat.zero_le 1))⟩
  | succ n ih =>
    rw [dropReceipts]
    split
    · rename_i cut
      have several : 1 < p.openConflicts.length := of_decide_eq_true (Bool.and_eq_true_iff.mp cut).1
      have shorter : p.dropReceipt.openConflicts.length ≤ n := by
        rw [dropReceipt, List.length_dropLast]
        omega
      obtain ⟨reduced, inside, done⟩ := ih p.dropReceipt shorter
      exact ⟨(dropReduced several).trans reduced, inside.trans (List.dropLast_prefix _), done⟩
    · rename_i kept
      refine ⟨.refl, List.prefix_rfl, ?_⟩
      simp only [Bool.and_eq_true, decide_eq_true_eq, not_and, Bool.not_eq_true] at kept
      by_cases several : 1 < p.openConflicts.length
      · exact .inl (kept several)
      · exact .inr (Nat.not_lt.mp several)

theorem dropReceiptsFitting {n : Nat} (fits : p.exceeds floats budget = false) :
    p.dropReceipts floats budget n = p := by
  cases n with
  | zero => rfl
  | succ n => rw [dropReceipts, fits, Bool.and_false, if_neg Bool.false_ne_true]

theorem trimReduced : p.Reduced (p.trimReceipt floats budget) := by
  have step : ∀ (amend : RecallReceipt → RecallReceipt) (p : RecallPayload),
      p.Reduced (if p.exceeds floats budget then p.amendFirst amend else p) := by
    intro amend p
    split
    · exact amendReduced
    · exact .refl
  exact (step _ p).trans (step _ _)

theorem trimFits (admitted : AdmittedBudget budget) (noFacts : p.facts = []) {receipt : RecallReceipt}
    (keyed : receipt.Keyed) (only : p.openConflicts = [receipt]) :
    (p.trimReceipt floats budget).exceeds floats budget = false := by
  rw [trimReceipt]
  cases long : p.exceeds floats budget with
  | false => rw [if_neg Bool.false_ne_true, long, if_neg Bool.false_ne_true, long]
  | true =>
    rw [if_pos rfl]
    split
    · refine strippedFits admitted ?_ keyed (amendOnly (amendOnly only))
      rw [amendReduced.facts, amendReduced.facts, noFacts]
    · rename_i fits
      exact Bool.eq_false_iff.mpr fits

theorem trimFitting (fits : p.exceeds floats budget = false) : p.trimReceipt floats budget = p := by
  rw [trimReceipt]
  rw [fits, if_neg Bool.false_ne_true, fits, if_neg Bool.false_ne_true]

/-! ## The fitted payload -/

structure Fitted (floats : FloatText) (budget : Nat) (p q : RecallPayload) : Prop where
  facts : q.facts = fitItems (fun facts => !({ p with facts := facts } : RecallPayload).exceeds floats budget) p.facts
  kept : q.openConflicts = [] ↔ p.openConflicts = []
  flagged : (q.facts = p.facts ∧ q.openConflicts = p.openConflicts) ∨ q.truncated = true
  within : q.exceeds floats budget = false

theorem fitFactsFlagged :
    (p.fitFacts floats budget).facts = p.facts ∨ (p.fitFacts floats budget).truncated = true := by
  by_cases whole : (p.fitFacts floats budget).facts.length = p.facts.length
  · exact .inl ((fitPrefix _ _).eq_of_length whole)
  · have cut : ((p.fitFacts floats budget).facts.length != p.facts.length) = true := by simpa using whole
    refine .inr ?_
    change (p.truncated || (p.fitFacts floats budget).facts.length != p.facts.length) = true
    rw [cut, Bool.or_true]

theorem fitFactsWithin :
    (p.fitFacts floats budget).facts = [] ∨ (p.fitFacts floats budget).exceeds floats budget = false := by
  rcases fitFits (fun facts => !({ p with facts := facts } : RecallPayload).exceeds floats budget) p.facts with
    none | fits
  · exact .inl none
  · exact .inr (raisedFits ((Bool.not_eq_true' _).mp fits) _)

theorem fittedSource (admitted : AdmittedBudget budget) (keyed : ∀ receipt ∈ p.openConflicts, receipt.Keyed) :
    p.Fitted floats budget (p.fitted floats budget) := by
  rw [fitted]
  generalize shape : p.fitFacts floats budget = f
  have facts : f.facts = (p.fitFacts floats budget).facts := by rw [shape]
  have conflicts : f.openConflicts = p.openConflicts := by
    rw [← shape]
    rfl
  have flagged : f.facts = p.facts ∨ f.truncated = true := shape ▸ fitFactsFlagged
  cases fits : f.exceeds floats budget with
  | false =>
    rw [dropReceiptsFitting fits, trimFitting fits]
    exact ⟨facts, by rw [conflicts], flagged.imp_left (⟨·, conflicts⟩), fits⟩
  | true =>
    have noFacts : f.facts = [] := by
      rcases (shape ▸ fitFactsWithin : f.facts = [] ∨ f.exceeds floats budget = false) with none | within
      · exact none
      · rw [fits] at within
        cases within
    have someConflicts : f.openConflicts ≠ [] := by
      intro none
      rw [bareFits admitted noFacts none] at fits
      cases fits
    obtain ⟨dropped, inside, done⟩ :=
      f.dropReceiptsSource floats budget (Nat.le_refl f.openConflicts.length)
    generalize f.dropReceipts floats budget f.openConflicts.length = d at dropped inside done ⊢
    have reduced : f.Reduced (d.trimReceipt floats budget) := dropped.trans trimReduced
    refine ⟨reduced.facts.trans facts, by rw [reduced.kept, conflicts], ?_, ?_⟩
    · rcases reduced.flagged with same | raised
      · rw [same]
        exact flagged.imp_left (⟨·, conflicts⟩)
      · exact .inr raised
    · rcases done with within | few
      · rwa [trimFitting within]
      · have some' : d.openConflicts ≠ [] := fun none => someConflicts (dropped.kept.mp none)
        obtain ⟨receipt, only⟩ : ∃ receipt, d.openConflicts = [receipt] :=
          List.length_eq_one_iff.mp (Nat.le_antisymm few (List.length_pos_iff.mpr some'))
        refine trimFits admitted (dropped.facts.trans noFacts) (keyed receipt ?_) only
        rw [← conflicts]
        exact inside.subset (by rw [only]; exact List.mem_cons_self)

end RecallPayload

/-! ## The answer -/

/-- The answer as it speaks for all there was: its facts in order, every cut flagged, within the budget,
and nothing found only where there was nothing. -/
structure RecallAnswer.Honest (floats : FloatText) (budget : Nat) (facts : List RecallFact)
    (receipts : List RecallReceipt) (answer : RecallAnswer) : Prop where
  inOrder : answer.facts <+: facts
  flagged : answer.facts ≠ facts ∨ answer.openConflicts ≠ receipts → answer.truncated = true
  within : estimateJsonTokens floats answer.json ≤ budget
  seen : ∀ truncated, answer = .empty truncated → facts = [] ∧ receipts = []

theorem emptyWithin (admitted : AdmittedBudget budget) (truncated : Bool) :
    estimateJsonTokens floats (RecallAnswer.empty truncated).json ≤ budget := by
  have least : 128 ≤ budget := admitted.1
  have plain : emptyRecallMessage.toList.all plainChar = true := by decide +kernel
  have short : emptyRecallMessage.toList.length ≤ 200 := by decide +kernel
  have message : (Json.str emptyRecallMessage).size floats .characters ≤ 202 := by
    rw [plainStr (List.all_eq_true.mp plain)]
    omega
  rw [estimateWithin, RecallAnswer.json, sizeObj]
  simp (disch := decide) only [List.map_cons, List.map_nil, List.sum_cons, List.sum_nil, plainKey, sizeArr,
    String.reduceToList, List.length_cons, List.length_nil]
  cases truncated with
  | true =>
    rw [sizeTrue]
    omega
  | false =>
    rw [sizeFalse]
    omega

/-- Facts of an answer are never hidden behind nothing found, unless no conflict is open and the first of
them alone is over the budget. -/
theorem recallHonest {readInteger : String → Option Int} {result : Json} {facts : List RecallFact}
    {receipts : List RecallReceipt} (admitted : AdmittedBudget budget)
    (eligible : recallFacts readInteger result = .ok facts) (conflicts : recallReceipts result = .ok receipts)
    (keyed : ∀ receipt ∈ receipts, receipt.Keyed) :
    ∃ answer, projectRecall floats readInteger result budget = .ok answer ∧
      (answer.Honest floats budget facts receipts ↔ receipts ≠ [] ∨ ∀ first ∈ facts.head?,
        (⟨[first], (result.member "output_truncated").truthy, []⟩ : RecallPayload).exceeds floats budget = false) := by
  rw [projectRecall, eligible, conflicts]
  simp only [okBind]
  generalize (result.member "output_truncated").truthy = truncated
  by_cases nothing : facts = [] ∧ receipts = []
  · obtain ⟨rfl, rfl⟩ := nothing
    refine ⟨.empty truncated, rfl, fun _ => .inr nofun, fun _ => ?_⟩
    exact ⟨List.prefix_rfl, fun cut => by simp [RecallAnswer.facts, RecallAnswer.openConflicts] at cut,
      emptyWithin admitted truncated, fun _ _ => ⟨rfl, rfl⟩⟩
  rw [if_neg (by simpa using nothing)]
  have fitted : RecallPayload.Fitted floats budget ⟨facts, truncated, receipts⟩ _ :=
    RecallPayload.fittedSource admitted keyed
  generalize RecallPayload.fitted floats budget ⟨facts, truncated, receipts⟩ = q at fitted ⊢
  have honest : (RecallAnswer.found q).Honest floats budget facts receipts := by
    refine ⟨?_, fun cut => ?_, of_decide_eq_false fitted.within |> Nat.not_lt.mp, nofun⟩
    · rw [RecallAnswer.facts, fitted.facts]
      exact fitPrefix _ _
    · rcases fitted.flagged with ⟨sameFacts, sameConflicts⟩ | raised
      · exact (cut.elim (absurd sameFacts) (absurd sameConflicts))
      · exact raised
  by_cases some' : receipts = []
  · subst some'
    cases facts with
    | nil => exact absurd ⟨rfl, rfl⟩ nothing
    | cons first rest =>
      have empty : q.facts = [] ↔ (⟨[first], truncated, []⟩ : RecallPayload).exceeds floats budget = true := by
        rw [fitted.facts]
        exact RecallPayload.noFactFits (p := ⟨first :: rest, truncated, []⟩) rfl
      have closed : q.openConflicts = [] := fitted.kept.mpr rfl
      by_cases none : q.facts = []
      · refine ⟨.empty true, by rw [if_pos (by simp [none, closed])], fun honest => ?_, fun fits => ?_⟩
        · exact absurd (honest.seen true rfl).1 (List.cons_ne_nil _ _)
        · rcases fits with open' | fits
          · exact absurd rfl open'
          · rw [empty, fits first rfl] at none
            cases none
      · refine ⟨.found q, by rw [if_neg (by simp [none])], fun _ => .inr ?_, fun _ => honest⟩
        rintro _ ⟨⟩
        exact Bool.eq_false_iff.mpr fun long => none (empty.mpr long)
  · have open' : q.openConflicts ≠ [] := fun none => some' (fitted.kept.mp none)
    exact ⟨.found q, by rw [if_neg (by simp [open'])], fun _ => .inl some', fun _ => honest⟩

namespace Example

def noFloats : FloatText := ⟨fun _ => false, fun _ => [], fun _ => none, undoubledShape, undoubledExact⟩

def recalledRow (text : String) : Json := .obj [("fact_id", .int 7), ("content", .str text)]

def recalledFact (text : String) : RecallFact := ⟨7, text, "unreviewed", .str "unknown", 0⟩

def doorReceipt : RecallReceipt where
  id := .str "0b8e0f5e-3a1f-4a8e-9d53-7f2f6f0c1b2a"
  subject := .str "user"
  predicate := .str "door.code"
  memberFactIds := some [3, 5]
  summary := some (.str "")

def doorFact : RecallFact := recalledFact "The door code changed."

def doorRecall (rows : List Json) (conflicts : List Json) : Json :=
  .obj [("facts", .arr (recalledRow "The door code changed." :: rows)), ("open_conflicts", .arr conflicts)]

def doorDispute : Json :=
  .obj [("conflict_id", doorReceipt.id), ("subject_key", doorReceipt.subject),
    ("predicate_key", doorReceipt.predicate), ("member_fact_ids", .arr [.int 3, .int 5])]

theorem doorKeyed : ∀ receipt ∈ [doorReceipt], receipt.Keyed := by
  intro receipt inside
  rw [List.mem_singleton.mp inside]
  exact ⟨⟨_, rfl, rfl, List.all_eq_true.mp (by decide)⟩, ⟨_, rfl, rfl⟩, ⟨_, rfl, rfl⟩⟩

def laterRows : List Json := List.replicate 5 (recalledRow "It did.")
def laterFacts (n : Nat) : List RecallFact := List.replicate n (recalledFact "It did.")

/-- With a conflict open, and without one where the last fact has no room: neither is nothing found. -/
theorem doorRecalled : AdmittedBudget 128 ∧
    (∃ answer, projectRecall noFloats (fun _ => none) (doorRecall [] [doorDispute]) 128 = .ok answer ∧
      answer.Honest noFloats 128 [doorFact] [doorReceipt]) ∧
    projectRecall noFloats (fun _ => none) (doorRecall laterRows []) 128 =
      .ok (.found ⟨doorFact :: laterFacts 4, true, []⟩) ∧
    (RecallAnswer.found ⟨doorFact :: laterFacts 4, true, []⟩).Honest noFloats 128 (doorFact :: laterFacts 5) [] := by
  have admitted : AdmittedBudget 128 := by decide
  have beside : ∃ answer, projectRecall noFloats (fun _ => none) (doorRecall [] [doorDispute]) 128 = .ok answer ∧
      (answer.Honest noFloats 128 [doorFact] [doorReceipt] ↔ [doorReceipt] ≠ [] ∨ ∀ first ∈ [doorFact].head?,
        (⟨[first], false, []⟩ : RecallPayload).exceeds noFloats 128 = false) :=
    recallHonest admitted rfl rfl doorKeyed
  have alone : ∃ answer, projectRecall noFloats (fun _ => none) (doorRecall laterRows []) 128 =
      .ok answer ∧ (answer.Honest noFloats 128 (doorFact :: laterFacts 5) [] ↔
        ([] : List RecallReceipt) ≠ [] ∨ ∀ first ∈ (doorFact :: laterFacts 5).head?,
          (⟨[first], false, []⟩ : RecallPayload).exceeds noFloats 128 = false) :=
    recallHonest admitted (okOfOption (by decide +kernel)) rfl nofun
  obtain ⟨disputed, answered, honest⟩ := beside
  obtain ⟨cut, answered', honest'⟩ := alone
  have ran : projectRecall noFloats (fun _ => none) (doorRecall laterRows []) 128 =
      .ok (.found ⟨doorFact :: laterFacts 4, true, []⟩) := okOfOption (by decide +kernel)
  obtain rfl := Except.ok.inj (ran.symm.trans answered')
  have fits : (⟨[doorFact], false, []⟩ : RecallPayload).exceeds noFloats 128 = false := by decide +kernel
  refine ⟨admitted, ⟨disputed, answered, honest.mpr (.inl (List.cons_ne_nil _ _))⟩, ran,
    honest'.mpr (.inr fun first shown => ?_)⟩
  obtain rfl := Option.some.inj shown
  exact fits

def longText : String := String.ofList (List.replicate 500 'a')

theorem longLetters : longText.toList = List.replicate 500 'a' := String.toList_ofList

theorem longPlain : ∀ c ∈ longText.toList, plainChar c = true := by
  rw [longLetters]
  intro c inside
  rw [List.eq_of_mem_replicate inside]
  decide

theorem longLength : longText.toList.length = 500 := by
  rw [longLetters]
  exact List.length_replicate

section Sole
variable {text : String}

def soleRecall (text : String) : Json := .obj [("facts", .arr [recalledRow text])]

theorem recalledProjects (some' : text ≠ "") :
    projectRecallFact (fun _ => none) (recalledRow text) = .ok (some (recalledFact text)) := by
  have content : ((recalledRow text).member "content").either ((recalledRow text).member "text") = .str text :=
    if_pos (bne_iff_ne.mpr some')
  have shown : ((recalledRow text).member "content_omitted").truthy = false := rfl
  have admissible : (recalledRow text).get "prompt_eligible" = none := rfl
  have undisputed : ((recalledRow text).member "conflict_group").truthy = false := rfl
  rw [projectRecallFact, content, shown, admissible, undisputed]
  exact if_neg some'

theorem soleFacts (some' : text ≠ "") :
    recallFacts (fun _ => none) (soleRecall text) = .ok [recalledFact text] := by
  have rows : [recalledRow text].mapM (projectRecallFact fun _ => none) = .ok [some (recalledFact text)] := by
    rw [List.mapM_cons, recalledProjects some']
    rfl
  have listed : ((soleRecall text).member "facts").mappings = .ok [recalledRow text] := rfl
  rw [recallFacts, listed, okBind, rows]
  rfl

theorem soleExceeds (plain : ∀ c ∈ text.toList, plainChar c = true) (long : 500 ≤ text.toList.length) :
    (⟨[recalledFact text], false, []⟩ : RecallPayload).exceeds noFloats 128 = true := by
  rw [RecallPayload.exceeds, decide_eq_true_iff, ← Nat.not_le, estimateWithin, RecallPayload.json, sizeObj]
  simp (disch := decide) only [if_true, List.append_nil, List.map_cons, List.map_nil, List.sum_cons, List.sum_nil,
    plainKey, sizeArr, sizeObj, RecallFact.json, recalledFact, plainStr plain, String.reduceToList, List.length_cons,
    List.length_nil]
  omega

theorem soleHidden (some' : text ≠ "")
    (long : (⟨[recalledFact text], false, []⟩ : RecallPayload).exceeds noFloats 128 = true) :
    projectRecall noFloats (fun _ => none) (soleRecall text) 128 = .ok (.empty true) := by
  have fitted : RecallPayload.Fitted noFloats 128 ⟨[recalledFact text], false, []⟩ _ :=
    RecallPayload.fittedSource (by decide) nofun
  have hidden := fitted.facts.trans ((RecallPayload.noFactFits rfl).mpr long)
  have closed := fitted.kept.mpr rfl
  rw [projectRecall, soleFacts some', okBind]
  exact if_pos (Bool.and_eq_true_iff.mpr ⟨decide_eq_true hidden, decide_eq_true closed⟩)

end Sole

-- one fact too long for the budget, and nothing is said to be found
theorem longFactHidden : AdmittedBudget 128 ∧
    ∃ result answer, recallFacts (fun _ => none) result = .ok [recalledFact longText] ∧
      recallReceipts result = .ok [] ∧ projectRecall noFloats (fun _ => none) result 128 = .ok answer ∧
      ¬ answer.Honest noFloats 128 [recalledFact longText] [] := by
  have some' : longText ≠ "" := by
    intro none
    have letters := longLetters
    rw [none] at letters
    cases letters
  refine ⟨by decide, soleRecall longText, .empty true, soleFacts some', rfl,
    soleHidden some' (soleExceeds longPlain longLength.ge), fun honest => ?_⟩
  exact absurd (honest.seen true rfl).1 (List.cons_ne_nil _ _)

end Example
end Enfold
