import Enfold.ServiceResponses

/-! Evidence and history stop taking rows in time. Search drops its facts and its metadata but no
receipt, so it is within its cap where the receipts alone are. -/
namespace Enfold.ReadResponses

open Fallible Fitting

variable {floats : FloatText} {bounds : OutputBounds} {rows taken : List JsonObject} {truncated : Bool}

/-! ## Sizes -/

section Sizes
variable {w : CharWeight}

def boolSize (flag : Bool) : Nat := if flag then 4 else 5

theorem boolSized (flag : Bool) : (Json.bool flag).size floats w = boolSize flag := by
  cases flag with
  | true => exact sizeTrue floats w
  | false => exact sizeFalse floats w

theorem boolShrinks {flag flag' : Bool} (raised : flag = true → flag' = true) : boolSize flag' ≤ boolSize flag := by
  cases flag with
  | true => rw [raised rfl]
  | false => cases flag' <;> decide

theorem boolMost (flag : Bool) : boolSize flag ≤ 5 := by cases flag <;> decide

theorem emptySize : (Json.arr []).size floats w = 2 := by rw [sizeArr]; rfl

theorem emptyObjSize : (Json.obj []).size floats w = 2 := by rw [sizeObj]; rfl

variable (floats w) in
theorem emptyLeast (items : List Json) : 2 ≤ (Json.arr items).size floats w := by
  rw [sizeArr]
  omega

variable (floats w) in
theorem emptyObjLeast (members : JsonObject) : 2 ≤ (Json.obj members).size floats w := by
  rw [sizeObj]
  omega

end Sizes

/-! ## Shortened texts -/

theorem uncutField {item item' : JsonObject} {field : String} {maximum : Nat}
    (uncut : truncateTextField item field maximum = (item', false)) : item' = item := by
  unfold truncateTextField at uncut
  split at uncut
  · split at uncut
    · cases uncut
      rfl
    · cases uncut
  · cases uncut
    rfl

theorem uncutContent {fact fact' : JsonObject} {maximum : Nat}
    (uncut : truncateFactContent fact maximum = (fact', false)) : fact' = fact := uncutField uncut

theorem uncutEvidence {item item' : JsonObject} {maximum : Nat}
    (uncut : truncateEvidence maximum item = (item', false)) : item' = item := by
  unfold truncateEvidence at uncut
  cases content : truncateTextField item "content" maximum with
  | mk first cut =>
    cases excerpt : truncateTextField first "evidence_excerpt" maximum with
    | mk second cut' =>
      simp only [content, excerpt, Prod.mk.injEq, Bool.or_eq_false_iff] at uncut
      obtain ⟨rfl, rfl, rfl⟩ := uncut
      rw [uncutField excerpt, uncutField content]

/-! ## Cursors -/

def rowsJson (rows : List JsonObject) : Json := .arr (rows.map Json.obj)

theorem rowsAppended (floats : FloatText) (taken : List JsonObject) (item : JsonObject) :
    (rowsJson (taken ++ [item])).size floats .bytes =
      (rowsJson taken).size floats .bytes + (Json.obj item).size floats .bytes + (if taken = [] then 0 else 1) := by
  rw [rowsJson, rowsJson, sizeArr, sizeArr]
  simp only [List.map_append, List.map_cons, List.map_nil, List.sum_append, List.sum_cons, List.sum_nil]
  cases taken with
  | nil =>
    simp only [List.map_nil, List.sum_nil, if_true]
    omega
  | cons first others =>
    simp only [List.map_cons, List.sum_cons, List.cons_ne_nil, if_false]
    omega

theorem takeRowsSource (rest : Nat) {cap room used : Nat} {cut : JsonObject → JsonObject × Bool}
    (uncut : ∀ row item, cut row = (item, false) → item = row)
    (counted : used = rest + (rowsJson taken).size floats .bytes) (within : used ≤ cap) :
    rest + (rowsJson (takeRows floats cap cut room used taken truncated rows).1).size floats .bytes ≤ cap ∧
      (truncated = true → (takeRows floats cap cut room used taken truncated rows).2 = true) ∧
      ((takeRows floats cap cut room used taken truncated rows).2 = true ∨
        rows.length ≤ room ∧ (takeRows floats cap cut room used taken truncated rows).1 = taken ++ rows) := by
  induction rows generalizing room used taken truncated with
  | nil =>
    rw [takeRows]
    exact ⟨counted ▸ within, id, .inr ⟨Nat.zero_le room, (List.append_nil taken).symm⟩⟩
  | cons row rows ih =>
    cases room with
    | zero =>
      rw [takeRows]
      exact ⟨counted ▸ within, fun _ => rfl, .inl rfl⟩
    | succ room =>
      rw [takeRows]
      cases made : cut row with
      | mk item shortened =>
        dsimp only
        by_cases exceeds : cap < used + ((Json.obj item).size floats .bytes + (if taken = [] then 0 else 1))
        · rw [if_pos exceeds]
          exact ⟨counted ▸ within, fun _ => rfl, .inl rfl⟩
        · rw [if_neg exceeds]
          have grown := rowsAppended floats taken item
          have counted' : used + ((Json.obj item).size floats .bytes + (if taken = [] then 0 else 1)) =
              rest + (rowsJson (taken ++ [item])).size floats .bytes := by
            rw [grown]
            omega
          obtain ⟨size, kept, flagged⟩ := @ih _ (truncated || shortened) room _ counted' (Nat.not_lt.mp exceeds)
          refine ⟨size, fun raised => kept (by rw [raised, Bool.true_or]), ?_⟩
          rcases flagged with raised | ⟨short, whole⟩
          · exact .inl raised
          · cases shortened with
            | true => exact .inl (kept (Bool.or_true truncated))
            | false =>
              refine .inr ⟨Nat.succ_le_succ short, ?_⟩
              rw [whole, uncut row item made, List.append_assoc, List.singleton_append]

/-! ## Evidence and history -/

theorem evidenceSize (r : EvidenceResponse) : r.json.size floats .bytes =
    41 + (Json.obj r.fact).size floats .bytes + (rowsJson r.evidence).size floats .bytes +
      boolSize r.outputTruncated := by
  rw [EvidenceResponse.json, sizeObj]
  simp (disch := decide) only [List.map_cons, List.map_nil, List.sum_cons, List.sum_nil, plainKey, boolSized,
    String.reduceToList, List.length_cons, List.length_nil, rowsJson]
  omega

theorem historySize (r : HistoryResponse) : r.json.size floats .bytes =
    30 + (rowsJson r.facts).size floats .bytes + boolSize r.outputTruncated := by
  rw [HistoryResponse.json, sizeObj]
  simp (disch := decide) only [List.map_cons, List.map_nil, List.sum_cons, List.sum_nil, plainKey, boolSized,
    String.reduceToList, List.length_cons, List.length_nil, rowsJson]
  omega

theorem cursorRows {limit : Nat} (short : (rows.take (limit + 1)).length ≤ limit) : rows.take (limit + 1) = rows := by
  refine List.take_of_length_le ?_
  rw [List.length_take] at short
  omega

structure EvidenceReads where
  factId : Nat
  fact : JsonObject
  rows : List JsonObject
  stored : factId < 2 ^ 63

theorem rowIdShort (floats : FloatText) {n : Nat} (stored : n < 2 ^ 63) : (Json.int n).size floats .bytes ≤ 19 := by
  have unsigned : ¬(n : Int) < 0 := by omega
  have few : (Nat.toDigits 10 n).length ≤ 19 := (Nat.length_toDigits_le_iff (by decide) (by decide)).mpr (by omega)
  have ascii : ∀ c ∈ Nat.toDigits 10 n, c.toNat < 128 := by
    intro c inside
    have digit := Nat.isDigit_of_mem_toDigits (by omega) (by omega) inside
    simp only [Char.isDigit, Bool.and_eq_true, decide_eq_true_eq, ge_iff_le, UInt32.le_iff_toNat_le] at digit
    have value : c.toNat = c.val.toNat := rfl
    have bounds : 48 ≤ c.val.toNat ∧ c.val.toNat ≤ 57 := digit
    omega
  rw [Json.size, print, intText, if_neg unsigned, List.nil_append, intDigits, Int.natAbs_natCast,
    CharWeight.widthAscii ascii]
  exact few

theorem evidenceHolds (limit : Nat) (reads : EvidenceReads) :
    let r := evidenceResponse floats bounds limit reads.factId reads.fact reads.rows
    r.json.size floats .bytes ≤ bounds.evidenceMaxTotalBytes ∧
      (r.fact ≠ reads.fact ∨ r.evidence ≠ reads.rows → r.outputTruncated = true) := by
  obtain ⟨least, -⟩ := bounds.bytes
  rw [evidenceResponse]
  cases cut : truncateFactContent reads.fact bounds.maxFactChars with
  | mk fact truncated =>
    dsimp only
    split
    · refine ⟨?_, fun _ => rfl⟩
      have short := rowIdShort floats reads.stored
      rw [evidenceSize, sizeObj, rowsJson, List.map_nil, emptySize]
      simp (disch := decide) only [List.map_cons, List.map_nil, List.sum_cons, List.sum_nil, plainKey, boolSized,
        String.reduceToList, List.length_cons, List.length_nil, boolSize, if_true]
      omega
    · rename_i fits
      have counted : (EvidenceResponse.json ⟨fact, [], truncated⟩).size floats .bytes =
          41 + (Json.obj fact).size floats .bytes + boolSize truncated + (rowsJson []).size floats .bytes := by
        rw [evidenceSize]
        dsimp only
        omega
      obtain ⟨size, kept, flagged⟩ := takeRowsSource (41 + (Json.obj fact).size floats .bytes + boolSize truncated)
        (fun _ _ => uncutEvidence) counted (Nat.not_lt.mp fits)
      generalize takeRows floats bounds.evidenceMaxTotalBytes (truncateEvidence bounds.maxFactChars) limit
        ((EvidenceResponse.json ⟨fact, [], truncated⟩).size floats .bytes) [] truncated
        (reads.rows.take (limit + 1)) = out at size kept flagged ⊢
      refine ⟨?_, fun dropped => ?_⟩
      · have smaller := boolShrinks kept
        rw [evidenceSize]
        dsimp only
        omega
      · rcases flagged with raised | ⟨short, whole⟩
        · exact raised
        · cases truncated with
          | true => exact kept rfl
          | false =>
            rcases dropped with changed | changed
            · exact absurd (uncutContent cut) changed
            · exact absurd (whole.trans (cursorRows short)) changed

theorem historyHolds (limit : Nat) (rows : List JsonObject) :
    let r := historyResponse floats bounds limit rows
    r.json.size floats .bytes ≤ bounds.historyMaxTotalBytes ∧ (r.facts ≠ rows → r.outputTruncated = true) := by
  obtain ⟨-, least, -⟩ := bounds.bytes
  rw [historyResponse]
  have counted : (HistoryResponse.json ⟨[], false⟩).size floats .bytes =
      35 + (rowsJson []).size floats .bytes := by
    rw [historySize, boolSize, if_neg Bool.false_ne_true]
    dsimp only
    omega
  have within : (HistoryResponse.json ⟨[], false⟩).size floats .bytes ≤ bounds.historyMaxTotalBytes := by
    rw [counted, rowsJson, List.map_nil, emptySize]
    omega
  obtain ⟨size, kept, flagged⟩ := takeRowsSource 35 (fun _ _ => uncutContent) counted within
  generalize takeRows floats bounds.historyMaxTotalBytes (truncateFactContent · bounds.maxFactChars) limit
    ((HistoryResponse.json ⟨[], false⟩).size floats .bytes) [] false (rows.take (limit + 1)) = out
    at size kept flagged ⊢
  refine ⟨?_, fun dropped => ?_⟩
  · have smaller := boolMost out.2
    rw [historySize]
    dsimp only
    omega
  · rcases flagged with raised | ⟨short, whole⟩
    · exact raised
    · exact absurd (whole.trans (cursorRows short)) dropped

/-! ## Search -/

theorem searchSize (r : SearchResponse) : r.json.size floats .characters =
    61 + (rowsJson r.facts).size floats .characters + (Json.obj r.retrieval).size floats .characters +
      boolSize r.outputTruncated + (Json.arr (r.openConflicts.map receiptAsDict)).size floats .characters := by
  rw [SearchResponse.json, sizeObj]
  simp (disch := decide) only [List.map_cons, List.map_nil, List.sum_cons, List.sum_nil, plainKey, boolSized,
    String.reduceToList, List.length_cons, List.length_nil, rowsJson]
  omega

theorem searchWithin {r : SearchResponse} :
    r.within floats bounds = true ↔ r.json.size floats .characters ≤ bounds.searchMaxTotalChars := decide_eq_true_iff

-- what no fact and no metadata leaves
def SearchResponse.bare (receipts : List ConflictReceipt) : SearchResponse := ⟨[], [], true, receipts⟩

variable (floats) in
theorem bareSmaller (r : SearchResponse) :
    (SearchResponse.bare r.openConflicts).json.size floats .characters ≤ r.json.size floats .characters := by
  have facts := emptyLeast floats .characters (r.facts.map Json.obj)
  have metadata := emptyObjLeast floats .characters r.retrieval
  have flag : boolSize true ≤ boolSize r.outputTruncated := by cases r.outputTruncated <;> decide
  rw [searchSize, searchSize, SearchResponse.bare, rowsJson, rowsJson, List.map_nil, emptySize, emptyObjSize]
  dsimp only
  omega

def searchWhole (bounds : OutputBounds) (limit : Nat) (reads : SearchReads) : SearchResponse :=
  ⟨(searchFacts bounds limit reads).1, reads.metadata, (searchFacts bounds limit reads).2, reads.receipts⟩

theorem searchUncut {limit : Nat} {reads : SearchReads} (uncut : (searchFacts bounds limit reads).2 = false) :
    (searchFacts bounds limit reads).1 = reads.rows ∧ limit ≤ bounds.searchMaxResults := by
  simp only [searchFacts, Bool.or_eq_false_iff, decide_eq_false_iff_not, Nat.not_lt] at uncut
  obtain ⟨⟨contents, wanted⟩, few⟩ := uncut
  have each : ∀ row ∈ reads.rows, (truncateFactContent row bounds.maxFactChars).1 = row := by
    intro row inside
    rw [List.take_of_length_le few] at contents
    have kept := List.any_eq_false.mp contents _ (List.mem_map_of_mem inside)
    exact uncutContent (Prod.ext rfl (Bool.not_eq_true _ ▸ kept))
  refine ⟨?_, by omega⟩
  rw [searchFacts, List.take_of_length_le few]
  dsimp only
  rw [List.map_map]
  exact (List.map_congr_left each).trans (List.map_id _)

structure SearchResponse.Holds (floats : FloatText) (bounds : OutputBounds) (reads : SearchReads)
    (r : SearchResponse) : Prop where
  within : r.json.size floats .characters ≤ bounds.searchMaxTotalChars
  flagged : r.facts ≠ reads.rows ∨ r.retrieval ≠ reads.metadata ∨ r.openConflicts ≠ reads.receipts →
    r.outputTruncated = true

def SearchRoom (floats : FloatText) (bounds : OutputBounds) (limit : Nat) (reads : SearchReads) : Prop :=
  (searchWhole bounds limit reads).within floats bounds = true ∨
    (reads.rows ≠ [] ∨ bounds.searchMaxResults < limit) ∧
      (SearchResponse.bare reads.receipts).within floats bounds = true

variable (floats bounds) in
theorem cutSame (r : SearchResponse) : (r.cutRetrieval floats bounds).facts = r.facts ∧
    (r.cutRetrieval floats bounds).outputTruncated = r.outputTruncated ∧
    (r.cutRetrieval floats bounds).openConflicts = r.openConflicts := by
  rw [SearchResponse.cutRetrieval]
  split
  · exact ⟨rfl, rfl, rfl⟩
  · split <;> exact ⟨rfl, rfl, rfl⟩

theorem cutFitting {r : SearchResponse} (fits : r.within floats bounds = true) : r.cutRetrieval floats bounds = r := by
  rw [SearchResponse.cutRetrieval, if_pos fits, if_pos fits]

theorem cutOver {r : SearchResponse} (exceeds : r.within floats bounds = false)
    (within : (r.cutRetrieval floats bounds).within floats bounds = true) :
    (r.cutRetrieval floats bounds).retrieval ≠ r.retrieval := by
  obtain ⟨facts, flag, receipts⟩ := cutSame floats bounds r
  intro same
  have again : r.cutRetrieval floats bounds = r := by
    cases r
    cases shape : SearchResponse.cutRetrieval floats bounds _
    simp_all
  rw [again, exceeds] at within
  cases within

theorem cutRoom {r : SearchResponse} (room : ({ r with retrieval := [] } : SearchResponse).within floats bounds = true) :
    (r.cutRetrieval floats bounds).within floats bounds = true := by
  rw [SearchResponse.cutRetrieval]
  split
  · assumption
  · split
    · assumption
    · exact room

variable (bounds) in
theorem factsEmpty {limit : Nat} (positive : 1 ≤ limit) (reads : SearchReads) :
    (searchFacts bounds limit reads).1 = [] ↔ reads.rows = [] := by
  have results := bounds.results.1
  have some' : ¬min limit bounds.searchMaxResults = 0 := by omega
  simp only [searchFacts, List.map_map, List.map_eq_nil_iff, List.take_eq_nil_iff, some', false_or]

theorem factsFlag {limit : Nat} {reads : SearchReads} (none : reads.rows = []) :
    (searchFacts bounds limit reads).2 = true ↔ bounds.searchMaxResults < limit := by
  simp only [searchFacts, none, List.take_nil, List.map_nil, List.any_nil, Bool.false_or, List.length_nil,
    Nat.not_lt_zero, decide_false, Bool.or_false, decide_eq_true_eq]
  omega

def searchFits (floats : FloatText) (bounds : OutputBounds) (reads : SearchReads) (truncated : Bool)
    (facts : List JsonObject) : Bool :=
  SearchResponse.within floats bounds ⟨facts, reads.metadata, truncated, reads.receipts⟩

theorem searchHolds {limit : Nat} (positive : 1 ≤ limit) (reads : SearchReads) :
    (searchResponse floats bounds limit reads).Holds floats bounds reads ↔ SearchRoom floats bounds limit reads := by
  have empty := factsEmpty bounds positive reads
  have flag : reads.rows = [] → ((searchFacts bounds limit reads).2 = true ↔ bounds.searchMaxResults < limit) :=
    factsFlag
  have uncut : (searchFacts bounds limit reads).2 = false →
      (searchFacts bounds limit reads).1 = reads.rows ∧ limit ≤ bounds.searchMaxResults := searchUncut
  have shape : searchResponse floats bounds limit reads = SearchResponse.cutRetrieval floats bounds
      ⟨(fitFlagged (searchFits floats bounds reads) (searchFacts bounds limit reads).2
          (searchFacts bounds limit reads).1.reverse).1, reads.metadata,
        (fitFlagged (searchFits floats bounds reads) (searchFacts bounds limit reads).2
          (searchFacts bounds limit reads).1.reverse).2, reads.receipts⟩ := rfl
  rw [shape, SearchRoom, searchWhole]
  clear shape
  generalize (searchFacts bounds limit reads).1 = facts at empty uncut ⊢
  generalize (searchFacts bounds limit reads).2 = flagged at flag uncut ⊢
  cases fits : searchFits floats bounds reads flagged facts with
  | true =>
    rw [fitFlaggedWhole fits, cutFitting fits]
    refine iff_of_true ⟨searchWithin.mp fits, fun dropped => ?_⟩ (.inl fits)
    cases flagged with
    | true => rfl
    | false =>
      have same : facts = reads.rows := (uncut rfl).1
      rcases dropped with changed | changed | changed
      · exact absurd same changed
      · exact absurd rfl changed
      · exact absurd rfl changed
  | false =>
    obtain ⟨inside, popped, fitted⟩ := fitFlaggedSource (searchFits floats bounds reads) flagged facts.reverse
    rw [List.reverse_reverse] at inside popped
    have nothing : facts = [] →
        fitFlagged (searchFits floats bounds reads) flagged facts.reverse = ([], flagged) := by
      rintro rfl
      rfl
    generalize fitFlagged (searchFits floats bounds reads) flagged facts.reverse = out at inside popped fitted nothing ⊢
    -- where there is no row, only the metadata can go
    have unmoved : reads.rows = [] → out = ([], flagged) := fun none => nothing (empty.mpr none)
    have whole : SearchResponse.within floats bounds ⟨facts, reads.metadata, flagged, reads.receipts⟩ = false := fits
    rw [whole, or_iff_right Bool.false_ne_true]
    cases here : SearchResponse.within floats bounds ⟨out.1, reads.metadata, out.2, reads.receipts⟩ with
    | true =>
      have apart : out ≠ (facts, flagged) := by
        rintro rfl
        rw [whole] at here
        cases here
      have raised : out.2 = true := popped.resolve_left apart
      have some' : reads.rows ≠ [] := fun none => apart (by rw [unmoved none, empty.mpr none])
      have within := searchWithin.mp here
      have smaller := bareSmaller floats ⟨out.1, reads.metadata, out.2, reads.receipts⟩
      rw [cutFitting here]
      exact iff_of_true ⟨within, fun _ => raised⟩ ⟨.inl some', searchWithin.mpr (smaller.trans within)⟩
    | false =>
      have exceeds : searchFits floats bounds reads out.2 out.1 = false := here
      have none : out.1 = [] := fitted.resolve_right (ne_true_of_eq_false exceeds)
      obtain ⟨-, flagSame, receiptsSame⟩ :=
        cutSame floats bounds ⟨out.1, reads.metadata, out.2, reads.receipts⟩
      constructor
      · intro holds
        have cut := cutOver here (searchWithin.mpr holds.within)
        have raised : out.2 = true := by
          rw [← holds.flagged (.inr (.inl cut)), flagSame]
        have smaller := bareSmaller floats
          (SearchResponse.cutRetrieval floats bounds ⟨out.1, reads.metadata, out.2, reads.receipts⟩)
        rw [receiptsSame] at smaller
        refine ⟨?_, searchWithin.mpr (smaller.trans holds.within)⟩
        by_cases noRows : reads.rows = []
        · rw [unmoved noRows] at raised
          exact .inr ((flag noRows).mp raised)
        · exact .inl noRows
      · rintro ⟨some', bare⟩
        have raised : out.2 = true := by
          by_cases noRows : reads.rows = []
          · rw [unmoved noRows]
            exact (flag noRows).mpr (some'.resolve_left (absurd noRows))
          · refine popped.resolve_left fun same => noRows (empty.mp ?_)
            rw [← none, same]
        refine ⟨searchWithin.mp (cutRoom ?_), fun _ => flagSame.trans raised⟩
        dsimp only
        rw [none, raised]
        exact bare

end Enfold.ReadResponses
