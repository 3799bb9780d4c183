import Enfold.InspectPaging

/-! Following the cursors of the paged tools. Each page is the longest that fits with its own cursor, so
a row is passed exactly when it fits alone. -/
namespace Enfold

open Fallible Fitting

variable {reader : CursorReader} {floats : FloatText} {budget offset : Nat} {rows items : List Json} {extra : Bool}

/-! ## Cursors -/

theorem digitsLength (n : Nat) : (intDigits n).length = (Nat.toDigits 10 n).length := by
  rw [intDigits, Int.natAbs_natCast]

theorem digitsGrow {m n : Nat} (le : m ≤ n) : (intDigits m).length ≤ (intDigits n).length := by
  rw [digitsLength, digitsLength, Nat.length_toDigits_le_iff (by decide) Nat.length_toDigits_pos]
  have within : n < 10 ^ (Nat.toDigits 10 n).length :=
    (Nat.length_toDigits_le_iff (by decide) Nat.length_toDigits_pos).mp (Nat.le_refl _)
  omega

-- the interpreter's lists are no longer than this
def maxListLength : Nat := 2 ^ 63 - 1

theorem digitsFew {n : Nat} (listed : n ≤ maxListLength) : (intDigits n).length ≤ 19 := by
  rw [digitsLength, Nat.length_toDigits_le_iff (by decide) (by decide)]
  have largest : maxListLength < 10 ^ 19 := by decide
  omega

theorem cursorText (n : Nat) : print floats (.obj [("o", .int n)]) =
    ['\x7b', '\x22', 'o', '\x22', ':'] ++ (intDigits n ++ ['\x7d']) := by
  have unsigned : ¬(n : Int) < 0 := by omega
  rw [print, print, printMembers, intText, if_neg unsigned]
  rfl

theorem cursorPlain (n : Nat) : ∀ c ∈ print floats (.obj [("o", .int n)]), 0 < c.toNat ∧ c.toNat < 128 := by
  intro c inside
  rw [cursorText, List.mem_append, List.mem_append] at inside
  rcases inside with inside | inside | inside
  · have shown : (['\x7b', '\x22', 'o', '\x22', ':'].all fun c => 0 < c.toNat && c.toNat < 128) = true := by decide
    simpa using List.all_eq_true.mp shown c inside
  · have digit := Nat.isDigit_of_mem_toDigits (by omega) (by omega) inside
    simp only [Char.isDigit, Bool.and_eq_true, decide_eq_true_eq, ge_iff_le, UInt32.le_iff_toNat_le] at digit
    have value : c.toNat = c.val.toNat := rfl
    have bounds : 48 ≤ c.val.toNat ∧ c.val.toNat ≤ 57 := digit
    omega
  · rw [List.mem_singleton.mp inside]
    decide

theorem cursorWord (n : Nat) : (encodeCursor floats n).toList =
    Base64.encode ((print floats (.obj [("o", .int n)])).map Char.toNat) := String.toList_ofList

theorem cursorDecoded (n : Nat) : Base64.decode (encodeCursor floats n).toList =
    some ((print floats (.obj [("o", .int n)])).map Char.toNat) := by
  rw [cursorWord]
  refine Base64.decodeEncode _ fun b inside => ?_
  obtain ⟨c, listed, rfl⟩ := List.mem_map.mp inside
  exact (cursorPlain n c listed).2.trans (by decide)

theorem textRead (n : Nat) : reader.text ((print floats (.obj [("o", .int n)])).map Char.toNat) =
    some (String.ofList (print floats (.obj [("o", .int n)]))) := by
  have ascii : (((print floats (.obj [("o", .int n)])).map Char.toNat).all fun b => 0 < b && b < 128) = true := by
    refine List.all_eq_true.mpr fun b inside => ?_
    obtain ⟨c, listed, rfl⟩ := List.mem_map.mp inside
    simpa using cursorPlain n c listed
  have back : (Char.ofNat ∘ Char.toNat) = id := funext Char.ofNat_toNat
  rw [CursorReader.text, if_pos ascii, List.map_map, back, List.map_id]

theorem cursorRead {n : Nat} (listed : n ≤ maxListLength) :
    decodeCursor reader floats (some (encodeCursor floats n)) = .ok n := by
  have ascii : ((encodeCursor floats n).toList.all fun c => c.toNat < 128) = true := by
    rw [cursorWord]
    exact List.all_eq_true.mpr (Base64.encodeAll (by decide +kernel) (by decide) _)
  have some' : encodeCursor floats n ≠ "" := by
    intro none
    have length := congrArg (List.length ∘ String.toList) none
    simp only [Function.comp_apply, cursorWord, Base64.encodeLength, List.length_map, cursorText,
      List.length_append, List.length_cons, String.reduceToList, List.length_nil] at length
    omega
  have plain : (Json.obj [("o", .int n)]).every (Json.plain floats) = true := by
    have short := (digitsFew listed).trans (by decide : 19 ≤ maxStrDigits)
    simp [Json.every, Json.everyMember, Json.plain, Json.native, Json.shortInt, short]
  have read : reader.loads floats (String.ofList (print floats (.obj [("o", .int n)]))) =
      some (.obj [("o", .int n)]) := by
    rw [CursorReader.loads, loadsPrint plain]
  have offset : readOffset (.obj [("o", .int n)]) = some n := by
    have natural : ¬(n : Int) < 0 := by omega
    simp only [readOffset, Json.get, List.lookup_cons, BEq.rfl, if_neg natural, Int.toNat_natCast]
  have found : readCursor reader floats (encodeCursor floats n) = some n := by
    simp only [readCursor, if_pos ascii, cursorDecoded, textRead, read, offset, Option.bind_eq_bind,
      Option.bind_some]
  rw [decodeCursor, if_neg some', found]

/-! ## Sizes -/

def cursorSize (n : Nat) : Nat := 2 + 4 * (((intDigits n).length + 8) / 3)

theorem cursorSized (n : Nat) : (Json.str (encodeCursor floats n)).size floats .characters = cursorSize n := by
  have plain : ∀ c ∈ (encodeCursor floats n).toList, plainChar c = true := by
    rw [cursorWord]
    exact Base64.encodeAll (by decide +kernel) (by decide) _
  rw [plainStr plain, cursorWord, Base64.encodeLength, List.length_map, cursorText, cursorSize]
  simp only [List.length_append, List.length_cons, List.length_nil]
  omega

theorem cursorSizeGrows {m n : Nat} (le : m ≤ n) : cursorSize m ≤ cursorSize n := by
  have grows := digitsGrow le
  rw [cursorSize, cursorSize]
  omega

theorem cursorSizeLeast (n : Nat) : 14 ≤ cursorSize n := by
  have some' : 0 < (intDigits n).length := by
    rw [digitsLength]
    exact Nat.length_toDigits_pos
  rw [cursorSize]
  omega

theorem cursorSizeMost {n : Nat} (listed : n ≤ maxListLength) : cursorSize n ≤ 38 := by
  have few := digitsFew listed
  rw [cursorSize]
  omega

def flagSize (flag : Bool) : Nat := if flag then 4 else 5

theorem flagSized (flag : Bool) : (Json.bool flag).size floats .characters = flagSize flag := by
  cases flag with
  | true => exact sizeTrue floats _
  | false => exact sizeFalse floats _

-- what a row takes with the comma
def rowsSize (floats : FloatText) (items : List Json) : Nat :=
  (items.map fun item => 1 + item.size floats .characters).sum

theorem pageSize (page : Page) : page.json.size floats .characters =
    39 + flagSize page.truncated + max 1 (rowsSize floats page.items) +
      ((page.nextCursor.map Json.str).getD .null).size floats .characters := by
  rw [Page.json, sizeObj]
  simp (disch := decide) only [List.map_cons, List.map_nil, List.sum_cons, List.sum_nil, plainKey, sizeArr,
    String.reduceToList, List.length_cons, List.length_nil, flagSized, rowsSize]
  omega

theorem turnedSize (floats : FloatText) (offset total : Nat) (extra : Bool) (items : List Json) :
    (turnedPage floats offset total extra items).json.size floats .characters =
      39 + max 1 (rowsSize floats items) +
        (if offset + items.length < total then 4 + cursorSize (offset + items.length) else flagSize extra + 4) := by
  rw [pageSize, turnedPage]
  by_cases remaining : offset + items.length < total
  · simp only [remaining, decide_true, if_true, Bool.or_true, Option.map_some, Option.getD_some, cursorSized,
      flagSize]
    omega
  · simp only [remaining, decide_false, Bool.false_eq_true, if_false, Bool.or_false, Option.map_none,
      Option.getD_none, sizeNull]
    omega

theorem pageWithin {page : Page} : page.exceeds floats budget = false ↔
    page.json.size floats .characters ≤ 4 * budget := by
  rw [Page.exceeds, decide_eq_false_iff_not, Nat.not_lt, estimateWithin]

/-! ## One page -/

theorem turnedFlag {truncated : Bool} (kept : extra = true → truncated = true)
    (raised : truncated = true → extra = true ∨ offset + items.length < rows.length) :
    turnedPage floats offset rows.length truncated items = turnedPage floats offset rows.length extra items := by
  have same : (truncated || decide (offset + items.length < rows.length)) =
      (extra || decide (offset + items.length < rows.length)) := by
    cases extra with
    | true => rw [kept rfl]
    | false =>
      cases truncated with
      | false => rfl
      | true =>
        have remaining := (raised rfl).resolve_left Bool.false_ne_true
        simp [remaining]
  simp only [turnedPage, same]

def pageFits (floats : FloatText) (budget offset : Nat) (rows : List Json) (extra : Bool)
    (items : List Json) : Bool :=
  !(turnedPage floats offset rows.length extra items).exceeds floats budget

theorem settlePageSource {reversed : List Json} {truncated : Bool} (kept : extra = true → truncated = true)
    (bound : offset + reversed.length ≤ rows.length)
    (raised : truncated = true → extra = true ∨ offset + reversed.length < rows.length) :
    settleReversed floats budget offset rows.length truncated reversed =
      turnedPage floats offset rows.length extra
        (fitReversed (pageFits floats budget offset rows extra) reversed).reverse := by
  induction reversed generalizing truncated with
  | nil => exact turnedFlag kept raised
  | cons last rest ih =>
    have same : turnedPage floats offset rows.length truncated (last :: rest).reverse =
        turnedPage floats offset rows.length extra (last :: rest).reverse :=
      turnedFlag kept (by simpa using raised)
    rw [settleReversed, fitReversed, pageFits, same]
    rw [List.length_cons] at bound
    cases (turnedPage floats offset rows.length extra (last :: rest).reverse).exceeds floats budget with
    | true => exact ih (fun _ => rfl) (by omega) (fun _ => .inr (by omega))
    | false => rfl

def shownRows (floats : FloatText) (budget offset : Nat) (rows : List Json) (extra : Bool) : List Json :=
  fitItems (pageFits floats budget offset rows extra) (rows.drop offset)

theorem shownPrefix : shownRows floats budget offset rows extra <+: rows.drop offset := fitPrefix _ _

theorem pageItemsSource {cursor : Option String} (located : decodeCursor reader floats cursor = .ok offset)
    (inside : offset ≤ rows.length) :
    pageItems reader floats budget rows cursor extra =
      .ok (turnedPage floats offset rows.length extra (shownRows floats budget offset rows extra)) := by
  have looser : ∀ kept, pageFits floats budget offset rows extra kept = true →
      (!(⟨kept, extra, none⟩ : Page).exceeds floats budget) = true := by
    intro kept fits
    rw [pageFits, Bool.not_eq_true', pageWithin, turnedSize] at fits
    rw [Bool.not_eq_true', pageWithin, pageSize]
    have least := cursorSizeLeast (offset + kept.length)
    have flag : flagSize extra ≤ 5 := by cases extra <;> decide
    simp only [Option.map_none, Option.getD_none, sizeNull]
    split at fits <;> omega
  have first := fitPrefix (fun items => !(⟨items, extra, none⟩ : Page).exceeds floats budget) (rows.drop offset)
  have length := first.length_le
  rw [pageItems, located]
  simp only [okBind]
  rw [shownRows, ← fitTwice _ looser]
  generalize fitItems (fun items => !(⟨items, extra, none⟩ : Page).exceeds floats budget) (rows.drop offset) = kept
    at first length ⊢
  rw [List.length_drop] at length
  rw [fitItems, @settlePageSource _ _ _ _ extra]
  · intro raised
    rw [raised, Bool.true_or]
  · rw [List.length_reverse]
    omega
  · intro raised
    rcases Bool.or_eq_true_iff.mp raised with here | cut
    · exact .inl here
    · have shorter : kept.length ≠ rows.length - offset := by simpa using cut
      rw [List.length_reverse]
      exact .inr (by omega)

/-- The row as a page of its own, within the least budget. -/
def RowFits (floats : FloatText) (rows : List Json) (extra : Bool) (i : Nat) (row : Json) : Prop :=
  (turnedPage floats i rows.length extra [row]).exceeds floats minTokenBudget = false

theorem shownSome {row : Json} (admitted : AdmittedBudget budget) (here : rows[offset]? = some row)
    (fits : RowFits floats rows extra offset row) : shownRows floats budget offset rows extra ≠ [] := by
  have ahead : [row] <+: rows.drop offset := by
    obtain ⟨inside, rfl⟩ := List.getElem?_eq_some_iff.mp here
    rw [List.drop_eq_getElem_cons inside]
    exact ⟨_, rfl⟩
  have within : pageFits floats budget offset rows extra [row] = true := by
    rw [RowFits, pageWithin] at fits
    rw [pageFits, Bool.not_eq_true', pageWithin]
    have least := admitted.1
    omega
  intro none
  have kept := fitLongest (pageFits floats budget offset rows extra) ahead (List.cons_ne_nil _ _) within
  rw [shownRows] at none
  rw [none] at kept
  exact List.cons_ne_nil _ _ (List.prefix_nil.mp kept)

theorem shownWithin (admitted : AdmittedBudget budget)
    (progress : offset < rows.length → shownRows floats budget offset rows extra ≠ []) :
    estimateJsonTokens floats
      (turnedPage floats offset rows.length extra (shownRows floats budget offset rows extra)).json ≤ budget := by
  rcases fitFits (pageFits floats budget offset rows extra) (rows.drop offset) with none | fits
  · have done : ¬offset < rows.length := fun more => progress more none
    have least : 128 ≤ budget := admitted.1
    have flag : flagSize extra ≤ 5 := by cases extra <;> decide
    rw [estimateWithin, turnedSize, shownRows, none, if_neg (by simpa using done)]
    simp only [rowsSize, List.map_nil, List.sum_nil]
    omega
  · rw [pageFits, Bool.not_eq_true', pageWithin] at fits
    exact estimateWithin.mpr fits

/-! ## Following the cursors -/

-- the first calls, up to the page without a cursor
def visit {ε : Type} (call : Option String → Nat → Except ε Page) :
    (Nat → Nat) → Nat → Option String → Except ε (List Page)
  | _, 0, _ => .ok []
  | budgets, n + 1, cursor => do
    let page ← call cursor (budgets 0)
    match page.nextCursor with
    | none => .ok [page]
    | some next => do
      let rest ← visit call (fun i => budgets (i + 1)) n (some next)
      .ok (page :: rest)

/-- The calls came to an end, with every row once and each page within its budget. -/
structure Visited (floats : FloatText) (rows : List Json) (budgets : Nat → Nat) (pages : List Page) : Prop where
  ended : pages.getLast?.map Page.nextCursor = some none
  whole : pages.flatMap Page.items = rows
  within : ∀ i page, pages[i]? = some page → estimateJsonTokens floats page.json ≤ budgets i

section Visit
variable {ε : Type} {call : Option String → Nat → Except ε Page} {cursor : Option String} {budgets : Nat → Nat}

/-- The tool answers with the pages of `rows`. -/
def Pages (reader : CursorReader) (floats : FloatText) (rows : List Json) (extra : Bool)
    (call : Option String → Nat → Except ε Page) : Prop :=
  ∀ cursor budget page, call cursor budget = .ok page ↔ pageItems reader floats budget rows cursor extra = .ok page

theorem turnedEnd (done : ¬offset + items.length < rows.length) :
    (turnedPage floats offset rows.length extra items).nextCursor = none := by
  simp only [turnedPage, done, decide_false, Bool.false_eq_true, if_false]

theorem turnedNext (more : offset + items.length < rows.length) :
    (turnedPage floats offset rows.length extra items).nextCursor =
      some (encodeCursor floats (offset + items.length)) := by
  simp only [turnedPage, more, decide_true, if_true]

theorem visitEnds (pages : Pages reader floats rows extra call) (listed : rows.length ≤ maxListLength)
    (fits : ∀ i row, rows[i]? = some row → RowFits floats rows extra i row)
    (located : decodeCursor reader floats cursor = .ok offset) (inside : offset ≤ rows.length)
    (admitted : ∀ i, AdmittedBudget (budgets i)) :
    ∃ n visited, visit call budgets n cursor = .ok visited ∧ Visited floats (rows.drop offset) budgets visited := by
  induction left : rows.length - offset using Nat.strongRecOn generalizing offset cursor budgets with
  | ind left ih =>
    have progress : offset < rows.length → shownRows floats (budgets 0) offset rows extra ≠ [] := fun more =>
      shownSome (admitted 0) (List.getElem?_eq_getElem more) (fits offset _ (List.getElem?_eq_getElem more))
    have within := shownWithin (admitted 0) progress
    have paged := (pages cursor (budgets 0) _).mpr (pageItemsSource located inside)
    have shown : shownRows floats (budgets 0) offset rows extra <+: rows.drop offset := shownPrefix
    generalize shownRows floats (budgets 0) offset rows extra = kept at progress within paged shown
    have short := shown.length_le
    rw [List.length_drop] at short
    by_cases more : offset + kept.length < rows.length
    · have some' : 0 < kept.length := List.length_pos_iff.mpr (progress (by omega))
      obtain ⟨n, rest, visited, ended, whole, inner⟩ :=
        ih (rows.length - (offset + kept.length)) (by omega) (cursorRead (by omega)) (Nat.le_of_lt more)
          (fun i => admitted (i + 1)) rfl
      refine ⟨n + 1, turnedPage floats offset rows.length extra kept :: rest, ?_, ?_, ?_, ?_⟩
      · rw [visit, paged]
        simp only [okBind, turnedNext more, visited]
      · cases rest with
        | nil => cases ended
        | cons next others => rwa [List.getLast?_cons_cons]
      · obtain ⟨behind, split⟩ := shown
        rw [List.flatMap_cons, whole, ← List.drop_drop, ← split, List.drop_left]
        rfl
      · intro i page here
        cases i with
        | zero =>
          cases here
          exact within
        | succ i => exact inner i page here
    · refine ⟨1, [turnedPage floats offset rows.length extra kept], ?_, ?_, ?_, ?_⟩
      · rw [visit, paged]
        simp only [okBind, turnedEnd more]
      · rw [List.getLast?_singleton, Option.map_some, turnedEnd more]
      · rw [List.flatMap_singleton]
        exact shown.eq_of_length (by rw [List.length_drop]; omega)
      · intro i page here
        cases i with
        | zero =>
          cases here
          exact within
        | succ i => cases here

theorem turnedLonger {i : Nat} {row : Json} (listed : rows.length ≤ maxListLength)
    (long : ∀ row ∈ rows, 40 ≤ row.size floats .characters) (here : rows[i]? = some row)
    (shown : items <+: rows.drop offset) (from' : offset ≤ i) (until' : i < offset + items.length) :
    (turnedPage floats i rows.length extra [row]).json.size floats .characters ≤
      (turnedPage floats offset rows.length extra items).json.size floats .characters := by
  have short := shown.length_le
  rw [List.length_drop] at short
  have inside : row ∈ items := by
    obtain ⟨behind, split⟩ := shown
    have place : (items ++ behind)[i - offset]? = some row := by
      rw [split, List.getElem?_drop, Nat.add_sub_cancel' from', here]
    rw [List.getElem?_append_left (by omega)] at place
    exact List.mem_of_getElem? place
  have held : (items.length - 1) * 41 + (1 + row.size floats .characters) ≤ rowsSize floats items := by
    obtain ⟨before, behind, rfl⟩ := List.append_of_mem inside
    have each : ∀ others : List Json, (∀ other ∈ others, other ∈ rows) →
        others.length * 41 ≤ (others.map fun item => 1 + item.size floats .characters).sum := by
      intro others
      induction others with
      | nil => simp
      | cons other others ih =>
        intro known
        have first := long other (known other List.mem_cons_self)
        have rest := ih fun o inside => known o (List.mem_cons_of_mem other inside)
        rw [List.map_cons, List.sum_cons, List.length_cons]
        omega
    have known : ∀ other ∈ before ++ row :: behind, other ∈ rows :=
      fun other inside => List.mem_of_mem_drop (shown.subset inside)
    have first := each before fun other inside => known other (List.mem_append_left _ inside)
    have last := each behind fun other inside =>
      known other (List.mem_append_right _ (List.mem_cons_of_mem row inside))
    simp only [rowsSize, List.map_append, List.sum_append, List.map_cons, List.sum_cons, List.length_append,
      List.length_cons]
    omega
  have flag : 4 ≤ flagSize extra := by cases extra <;> decide
  have most : i + 1 ≤ rows.length → cursorSize (i + 1) ≤ 38 := fun bound => cursorSizeMost (by omega)
  have grows := cursorSizeGrows (Nat.succ_le_of_lt until')
  have alone : rowsSize floats [row] = 1 + row.size floats .characters := by
    rw [rowsSize, List.map_singleton, List.sum_singleton]
  rw [turnedSize, turnedSize, alone, List.length_singleton]
  by_cases more : offset + items.length < rows.length
  · rw [if_pos more, if_pos (by omega : i + 1 < rows.length)]
    have next : cursorSize (i + 1) ≤ cursorSize (offset + items.length) := grows
    omega
  · rw [if_neg more]
    by_cases last : i + 1 < rows.length
    · have several : 2 ≤ items.length := by omega
      rw [if_pos last]
      have bound := most (by omega)
      omega
    · rw [if_neg last]
      omega

theorem visitedFits (pages : Pages reader floats rows extra call) (listed : rows.length ≤ maxListLength)
    (long : ∀ row ∈ rows, 40 ≤ row.size floats .characters) {n : Nat} {visited : List Page}
    (located : decodeCursor reader floats cursor = .ok offset) (inside : offset ≤ rows.length)
    (visits : visit call (fun _ => minTokenBudget) n cursor = .ok visited) {i : Nat} {row : Json}
    (here : rows[i]? = some row) (from' : offset ≤ i)
    (until' : i < offset + (visited.flatMap Page.items).length) : RowFits floats rows extra i row := by
  induction n generalizing offset cursor visited with
  | zero =>
    cases visits
    exact absurd until' (by simpa using from')
  | succ n ih =>
    have paged := (pages cursor minTokenBudget _).mpr (pageItemsSource located inside)
    have shown : shownRows floats minTokenBudget offset rows extra <+: rows.drop offset := shownPrefix
    have fitting := fitFits (pageFits floats minTokenBudget offset rows extra) (rows.drop offset)
    change shownRows floats minTokenBudget offset rows extra = [] ∨
      pageFits floats minTokenBudget offset rows extra (shownRows floats minTokenBudget offset rows extra) = true
      at fitting
    rw [visit, paged] at visits
    simp only [okBind] at visits
    generalize shownRows floats minTokenBudget offset rows extra = kept at visits shown fitting
    have short := shown.length_le
    rw [List.length_drop] at short
    by_cases first : i < offset + kept.length
    · have some' : kept ≠ [] := by
        rintro rfl
        exact absurd first (by simpa using from')
      have fits := fitting.resolve_left some'
      rw [pageFits, Bool.not_eq_true', pageWithin] at fits
      rw [RowFits, pageWithin]
      exact (turnedLonger listed long here shown from' first).trans fits
    · by_cases more : offset + kept.length < rows.length
      · simp only [turnedNext more] at visits
        obtain ⟨rest, next, done⟩ := bindOk.mp visits
        cases done
        refine ih (cursorRead (by omega)) (Nat.le_of_lt more) next (Nat.not_lt.mp first) ?_
        rw [List.flatMap_cons, List.length_append] at until'
        have items : (turnedPage floats offset rows.length extra kept).items.length = kept.length := rfl
        omega
      · have known : i < rows.length := (List.getElem?_eq_some_iff.mp here).1
        omega

theorem visitsIff (pages : Pages reader floats rows extra call) (listed : rows.length ≤ maxListLength)
    (long : ∀ row ∈ rows, 40 ≤ row.size floats .characters) :
    (∀ budgets : Nat → Nat, (∀ i, AdmittedBudget (budgets i)) →
      ∃ n visited, visit call budgets n none = .ok visited ∧ Visited floats rows budgets visited) ↔
    ∀ i row, rows[i]? = some row → RowFits floats rows extra i row := by
  constructor
  · intro all i row here
    obtain ⟨n, visited, visits, done⟩ := all (fun _ => minTokenBudget) fun _ => by decide
    refine visitedFits pages listed long rfl (Nat.zero_le _) visits here (Nat.zero_le i) ?_
    rw [done.whole, Nat.zero_add]
    exact (List.getElem?_eq_some_iff.mp here).1
  · intro fits budgets admitted
    exact visitEnds pages listed fits rfl (Nat.zero_le _) admitted

end Visit
/-! ## The tools -/

variable {readInteger : String → Option Int} {result : Json} {tool : PagedTool}

theorem toolPages (projected : tool.rows readInteger result = .ok rows) :
    Pages reader floats rows (result.member "output_truncated").truthy
      (tool.call reader floats readInteger result) := by
  intro cursor budget page
  cases tool with
  | inspect view =>
    have rowsOk : inspectRows result view = .ok rows := projected
    rw [PagedTool.call, projectInspect, rowsOk]
    exact mapErrorOk
  | review =>
    have rowsOk : reviewRows readInteger result = .ok rows := projected
    rw [PagedTool.call, projectReview, rowsOk]
    exact mapErrorOk

theorem evidenceLong (row : Json) : 40 ≤ (projectEvidenceRow row).size floats .characters := by
  rw [projectEvidenceRow, sizeObj]
  simp (disch := decide) only [List.map_cons, List.map_nil, List.sum_cons, List.sum_nil, plainKey,
    String.reduceToList, List.length_cons, List.length_nil]
  omega

theorem historyLong (row : Json) : 40 ≤ (projectHistoryRow row).size floats .characters := by
  rw [projectHistoryRow, sizeObj, List.map_append, List.map_append, List.sum_append, List.sum_append]
  simp (disch := decide) only [List.map_cons, List.map_nil, List.sum_cons, List.sum_nil, plainKey,
    String.reduceToList, List.length_cons, List.length_nil]
  omega

theorem reviewLong {raw row : Json} (projected : projectReviewRow readInteger raw = .ok row) :
    40 ≤ row.size floats .characters := by
  obtain ⟨members, -, projected⟩ := bindOk.mp projected
  obtain ⟨choices, -, projected⟩ := bindOk.mp projected
  cases projected
  rw [sizeObj]
  simp (disch := decide) only [List.map_cons, List.map_nil, List.sum_cons, List.sum_nil, plainKey,
    String.reduceToList, List.length_cons, List.length_nil]
  omega

theorem rowsLong (projected : tool.rows readInteger result = .ok rows) :
    ∀ row ∈ rows, 40 ≤ row.size floats .characters := by
  cases tool with
  | inspect view =>
    rw [PagedTool.rows, inspectRows] at projected
    split at projected
    · obtain ⟨raws, -, projected⟩ := bindOk.mp projected
      cases projected
      exact List.forall_mem_map.mpr fun raw _ => evidenceLong raw
    · obtain ⟨raws, -, projected⟩ := bindOk.mp projected
      cases projected
      exact List.forall_mem_map.mpr fun raw _ => historyLong raw
  | review =>
    obtain ⟨raws, -, projected⟩ := bindOk.mp projected
    intro row inside
    obtain ⟨raw, -, made⟩ := mapMSource projected row inside
    exact reviewLong made

/-- Inspection and review page through every row once, whatever the budgets, exactly when each row fits
the least budget as a page of its own. -/
theorem inspectionVisitsOnce (projected : tool.rows readInteger result = .ok rows)
    (listed : rows.length ≤ maxListLength) :
    (∀ budgets : Nat → Nat, (∀ i, AdmittedBudget (budgets i)) →
      ∃ n visited, visit (tool.call reader floats readInteger result) budgets n none = .ok visited ∧
        Visited floats rows budgets visited) ↔
    ∀ i row, rows[i]? = some row → RowFits floats rows (result.member "output_truncated").truthy i row :=
  visitsIff (toolPages projected) listed (rowsLong projected)

namespace Example

def plainReader : CursorReader := ⟨fun _ => none, fun _ => none⟩

def evidenceResults (excerpts : List String) : Json :=
  .obj [("evidence", .arr (excerpts.map fun excerpt =>
    .obj [("source_type", .str "human"), ("evidence_excerpt", .str excerpt)]))]

def evidenceResult (excerpt : String) : Json := evidenceResults [excerpt]

def excerptRow (excerpt : String) : Json :=
  .obj [("source", .str "human"), ("by", .null), ("observed_at", .null), ("excerpt", .str excerpt),
    ("relation", .str "supports")]

def sixExcerpts : List String := ["one", "two", "three", "four", "five", "six"]

/-- Six rows that take two pages of the least budget are visited once under any budgets. -/
theorem shortExcerptVisited :
    ((visit ((PagedTool.inspect "evidence").call plainReader noFloats (fun _ => none)
      (evidenceResults sixExcerpts)) (fun _ => minTokenBudget) 2 none).toOption.map fun pages =>
        pages.map fun page => page.items.length) = some [5, 1] ∧
    ∀ budgets : Nat → Nat, (∀ i, AdmittedBudget (budgets i)) →
      ∃ n visited, visit ((PagedTool.inspect "evidence").call plainReader noFloats (fun _ => none)
          (evidenceResults sixExcerpts)) budgets n none = .ok visited ∧
        Visited noFloats (sixExcerpts.map excerptRow) budgets visited := by
  have projected : (PagedTool.inspect "evidence").rows (fun _ => none) (evidenceResults sixExcerpts) =
      .ok (sixExcerpts.map excerptRow) := okOfOption (by decide +kernel)
  refine ⟨by decide +kernel, (inspectionVisitsOnce projected (by decide +kernel)).mpr fun i row here => ?_⟩
  have fits : ∀ i (inside : i < 6), (turnedPage noFloats i 6 false [(sixExcerpts.map excerptRow)[i]]).exceeds
      noFloats minTokenBudget = false := by
    decide +kernel
  obtain ⟨inside, rfl⟩ := List.getElem?_eq_some_iff.mp here
  exact fits i inside

theorem longRow {text : String} (plain : ∀ c ∈ text.toList, plainChar c = true)
    (long : 500 ≤ text.toList.length) :
    (turnedPage noFloats 0 1 false [excerptRow text]).exceeds noFloats minTokenBudget = true := by
  have row : 512 ≤ (excerptRow text).size noFloats .characters := by
    rw [excerptRow, sizeObj]
    simp (disch := decide) only [List.map_cons, List.map_nil, List.sum_cons, List.sum_nil, plainKey, plainStr plain,
      String.reduceToList, List.length_cons, List.length_nil]
    omega
  rw [← Bool.not_eq_false, pageWithin, turnedSize, rowsSize, List.map_singleton, List.sum_singleton]
  have least : minTokenBudget = 128 := rfl
  omega

-- the row that fits no page is never passed
theorem longExcerptStuck :
    (PagedTool.inspect "evidence").rows (fun _ => none) (evidenceResult longText) = .ok [excerptRow longText] ∧
    ¬∀ budgets : Nat → Nat, (∀ i, AdmittedBudget (budgets i)) →
      ∃ n visited, visit ((PagedTool.inspect "evidence").call plainReader noFloats (fun _ => none)
          (evidenceResult longText)) budgets n none = .ok visited ∧
        Visited noFloats [excerptRow longText] budgets visited := by
  have projected : (PagedTool.inspect "evidence").rows (fun _ => none) (evidenceResult longText) =
      .ok [excerptRow longText] := okOfOption (by decide +kernel)
  refine ⟨projected, fun all => ?_⟩
  have fits := (visitsIff (toolPages projected) (by decide) (rowsLong projected)).mp all 0 _ rfl
  cases (longRow longPlain longLength.ge).symm.trans fits

end Example
end Enfold
