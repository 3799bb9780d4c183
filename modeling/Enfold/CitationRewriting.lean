import Enfold.CitationText

/-! Citations under the rewriting of a merge: which texts it changes and how, and what the readers of
the tags find in them before and after. -/
namespace Enfold

variable {rt : Runtime}

/-- What ends the ids that the rewriting takes. -/
inductive RunEnd : List Char → Prop
  | done : RunEnd []
  | comma {rest} (other : ∀ c ∈ rest.head?, Text.isDigitAscii c = false) : RunEnd (',' :: rest)
  | other {c rest} (stop : runChar c = false) : RunEnd (c :: rest)

def renumbered (loser survivor : Nat) (words : List (List Char)) : List Nat :=
  Text.firstPlaces (words.map fun word => if readNat word = loser then survivor else readNat word)

/-- A text and what the rewriting makes of it, which may leave off anywhere. -/
inductive Retagged (loser survivor : Nat) : List Char → List Char → Prop
  | rest (text) : Retagged loser survivor text text
  | char {c rest after} (unlisted : ∀ body, Text.after citationMark (c :: rest) = some body → (citedRun body).1 = [])
      (later : Retagged loser survivor rest after) : Retagged loser survivor (c :: rest) (c :: after)
  | list {words behind after} (some : words ≠ []) (digits : ∀ word ∈ words, DigitWord word) (ends : RunEnd behind)
      (later : Retagged loser survivor behind after) :
      Retagged loser survivor (citationMark ++ (joinedNumbers words ++ behind))
        (citationMark ++ (joinedNumbers ((renumbered loser survivor words).map numeral) ++ after))

/-- A text behind a list, or in which no list stands at the first mark. Up to its first blank the
rewriting takes no id from it but the first of a list, which no reader takes for a number. -/
inductive Hanging (dropped kept : List Nat) : List Char → Prop
  | done : Hanging dropped kept []
  | blank {c rest} (space : Text.isSpace c = true) : Hanging dropped kept (c :: rest)
  | char {c rest} (unlisted : ∀ body, Text.after citationMark (c :: rest) = some body → (citedRun body).1 = [])
      (later : Hanging dropped kept rest) : Hanging dropped kept (c :: rest)
  | list {word more behind} (digits : ∀ w ∈ word :: more, DigitWord w) (ends : RunEnd behind)
      (written : ∀ w ∈ more, readNat w ∉ dropped ∧ numeral (readNat w) = w)
      (once : ((word :: more).map readNat).Nodup) (fresh : readNat word ∈ dropped → ∀ w ∈ more, readNat w ∉ kept)
      (later : Hanging dropped kept behind) :
      Hanging dropped kept (citationMark ++ (joinedNumbers (word :: more) ++ behind))

section Lists
variable {words : List (List Char)} {body behind text : List Char} {loser survivor : Nat}

theorem ListEnd.run (ends : ListEnd text) : RunEnd text := by
  cases ends with
  | done => exact .done
  | comma other => exact .comma other
  | blank space => exact .other (spaceFacts space).2

theorem RunEnd.taken (ends : RunEnd text) :
    text.takeWhile runChar = [] ∨ ∃ rest, text.takeWhile runChar = ',' :: rest := by
  cases ends with
  | done => exact .inl rfl
  | comma other => exact .inr ⟨_, List.takeWhile_cons_of_pos (by decide)⟩
  | other stop => exact .inl (List.takeWhile_cons_of_neg (by simp [stop]))

theorem citedRunSource (some : words ≠ []) (digits : ∀ word ∈ words, DigitWord word) (ends : RunEnd behind) :
    citedRun (joinedNumbers words ++ behind) = (words, behind) := by
  have run : (joinedNumbers words ++ behind).takeWhile (fun c => Text.isDigitAscii c || c = ',') =
      joinedNumbers words ++ behind.takeWhile runChar :=
    List.takeWhile_append_of_pos fun c hc => (joinedChar digits hc).1
  have filled : ∀ word ∈ words, (decide (word ≠ [])) = true := fun word hw => by simpa using (digits word hw).some
  have next : ((Text.splitOn ',' (behind.takeWhile runChar)).tail).takeWhile (· ≠ []) = [] := by
    cases ends with
    | done => rfl
    | other stop =>
      rw [List.takeWhile_cons_of_neg (by simp [stop])]
      rfl
    | comma other =>
      rename_i rest
      have comma := Text.splitOnAppend ',' [] (rest.takeWhile runChar)
      rw [List.nil_append] at comma
      rw [List.takeWhile_cons_of_pos (by decide), comma]
      have blank : rest.takeWhile runChar = [] ∨ ∃ more, rest.takeWhile runChar = ',' :: more := by
        cases rest with
        | nil => exact .inl rfl
        | cons c cs =>
          by_cases same : c = ','
          · subst same
            exact .inr ⟨_, List.takeWhile_cons_of_pos (by decide)⟩
          · have plain := other c rfl
            exact .inl (List.takeWhile_cons_of_neg (by simp [runChar, plain, same]))
      change ((Text.splitOn ',' (rest.takeWhile runChar))).takeWhile (· ≠ []) = []
      rw [headBlank blank, List.takeWhile_cons_of_neg (by simp)]
  have ids : (Text.splitOn ',' (joinedNumbers words ++ behind.takeWhile runChar)).takeWhile (· ≠ []) = words := by
    rw [splitBehind some digits ends.taken, List.takeWhile_append_of_pos filled, next, List.append_nil]
  simp only [citedRun, run, ids]
  rw [← Text.joinedLength ',']
  exact congrArg (Prod.mk words) List.drop_left

theorem renumberedSome (some : words ≠ []) : (renumbered loser survivor words).map numeral ≠ [] := by
  obtain ⟨word, listed⟩ := List.exists_mem_of_ne_nil _ some
  have inside : (if readNat word = loser then survivor else readNat word) ∈ renumbered loser survivor words :=
    Text.firstPlacesMem.mpr (List.mem_map_of_mem listed)
  intro none'
  rw [List.map_eq_nil_iff.mp none'] at inside
  cases inside

theorem renumberedDigits : ∀ word ∈ (renumbered loser survivor words).map numeral, DigitWord word := by
  intro word listed
  obtain ⟨id, -, rfl⟩ := List.mem_map.mp listed
  exact numeralDigits id

end Lists

/-! ## Fronts -/

section Fronts
variable {text after front rest body behind : List Char} {words : List (List Char)} {loser survivor : Nat}

theorem markInside {v : List Char} (inside : v <:+ citationMark) (some : v ≠ []) (other : v ≠ citationMark)
    (rest : List Char) : Text.after citationMark (v ++ rest) = none := by
  have each : ∀ v ∈ citationMark.tails, v ≠ [] → v ≠ citationMark → v = ['s', ':'] ∨ v.head?.all (· ≠ 's') := by
    decide
  rcases each v ((List.mem_tails _ _).mpr inside) some other with rfl | head
  · rfl
  · cases v with
    | nil => exact absurd rfl some
    | cons c cs =>
      have differs : c ≠ 's' := by simpa using head
      exact if_neg differs.symm

theorem afterNone {mark xs ys : List Char} (miss : Text.after mark xs = none)
    (same : xs.take mark.length = ys.take mark.length) : Text.after mark ys = none := by
  cases found : Text.after mark ys with
  | none => rfl
  | some rest =>
    have whole := Text.afterSource found
    rw [whole, List.take_left] at same
    have back : xs = mark ++ xs.drop mark.length := by
      conv_lhs => rw [← List.take_append_drop mark.length xs, same]
    rw [back, Text.afterMark] at miss
    cases miss

namespace Retagged

theorem take (h : Retagged loser survivor text after) :
    after.take citationMark.length = text.take citationMark.length := by
  induction h with
  | rest => rfl
  | char _ _ ih =>
    have length : citationMark.length = 12 + 1 := rfl
    rw [length] at ih ⊢
    rw [List.take_succ_cons, List.take_succ_cons]
    have shorter := congrArg (List.take 12) ih
    rw [List.take_take, List.take_take] at shorter
    exact congrArg (_ :: ·) shorter
  | list => rw [List.take_left, List.take_left]

theorem place (h : Retagged loser survivor text after) {i : Nat} (early : i < citationMark.length) :
    after[i]? = text[i]? := by
  have same := congrArg (·[i]?) h.take
  simpa only [List.getElem?_take_of_lt early] using same

theorem head (h : Retagged loser survivor text after) : after.head? = text.head? := by
  simpa only [List.head?_eq_getElem?] using h.place (i := 0) (by decide)

theorem run (h : Retagged loser survivor text after) : after.takeWhile runChar = text.takeWhile runChar := by
  induction h with
  | rest => rfl
  | char _ _ ih => rw [List.takeWhile_cons, List.takeWhile_cons, ih]
  | list =>
    have mark (other : List Char) : (citationMark ++ other).takeWhile runChar = [] := rfl
    rw [mark, mark]

theorem cited (h : Retagged loser survivor text after) : (citedRun after).1 = (citedRun text).1 := by
  have run : after.takeWhile (fun c => Text.isDigitAscii c || c = ',') =
      text.takeWhile fun c => Text.isDigitAscii c || c = ',' := h.run
  rw [citedRun, citedRun, run]

theorem ends (h : Retagged loser survivor text after) (ends : RunEnd text) : RunEnd after := by
  have first := h.head
  have second := h.place (i := 1) (by decide)
  cases ends with
  | done =>
    rw [List.head?_nil, List.head?_eq_none_iff] at first
    exact first ▸ .done
  | comma other =>
    cases after with
    | nil => cases first
    | cons c rest =>
      cases first
      refine .comma fun c head => other c ?_
      rw [List.getElem?_cons_succ, List.getElem?_cons_succ, ← List.head?_eq_getElem?, ← List.head?_eq_getElem?] at second
      exact second ▸ head
  | other stop =>
    cases after with
    | nil => cases first
    | cons c rest =>
      cases first
      exact .other stop

theorem past (h : Retagged loser survivor (front ++ rest) after)
    (unlisted : ∀ v, v ≠ [] → v <:+ front → ∀ body, Text.after citationMark (v ++ rest) = some body →
      (citedRun body).1 = []) :
    ∃ more, after = front ++ more ∧ Retagged loser survivor rest more := by
  induction front generalizing after with
  | nil => exact ⟨after, rfl, h⟩
  | cons c front ih =>
    generalize same : c :: front ++ rest = text at h
    cases h with
    | rest => exact ⟨rest, same.symm, .rest rest⟩
    | char _ later =>
      obtain ⟨rfl, rfl⟩ := List.cons.inj same
      obtain ⟨more, rfl, made⟩ := ih later fun v some inside => unlisted v some (inside.trans (List.suffix_cons c front))
      exact ⟨more, rfl, made⟩
    | list some digits ends later =>
      have here := unlisted (c :: front) (List.cons_ne_nil _ _) List.suffix_rfl _ (same ▸ Text.afterMark citationMark _)
      rw [citedRunSource some digits ends] at here
      exact absurd here some

theorem unlisted (h : Retagged loser survivor (citationMark ++ body) after) (none' : (citedRun body).1 = []) :
    ∃ more, after = citationMark ++ more ∧ Retagged loser survivor body more := by
  refine h.past fun v some inside found here => ?_
  by_cases same : v = citationMark
  · rw [same, Text.afterMark] at here
    cases here
    exact none'
  · rw [markInside inside some same] at here
    cases here

theorem listed (h : Retagged loser survivor (citationMark ++ (joinedNumbers words ++ behind)) after)
    (some : words ≠ []) (digits : ∀ word ∈ words, DigitWord word) (ends : RunEnd behind) :
    after = citationMark ++ (joinedNumbers words ++ behind) ∨
      ∃ more, after = citationMark ++ (joinedNumbers ((renumbered loser survivor words).map numeral) ++ more) ∧
        Retagged loser survivor behind more := by
  have read := citedRunSource some digits ends
  generalize same : citationMark ++ (joinedNumbers words ++ behind) = text at h
  cases h with
  | rest => exact .inl rfl
  | char unlisted =>
    have here := unlisted _ (same ▸ Text.afterMark citationMark _)
    rw [read] at here
    exact absurd here some
  | list others digits ends later =>
    rw [List.append_cancel_left same, citedRunSource others digits ends] at read
    cases read
    exact .inr ⟨_, rfl, later⟩

theorem before (h : Retagged loser survivor rest after)
    (unmarked : ∀ v, v ≠ [] → v <:+ front → Text.after citationMark (v ++ rest) = none) :
    Retagged loser survivor (front ++ rest) (front ++ after) := by
  induction front with
  | nil => exact h
  | cons c front ih =>
    refine .char (fun body here => ?_) (ih fun v some inside => unmarked v some (inside.trans (List.suffix_cons c front)))
    have miss : Text.after citationMark (c :: (front ++ rest)) = none :=
      unmarked (c :: front) (List.cons_ne_nil _ _) List.suffix_rfl
    exact absurd (miss.symm.trans here) (by simp)

end Retagged

end Fronts

/-! ## Readers -/

section Readers
variable {text after : List Char} {dropped kept : List Nat} {loser survivor : Nat}

/-- What reflection reads. -/
def runIds (text : List Char) : List Nat := ((Text.splitOn ',' (sourceRun text)).filter (· ≠ [])).map readNat

theorem sourceRunMarked {body : List Char} (here : Text.after citationMark text = some body)
    (some : body.takeWhile runChar ≠ []) : sourceRun text = body.takeWhile runChar := by
  refine sourceRunFirst ?_ some
  cases text with
  | nil => exact here
  | cons c rest => rw [Text.afterFirst, here]

theorem sourceRunPast {c : Char} {rest : List Char}
    (empty : ∀ body, Text.after citationMark (c :: rest) = some body → body.takeWhile runChar = []) :
    sourceRun (c :: rest) = sourceRun rest := by
  cases found : Text.after citationMark (c :: rest) with
  | none =>
    have miss : Text.after "source_facts:".toList (c :: rest) = none := found
    rw [sourceRun, miss]
  | some body =>
    have here : Text.after "source_facts:".toList (c :: rest) = some body := found
    have run := empty body found
    unfold runChar at run
    rw [sourceRun, here]
    simp only [run]

theorem Retagged.ids (h : Retagged loser survivor text after) (unread : loser ∉ runIds text) (k : Nat) :
    k ∈ runIds after ↔ k ∈ runIds text := by
  induction h with
  | rest => rfl
  | char unlisted later ih =>
    rename_i c rest after
    have whole : Retagged loser survivor (c :: rest) (c :: after) := .char unlisted later
    have marked (body : List Char) (here : Text.after citationMark (c :: rest) = some body) :
        ∃ more, Text.after citationMark (c :: after) = some more ∧ more.takeWhile runChar = body.takeWhile runChar := by
      have source := Text.afterSource here
      have none' := unlisted body here
      rw [source] at whole
      obtain ⟨more, same, made⟩ := whole.unlisted none'
      exact ⟨more, same ▸ Text.afterMark citationMark more, made.run⟩
    cases found : Text.after citationMark (c :: rest) with
    | none =>
      have miss : Text.after citationMark (c :: after) = none := afterNone found whole.take.symm
      have before : sourceRun (c :: rest) = sourceRun rest := sourceRunPast fun body here => by
        rw [found] at here
        cases here
      have then' : sourceRun (c :: after) = sourceRun after := sourceRunPast fun body here => by
        rw [miss] at here
        cases here
      rw [runIds, before] at unread
      rw [runIds, runIds, before, then']
      exact ih unread
    | some body =>
      obtain ⟨more, here, same⟩ := marked body found
      by_cases empty : body.takeWhile runChar = []
      · have before : sourceRun (c :: rest) = sourceRun rest := sourceRunPast fun body here => by
          rw [found] at here
          cases here
          exact empty
        have then' : sourceRun (c :: after) = sourceRun after := sourceRunPast fun body hereToo => by
          rw [here] at hereToo
          cases hereToo
          exact same.trans empty
        rw [runIds, before] at unread
        rw [runIds, runIds, before, then']
        exact ih unread
      · rw [runIds, runIds, sourceRunMarked found empty, sourceRunMarked here (same ▸ empty), same]
  | @list words behind after some digits ends later =>
    have read {words : List (List Char)} {behind : List Char} (some : words ≠ [])
        (digits : ∀ word ∈ words, DigitWord word) (ends : RunEnd behind) :
        runIds (citationMark ++ (joinedNumbers words ++ behind)) =
          (words ++ (Text.splitOn ',' (behind.takeWhile runChar)).filter (· ≠ [])).map readNat := by
      have taken : (joinedNumbers words ++ behind).takeWhile runChar = joinedNumbers words ++ behind.takeWhile runChar :=
        List.takeWhile_append_of_pos fun c hc => (joinedChar digits hc).1
      obtain ⟨d, rest, head, -⟩ := joinedHead some digits
      have nonempty : (joinedNumbers words ++ behind).takeWhile runChar ≠ [] := by
        rw [taken, head]
        exact List.cons_ne_nil _ _
      rw [runIds, sourceRunMarked (Text.afterMark citationMark _) nonempty, taken,
        readFilter some digits ends.taken (· ≠ []) (by decide) fun word number => by simpa using number.some]
    rw [read some digits ends] at unread ⊢
    rw [read (renumberedSome some) renumberedDigits (later.ends ends), later.run, List.map_append, List.map_append,
      List.mem_append, List.mem_append, List.map_map]
    refine or_congr_left ?_
    have moved : words.map (fun word => if readNat word = loser then survivor else readNat word) = words.map readNat := by
      refine List.map_congr_left fun word listed => if_neg fun same => unread ?_
      exact List.mem_map.mpr ⟨word, List.mem_append_left _ listed, same⟩
    have same : (readNat ∘ numeral) = id := funext readNumeral
    rw [same, List.map_id, renumbered, moved, Text.firstPlacesMem]

/-- The numbers the erasure reads of a text when it already holds the front of one. -/
def partsRead (rt : Runtime) (front text : List Char) : List (List Char) :=
  (Text.splitOn ',' (front ++ text.takeWhile fun c => !Text.isSpace c)).filter fun word =>
    word ≠ [] && word.all rt.isDigit

/-- Fronts that give the same number with whatever follows, or none. -/
structure Twin (rt : Runtime) (p q : List Char) : Prop where
  left : ',' ∉ p
  right : ',' ∉ q
  same : p = q ∨ (p.all rt.isDigit = false ∧ q.all rt.isDigit = false)

/-- The erasure reads the same of both texts. -/
def ReadAlike (rt : Runtime) (text after : List Char) : Prop :=
  ∀ p q, Twin rt p q → partsRead rt p text = partsRead rt q after

theorem Twin.read {p q : List Char} (twin : Twin rt p q) :
    [p].filter (fun word => word ≠ [] && word.all rt.isDigit) =
      [q].filter fun word => word ≠ [] && word.all rt.isDigit := by
  rcases twin.same with rfl | ⟨left, right⟩
  · rfl
  · rw [List.filter_cons_of_neg (by simp [left]), List.filter_cons_of_neg (by simp [right])]

theorem partsChar {front text : List Char} {c : Char} (solid : Text.isSpace c = false) :
    partsRead rt front (c :: text) = partsRead rt (front ++ [c]) text := by
  rw [partsRead, partsRead, List.takeWhile_cons_of_pos (by simp [solid]), List.append_assoc]
  rfl

theorem partsEnd {front text : List Char} (whole : ',' ∉ front)
    (ends : (text.takeWhile fun c => !Text.isSpace c) = []) :
    partsRead rt front text = [front].filter fun word => word ≠ [] && word.all rt.isDigit := by
  rw [partsRead, ends, List.append_nil, Text.splitWhole whole]

theorem partsComma {front text : List Char} (whole : ',' ∉ front) :
    partsRead rt front (',' :: text) =
      [front].filter (fun word => word ≠ [] && word.all rt.isDigit) ++ partsRead rt [] text := by
  rw [partsRead, partsRead, List.takeWhile_cons_of_pos (by decide), Text.splitOnAppend, Text.splitWhole whole,
    List.filter_append]
  rfl

theorem Twin.snoc {p q : List Char} (twin : Twin rt p q) {c : Char} (other : c ≠ ',') :
    Twin rt (p ++ [c]) (q ++ [c]) where
  left := by simp [twin.left, other.symm]
  right := by simp [twin.right, other.symm]
  same := by
    rcases twin.same with rfl | ⟨left, right⟩
    · exact .inl rfl
    · exact .inr ⟨by simp [List.all_append, left], by simp [List.all_append, right]⟩

theorem ReadAlike.blank {c : Char} (space : Text.isSpace c = true) (text after : List Char) :
    ReadAlike rt (c :: text) (c :: after) := by
  intro p q twin
  have ends (rest : List Char) : ((c :: rest).takeWhile fun c => !Text.isSpace c) = [] :=
    List.takeWhile_cons_of_neg (by simp [space])
  rw [partsEnd twin.left (ends text), partsEnd twin.right (ends after)]
  exact twin.read

theorem ReadAlike.cons (alike : ReadAlike rt text after) (c : Char) : ReadAlike rt (c :: text) (c :: after) := by
  cases space : Text.isSpace c with
  | true => exact .blank space text after
  | false =>
    intro p q twin
    by_cases comma : c = ','
    · subst comma
      rw [partsComma twin.left, partsComma twin.right, twin.read, alike [] [] ⟨by simp, by simp, .inl rfl⟩]
    · rw [partsChar space, partsChar space]
      exact alike _ _ (twin.snoc comma)

theorem ReadAlike.append (alike : ReadAlike rt text after) (front : List Char) :
    ReadAlike rt (front ++ text) (front ++ after) := by
  induction front with
  | nil => exact alike
  | cons c front ih => exact ih.cons c

theorem ReadAlike.nil : ReadAlike rt [] [] := fun p q twin => by
  rw [partsEnd twin.left rfl, partsEnd twin.right rfl]
  exact twin.read

theorem ReadAlike.refl (text : List Char) : ReadAlike rt text text := by
  simpa using ReadAlike.nil.append text

theorem ReadAlike.glued (ascii : rt.ReadsDigits) (alike : ReadAlike rt text after) {word renamed : List Char}
    (digits : DigitWord word) (others : DigitWord renamed) :
    ReadAlike rt (citationMark ++ (word ++ text)) (citationMark ++ (renamed ++ after)) := by
  intro p q twin
  have solid : ∀ c ∈ citationMark, (!Text.isSpace c) = true ∧ c ≠ ',' := by
    have visible : citationMark.all (fun c => !Text.isSpace c && c != ',') = true := by decide
    intro c hc
    simpa using List.all_eq_true.mp visible c hc
  have moved {front word text : List Char} (digits : DigitWord word) :
      partsRead rt front (citationMark ++ (word ++ text)) = partsRead rt (front ++ citationMark ++ word) text := by
    have inside : ∀ c ∈ citationMark ++ word, (!Text.isSpace c) = true := by
      intro c hc
      rcases List.mem_append.mp hc with hc | hc
      · exact (solid c hc).1
      · simp [(digitFacts (digits.digits c hc)).2.1]
    rw [partsRead, partsRead, ← List.append_assoc, List.takeWhile_append_of_pos inside]
    simp only [List.append_assoc]
  have whole {front word : List Char} (free : ',' ∉ front) (digits : DigitWord word) :
      ',' ∉ front ++ citationMark ++ word := by
    intro inside
    rcases List.mem_append.mp inside with inside | inside
    · rcases List.mem_append.mp inside with inside | inside
      · exact free inside
      · exact (solid ',' inside).2 rfl
    · exact digits.whole inside
  have unread (front word : List Char) : (front ++ citationMark ++ word).all rt.isDigit = false := by
    refine List.all_eq_false.mpr ⟨':', ?_, by simp [ascii.colon]⟩
    exact List.mem_append_left _ (List.mem_append_right _ (by decide))
  rw [moved digits, moved others]
  exact alike _ _ ⟨whole twin.left digits, whole twin.right others, .inr ⟨unread p word, unread q renamed⟩⟩

theorem Hanging.bare (bare : Text.afterFirst citationMark text = none) : Hanging dropped kept text := by
  induction text with
  | nil => exact .done
  | cons c rest ih =>
    unfold Text.afterFirst at bare
    split at bare
    · cases bare
    · rename_i miss
      exact .char (fun body here => absurd (miss.symm.trans here) (by simp)) (ih bare)

theorem ReadAlike.joined (ascii : rt.ReadsDigits) (alike : ReadAlike rt text after) {word renamed : List Char}
    (digits : DigitWord word) (others : DigitWord renamed) (more : List (List Char)) :
    ReadAlike rt (citationMark ++ (joinedNumbers (word :: more) ++ text))
      (citationMark ++ (joinedNumbers (renamed :: more) ++ after)) := by
  cases more with
  | nil =>
    have alone (w : List Char) : joinedNumbers [w] = w := List.intercalate_singleton
    rw [alone, alone]
    exact alike.glued ascii digits others
  | cons next more =>
    have joined (w : List Char) (rest : List Char) : joinedNumbers (w :: next :: more) ++ rest =
        w ++ (',' :: joinedNumbers (next :: more) ++ rest) := by
      rw [joinedNumbers, List.intercalate_cons_of_ne_nil (List.cons_ne_nil _ _)]
      simp only [List.append_assoc]
      rfl
    rw [joined, joined]
    exact (alike.append (',' :: joinedNumbers (next :: more))).glued ascii digits others

theorem renumberedHead {word : List Char} {more : List (List Char)} (lost : loser ∈ dropped) (stays : survivor ∈ kept)
    (written : ∀ w ∈ more, readNat w ∉ dropped ∧ numeral (readNat w) = w)
    (once : ((word :: more).map readNat).Nodup) (fresh : readNat word ∈ dropped → ∀ w ∈ more, readNat w ∉ kept) :
    (if readNat word = loser then survivor else readNat word) ∉ more.map readNat ∧
      (renumbered loser survivor (word :: more)).map numeral =
        numeral (if readNat word = loser then survivor else readNat word) :: more := by
  have others : more.map (fun w => if readNat w = loser then survivor else readNat w) = more.map readNat :=
    List.map_congr_left fun w hw => if_neg fun (same : readNat w = loser) => (written w hw).1 (same ▸ lost)
  obtain ⟨head, tail⟩ := List.nodup_cons.mp once
  have first : (if readNat word = loser then survivor else readNat word) ∉ more.map readNat := by
    split
    · rename_i same
      intro inside
      obtain ⟨w, hw, value⟩ := List.mem_map.mp inside
      exact fresh (same ▸ lost) w hw (value ▸ stays)
    · exact head
  refine ⟨first, ?_⟩
  rw [renumbered, List.map_cons, others, Text.firstPlaces,
    (List.nodup_reverse.mpr (List.nodup_cons.mpr ⟨first, tail⟩)).dedup, List.reverse_reverse, List.map_cons,
    List.map_map]
  exact congrArg _ ((List.map_congr_left fun w hw => (written w hw).2).trans (List.map_id more))

theorem Hanging.moved (ascii : rt.ReadsDigits) (lost : loser ∈ dropped) (stays : survivor ∈ kept)
    (apart : survivor ∉ dropped) (hanging : Hanging dropped kept text) (h : Retagged loser survivor text after) :
    Hanging dropped kept after ∧ ReadAlike rt text after := by
  induction hanging generalizing after with
  | done =>
    have first := h.head
    rw [List.head?_nil, List.head?_eq_none_iff] at first
    subst first
    exact ⟨.done, .nil⟩
  | @blank c rest space =>
    have first := h.head
    cases after with
    | nil => cases first
    | cons d later =>
      obtain rfl : d = c := Option.some.inj first
      exact ⟨.blank space, .blank space rest later⟩
  | char unlisted later ih =>
    rename_i c rest
    have whole := h
    generalize same : c :: rest = text at h
    cases h with
    | rest => exact same ▸ ⟨.char unlisted later, .refl _⟩
    | char _ made =>
      obtain ⟨rfl, rfl⟩ := List.cons.inj same
      obtain ⟨still, alike⟩ := ih made
      rename_i after
      refine ⟨.char (fun more here => ?_) still, alike.cons c⟩
      cases found : Text.after citationMark (c :: rest) with
      | none =>
        rw [afterNone found whole.take.symm] at here
        cases here
      | some body =>
        have none' := unlisted body found
        rw [Text.afterSource found] at whole
        obtain ⟨_, same, made⟩ := whole.unlisted none'
        rw [same, Text.afterMark] at here
        cases here
        exact made.cited.trans none'
    | list some digits ends made =>
      have here := unlisted _ (same.symm ▸ Text.afterMark citationMark _)
      rw [citedRunSource some digits ends] at here
      exact absurd here some
  | list digits ends written once fresh later ih =>
    rename_i word more behind
    rcases h.listed (List.cons_ne_nil _ _) digits ends with rfl | ⟨rest, rfl, made⟩
    · exact ⟨.list digits ends written once fresh later, .refl _⟩
    · obtain ⟨still, alike⟩ := ih made
      obtain ⟨-, tail⟩ := List.nodup_cons.mp once
      obtain ⟨first, words⟩ := renumberedHead lost stays written once fresh
      rw [words]
      refine ⟨.list ?_ (made.ends ends) written ?_ ?_ still, ?_⟩
      · intro w hw
        rcases List.mem_cons.mp hw with rfl | hw
        · exact numeralDigits _
        · exact digits w (List.mem_cons_of_mem _ hw)
      · rw [List.map_cons, readNumeral]
        exact List.nodup_cons.mpr ⟨first, tail⟩
      · rw [readNumeral]
        intro gone
        split at gone
        · exact absurd gone apart
        · exact fresh gone
      · exact alike.joined ascii (digits word List.mem_cons_self) (numeralDigits _) more

end Readers

/-! ## One list -/

section Listed
variable {text post : List Char} {words : List (List Char)} {loser survivor : Nat}

end Listed

/-! ## One drop -/

/-- The readers find in the second tags what they find in the first, moved. -/
def Carried (rt : Runtime) (before after : String) (move : Nat → Nat) : Prop :=
  ∀ (reader : CitationReader) (k : Nat), reader.cites rt after k ↔ ∃ j, reader.cites rt before j ∧ move j = k

section Drop
variable {words : List (List Char)} {post : List Char} {tags : String} {loser survivor : Nat} {dropped kept : List Nat}

end Drop

end Enfold
