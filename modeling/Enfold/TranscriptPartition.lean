import Enfold.ExtractionSpans
import Enfold.Foundation.Segments
import Mathlib.Data.List.Infix
import Mathlib.Data.Nat.Digits.Defs

/-! The spans of a transcript lie one behind the other, and only white space is left between them. -/
namespace Enfold

open Segments (Gap Pieces)

def turnsText (turns : List Turn) : List Char := ['\n', '\n'].intercalate (turns.map fun turn => turn.content.toList)

/-- The text that the offsets of a transcript's spans count in; turns are joined by a blank line. -/
def TranscriptInput.joined : TranscriptInput → List Char
  | .text transcript => transcript.toList
  | .turns given _ => turnsText given

/-- `TranscriptSpan.__post_init__`: what is wrong with a span, in the order of its checks. -/
def TranscriptSpan.fault (span : TranscriptSpan) : Option String :=
  if span.stop ≤ span.start then some "transcript span offsets are invalid"
  else if span.text = "" ∨ span.text.length ≠ span.stop - span.start then
    some "transcript span text does not match its offsets"
  else if maxEvidenceChars < span.text.length then some "transcript span exceeds the evidence limit"
  else if span.spanId ≠ spanName span.start span.stop then some "transcript span id does not match its offsets"
  else none

def BlankAt (text : List Char) (i : Nat) : Prop := ∀ c ∈ text[i]?, Text.isSpace c = true

section Positions
variable {text : List Char} {low high : Nat}

theorem betweenAt (text : List Char) {i : Nat} (begun : low ≤ i) (ended : i < high) : ((text.take high).drop low)[i - low]? = text[i]? := by
  rw [List.getElem?_drop, Nat.add_sub_cancel' begun, List.getElem?_take_of_lt ended]

theorem betweenLength (bound : high ≤ text.length) : ((text.take high).drop low).length = high - low := by
  rw [List.length_drop, List.length_take, Nat.min_eq_left bound]

theorem skipSpacesSpec (text : List Char) {low high : Nat} (order : low ≤ high) (bound : high ≤ text.length) :
    low ≤ skipSpaces text low high ∧ skipSpaces text low high ≤ high ∧
      Gap (BlankAt text) low (skipSpaces text low high) := by
  obtain ⟨rest, split⟩ := List.takeWhile_prefix Text.isSpace (l := (text.take high).drop low)
  have length := congrArg List.length split
  rw [List.length_append, betweenLength bound] at length
  unfold skipSpaces
  refine ⟨Nat.le_add_right _ _, by omega, fun i begun ended c found => ?_⟩
  have place := betweenAt text begun (by omega : i < high)
  generalize (text.take high).drop low = between at *
  rw [← place, ← split, List.getElem?_append_left (by omega)] at found
  exact List.mem_takeWhile_imp (List.mem_of_getElem? found)

theorem trimSpacesSpec (text : List Char) {low high : Nat} (order : low ≤ high) (bound : high ≤ text.length) :
    low ≤ trimSpaces text low high ∧ trimSpaces text low high ≤ high ∧
      Gap (BlankAt text) (trimSpaces text low high) high := by
  obtain ⟨rest, split⟩ := List.rtakeWhile_suffix Text.isSpace ((text.take high).drop low)
  have length := congrArg List.length split
  rw [List.length_append, betweenLength bound] at length
  unfold trimSpaces
  refine ⟨by omega, Nat.sub_le _ _, fun i begun ended c found => ?_⟩
  have place := betweenAt text (by omega : low ≤ i) ended
  generalize (text.take high).drop low = between at *
  rw [← place, ← split, List.getElem?_append_right (by omega)] at found
  exact List.mem_rtakeWhile_imp (List.mem_of_getElem? found)

theorem rfindSpec {sub : List Char} {start stop i : Nat} (found : rfind sub text start stop = some i) :
    start ≤ i ∧ i + sub.length ≤ stop := by
  have listed := List.mem_reverse.mp (List.mem_of_find?_eq_some found)
  have holds := List.find?_some found
  simp only [Bool.and_eq_true, decide_eq_true_eq] at holds
  exact ⟨(List.mem_range'_1.mp listed).1, holds.1⟩

theorem preferredEndSpec (text : List Char) {start hardEnd : Nat} (blockEnd : Nat) (room : start < hardEnd) :
    start < preferredEnd text start hardEnd blockEnd ∧ preferredEnd text start hardEnd blockEnd ≤ hardEnd := by
  unfold preferredEnd
  split
  · exact ⟨room, le_refl _⟩
  · dsimp only
    split
    · rename_i boundary found
      obtain ⟨separator, listed, place⟩ := List.exists_of_findSome?_eq_some found
      obtain ⟨behind, inside⟩ := rfindSpec place
      have wide : ∀ sep ∈ ["\n\n", "\n", ". ", "? ", "! "], 0 < sep.toList.length := by decide
      have some := wide separator listed
      have near : min hardEnd (start + minBoundarySearchChars) ≤ boundary := behind
      have search : 0 < minBoundarySearchChars := by decide
      omega
    · exact ⟨room, le_refl _⟩

theorem newlineSpec {rest : List Char} (found : newline text = some rest) :
    ∃ taken, text = taken ++ rest ∧ taken ≠ [] ∧ ∀ c ∈ taken, Text.isSpace c = true := by
  unfold newline at found
  split at found
  · cases found
    exact ⟨['\r', '\n'], rfl, by simp, List.all_eq_true.mp (by decide : ['\r', '\n'].all Text.isSpace = true)⟩
  · cases found
    exact ⟨['\n'], rfl, by simp, List.all_eq_true.mp (by decide : ['\n'].all Text.isSpace = true)⟩
  · cases found

theorem blankLineSpec {rest : List Char} (found : blankLine text = some rest) :
    ∃ taken, text = taken ++ rest ∧ taken ≠ [] ∧ ∀ c ∈ taken, Text.isSpace c = true := by
  obtain ⟨middle, first, last⟩ := Option.bind_eq_some_iff.mp found
  obtain ⟨head, rfl, full, headBlank⟩ := newlineSpec first
  obtain ⟨tail, split, -, tailBlank⟩ := newlineSpec last
  have whole := List.takeWhile_append_dropWhile (p := fun c : Char => c = ' ' || c = '\t') (l := middle)
  refine ⟨head ++ middle.takeWhile (fun c => c = ' ' || c = '\t') ++ tail, ?_, by simp [full], fun c hc => ?_⟩
  · rw [List.append_assoc, List.append_assoc, ← split, whole]
  · rcases List.mem_append.mp hc with early | late
    · rcases List.mem_append.mp early with first | middle
      · exact headBlank c first
      · have drawn := List.mem_takeWhile_imp middle
        simp only [Bool.or_eq_true, decide_eq_true_eq] at drawn
        rcases drawn with rfl | rfl <;> decide
    · exact tailBlank c late

theorem searchBlankLineSpec {position start stop : Nat}
    (found : searchBlankLine (text.drop position) position = some (start, stop)) :
    position ≤ start ∧ start < stop ∧ stop ≤ text.length ∧ Gap (BlankAt text) start stop := by
  generalize shape : text.drop position = rest at found
  induction rest generalizing position stop with
  | nil => cases found
  | cons c rest ih =>
    have length := congrArg List.length shape
    rw [List.length_drop] at length
    unfold searchBlankLine at found
    split at found
    · rename_i left here
      cases found
      obtain ⟨taken, split, some, blank⟩ := blankLineSpec here
      have size := congrArg List.length split
      rw [List.length_append] at size
      have positive := List.length_pos_iff.mpr some
      refine ⟨le_refl _, by omega, by omega, fun i begun ended a found => ?_⟩
      have place : text[i]? = taken[i - start]? := calc
        text[i]? = (c :: rest)[i - start]? := by rw [← shape, List.getElem?_drop, Nat.add_sub_cancel' begun]
        _ = taken[i - start]? := by rw [split, List.getElem?_append_left (by omega)]
      rw [place] at found
      exact blank a (List.mem_of_getElem? found)
    · have next : text.drop (position + 1) = rest := by
        rw [← List.drop_drop, shape]
        rfl
      obtain ⟨begun, ended⟩ := ih next found
      exact ⟨by omega, ended⟩

end Positions

/-! ## Names -/

theorem sixDigitsList (n : Nat) :
    (sixDigits n).toList = List.replicate (6 - (toString n).length) '0' ++ Nat.toDigits 10 n := by
  rw [sixDigits, String.toList_ofList, Nat.toString_eq_repr, Nat.toList_repr]

theorem sixDigitsInjective {m n : Nat} (same : (sixDigits m).toList = (sixDigits n).toList) : m = n := by
  have value : ∀ k, Nat.ofDigitChars 10 (sixDigits k).toList 0 = k := by
    intro k
    rw [sixDigitsList, Nat.ofDigitChars_append, Nat.ofDigitChars_replicate_zero, Nat.mul_zero,
      Nat.ofDigitChars_ten_toDigits]
  rw [← value m, ← value n, same]

theorem sixDigitsPlain (n : Nat) : ∀ c ∈ (sixDigits n).toList, c ≠ '-' := by
  intro c hc
  rw [sixDigitsList] at hc
  rcases List.mem_append.mp hc with zero | digit
  · rw [List.eq_of_mem_replicate zero]
    decide
  · rintro rfl
    exact absurd (Nat.isDigit_of_mem_toDigits (by omega) (by omega) digit) (by decide)

theorem spanNameStart {start stop start' stop' : Nat} (same : spanName start stop = spanName start' stop') :
    start = start' := by
  have chars := congrArg String.toList same
  simp only [spanName, String.toList_append, List.append_assoc] at chars
  have behind := List.append_cancel_left chars
  have digits : ∀ n tail, ((sixDigits n).toList ++ ("-".toList ++ tail)).takeWhile (· ≠ '-') = (sixDigits n).toList := by
    intro n tail
    have all := sixDigitsPlain n
    rw [List.takeWhile_append_of_pos fun c hc => decide_eq_true (all c hc)]
    exact List.append_nil _
  have heads := congrArg (List.takeWhile (· ≠ '-')) behind
  rw [digits, digits] at heads
  exact sixDigitsInjective heads

/-! ## The spans of one text -/

structure Made (whole : List Char) (maxChars : Nat) (span : TranscriptSpan) : Prop where
  exact : span.text.toList = (whole.take span.stop).drop span.start
  bounded : span.stop - span.start ≤ maxChars
  named : span.spanId = spanName span.start span.stop

structure Cut (whole : List Char) (maxChars low : Nat) (spans : List TranscriptSpan) (high : Nat) : Prop where
  pieces : Pieces TranscriptSpan.start TranscriptSpan.stop (BlankAt whole) low spans high
  made : ∀ span ∈ spans, Made whole maxChars span

def spanStop (transcript : List Char) (maxChars blockEnd cursor : Nat) : Nat :=
  let hardEnd := min blockEnd (cursor + maxChars)
  let readable := trimSpaces transcript cursor (preferredEnd transcript cursor hardEnd blockEnd)
  if readable ≤ cursor then hardEnd else readable

section Text
variable {before transcript after : List Char} {maxChars : Nat} {role : Option TranscriptRole}

theorem Cut.append {whole : List Char} {low mid high : Nat} {xs ys : List TranscriptSpan}
    (first : Cut whole maxChars low xs mid) (second : Cut whole maxChars mid ys high) :
    Cut whole maxChars low (xs ++ ys) high where
  pieces := first.pieces.append second.pieces
  made span hs := (List.mem_append.mp hs).elim (first.made span) (second.made span)

theorem Cut.behind {whole : List Char} {low mid high : Nat} {spans : List TranscriptSpan}
    (order : low ≤ mid) (gap : Gap (BlankAt whole) low mid) (cut : Cut whole maxChars mid spans high) :
    Cut whole maxChars low spans high :=
  ⟨cut.pieces.behind order gap, cut.made⟩

theorem Cut.blank {whole : List Char} {low high : Nat} (order : low ≤ high) (gap : Gap (BlankAt whole) low high) :
    Cut whole maxChars low [] high :=
  ⟨.none order gap, fun _ h => absurd h List.not_mem_nil⟩

theorem placedAt (before after : List Char) {i : Nat} (inside : i < transcript.length) :
    (before ++ (transcript ++ after))[i + before.length]? = transcript[i]? := by
  rw [List.getElem?_append_right (Nat.le_add_left _ _), Nat.add_sub_cancel, List.getElem?_append_left inside]

theorem gapPlaced (before after : List Char) {low high : Nat} (bound : high ≤ transcript.length) (gap : Gap (BlankAt transcript) low high) :
    Gap (BlankAt (before ++ (transcript ++ after))) (low + before.length) (high + before.length) := by
  intro i begun ended
  have place := placedAt before after (by omega : i - before.length < transcript.length)
  rw [Nat.sub_add_cancel (by omega)] at place
  rw [BlankAt, place]
  exact gap _ (by omega) (by omega)

theorem textPlaced {start stop : Nat} (bound : stop ≤ transcript.length) :
    ((before ++ (transcript ++ after)).take (stop + before.length)).drop (start + before.length) =
      (transcript.take stop).drop start := by
  rw [Nat.add_comm stop, Nat.add_comm start, List.take_length_add_append, List.drop_length_add_append,
    List.take_append_of_le_length bound]

theorem spanStopSpec {blockEnd cursor : Nat} (positive : 0 < maxChars) (open' : cursor < blockEnd)
    (bound : blockEnd ≤ transcript.length) :
    cursor < spanStop transcript maxChars blockEnd cursor ∧ spanStop transcript maxChars blockEnd cursor ≤ blockEnd ∧
      spanStop transcript maxChars blockEnd cursor ≤ cursor + maxChars := by
  have room : cursor < min blockEnd (cursor + maxChars) := by omega
  obtain ⟨behind, within⟩ := preferredEndSpec transcript blockEnd room
  obtain ⟨-, trimmed, -⟩ := trimSpacesSpec transcript behind.le (by omega)
  unfold spanStop
  dsimp only
  split <;> omega

theorem blockCut (before after : List Char) (role : Option TranscriptRole) {blockEnd rounds cursor : Nat} (positive : 0 < maxChars) (bound : blockEnd ≤ transcript.length)
    (order : cursor ≤ blockEnd) (enough : blockEnd - cursor ≤ rounds) :
    Cut (before ++ (transcript ++ after)) maxChars (cursor + before.length)
      (blockSpans transcript maxChars before.length role blockEnd rounds cursor) (blockEnd + before.length) := by
  induction rounds generalizing cursor with
  | zero =>
    have done : cursor = blockEnd := by omega
    subst done
    exact .blank (le_refl _) .self
  | succ rounds ih =>
    rw [blockSpans]
    split
    · have done : cursor = blockEnd := by omega
      subst done
      exact .blank (le_refl _) .self
    · obtain ⟨grown, within, short⟩ := spanStopSpec positive (by omega : cursor < blockEnd) bound
      change Cut _ maxChars _ (⟨_, _, spanStop transcript maxChars blockEnd cursor + before.length, _, role⟩ ::
        blockSpans transcript maxChars before.length role blockEnd rounds
          (skipSpaces transcript (spanStop transcript maxChars blockEnd cursor) blockEnd)) _
      obtain ⟨skipped, kept, gap⟩ := skipSpacesSpec transcript within bound
      have rest := (ih kept (by omega)).behind (by omega) (gapPlaced _ _ (by omega) gap)
      refine ⟨.next (le_refl _) .self (by dsimp only; omega) rest.pieces, fun span hs => ?_⟩
      rcases List.mem_cons.mp hs with rfl | later
      · refine ⟨?_, by dsimp only; omega, rfl⟩
        dsimp only
        rw [String.toList_ofList, textPlaced (within.trans bound)]
        rfl
      · exact rest.made span later

theorem blockEnds {blockEnd rounds cursor offset more : Nat} (positive : 0 < maxChars)
    (bound : blockEnd ≤ transcript.length) (enough : blockEnd - cursor ≤ rounds) :
    blockSpans transcript maxChars offset role blockEnd (rounds + more) cursor =
      blockSpans transcript maxChars offset role blockEnd rounds cursor := by
  induction rounds generalizing cursor with
  | zero =>
    cases more with
    | zero => rfl
    | succ more =>
      rw [Nat.zero_add, blockSpans]
      exact if_pos (by omega)
  | succ rounds ih =>
    rw [Nat.add_right_comm, blockSpans, blockSpans]
    split
    · rfl
    · obtain ⟨grown, within, -⟩ := spanStopSpec positive (by omega : cursor < blockEnd) bound
      obtain ⟨skipped, -, -⟩ := skipSpacesSpec transcript within bound
      have rest : blockEnd - skipSpaces transcript (spanStop transcript maxChars blockEnd cursor) blockEnd ≤ rounds := by
        omega
      exact congrArg (List.cons _) (ih rest)

theorem textCut (before after : List Char) (role : Option TranscriptRole) {rounds position : Nat} (positive : 0 < maxChars) (order : position ≤ transcript.length)
    (enough : transcript.length - position ≤ rounds) :
    Cut (before ++ (transcript ++ after)) maxChars (position + before.length)
      (textSpansFrom transcript maxChars before.length role rounds position) (transcript.length + before.length) := by
  induction rounds generalizing position with
  | zero =>
    have done : position = transcript.length := by omega
    subst done
    exact .blank (le_refl _) .self
  | succ rounds ih =>
    obtain ⟨skipped, kept, gap⟩ := skipSpacesSpec transcript order (le_refl _)
    rw [textSpansFrom]
    generalize skipSpaces transcript position transcript.length = cursor at *
    refine Cut.behind (by omega) (gapPlaced _ _ kept gap) ?_
    split
    · have done : cursor = transcript.length := by omega
      subst done
      exact .blank (le_refl _) .self
    · split
      · rename_i start stop found
        obtain ⟨begun, grown, inside, blank⟩ := searchBlankLineSpec found
        obtain ⟨trimmed, within, space⟩ := trimSpacesSpec transcript begun (by omega)
        have block := blockCut before after role positive
          (by omega : trimSpaces transcript cursor start ≤ transcript.length) trimmed
          (by omega : _ ≤ transcript.length + 1)
        have rest := (ih inside (by omega)).behind (by omega) (gapPlaced _ _ inside (space.join blank))
        exact block.append rest
      · obtain ⟨trimmed, within, space⟩ := trimSpacesSpec transcript kept (le_refl _)
        have block := blockCut before after role positive within trimmed
          (by omega : _ ≤ transcript.length + 1)
        rw [← List.append_nil (blockSpans _ _ _ _ _ _ _)]
        exact block.append (.blank (by omega) (gapPlaced before after (le_refl _) space))

theorem textEnds {rounds position offset more : Nat} (order : position ≤ transcript.length)
    (enough : transcript.length - position ≤ rounds) :
    textSpansFrom transcript maxChars offset role (rounds + more) position =
      textSpansFrom transcript maxChars offset role rounds position := by
  induction rounds generalizing position with
  | zero =>
    have done : position = transcript.length := by omega
    subst done
    obtain ⟨skipped, -, -⟩ := skipSpacesSpec transcript order (le_refl _)
    cases more with
    | zero => rfl
    | succ more =>
      rw [Nat.zero_add, textSpansFrom]
      exact if_pos skipped
  | succ rounds ih =>
    obtain ⟨skipped, kept, -⟩ := skipSpacesSpec transcript order (le_refl _)
    rw [Nat.add_right_comm, textSpansFrom, textSpansFrom]
    generalize skipSpaces transcript position transcript.length = cursor at *
    split
    · rfl
    · split
      · rename_i start stop found
        obtain ⟨begun, grown, inside, -⟩ := searchBlankLineSpec found
        exact congrArg (_ ++ ·) (ih inside (by omega))
      · rfl

theorem blockRole {blockEnd rounds cursor offset : Nat} :
    ∀ span ∈ blockSpans transcript maxChars offset role blockEnd rounds cursor, span.role = role := by
  induction rounds generalizing cursor with
  | zero => exact fun _ h => absurd h List.not_mem_nil
  | succ rounds ih =>
    rw [blockSpans]
    split
    · exact fun _ h => absurd h List.not_mem_nil
    · intro span hs
      rcases List.mem_cons.mp hs with rfl | later
      · rfl
      · exact ih span later

theorem textRole {rounds position offset : Nat} :
    ∀ span ∈ textSpansFrom transcript maxChars offset role rounds position, span.role = role := by
  induction rounds generalizing position with
  | zero => exact fun _ h => absurd h List.not_mem_nil
  | succ rounds ih =>
    rw [textSpansFrom]
    split
    · exact fun _ h => absurd h List.not_mem_nil
    · split
      · intro span hs
        exact (List.mem_append.mp hs).elim (blockRole span) (ih span)
      · exact blockRole

theorem textSpansCut (before transcript after : List Char) (role : Option TranscriptRole) {whole : List Char} (positive : 0 < maxChars) (shape : whole = before ++ (transcript ++ after)) :
    Cut whole maxChars before.length (textSpans transcript maxChars before.length role)
      (before.length + transcript.length) := by
  subst shape
  have cut := textCut before after role positive (Nat.zero_le transcript.length)
    (by omega : _ ≤ transcript.length + 1)
  rwa [Nat.zero_add, Nat.add_comm transcript.length before.length] at cut

end Text

/-! ## Transcripts -/

def turnStart (earlier : List Turn) : Nat := (earlier.map fun turn => turn.content.length + 2).sum

def InTurn (turns : List Turn) (span : TranscriptSpan) : Prop :=
  ∃ earlier turn later, turns = earlier ++ turn :: later ∧ span.role = some turn.role ∧
    turnStart earlier ≤ span.start ∧ span.stop ≤ turnStart earlier + turn.content.length

def TranscriptInput.Attributed (span : TranscriptSpan) : TranscriptInput → Prop
  | .text _ => span.role = none
  | .turns given _ => InTurn given span

/-- The loops stop by themselves: rounds beyond those they are given change nothing. -/
structure Terminates (transcript : List Char) (maxChars : Nat) : Prop where
  text : ∀ offset role more, textSpansFrom transcript maxChars offset role (transcript.length + 1 + more) 0 =
    textSpans transcript maxChars offset role
  block : ∀ offset role blockEnd cursor more, blockEnd ≤ transcript.length →
    blockSpans transcript maxChars offset role blockEnd (transcript.length + 1 + more) cursor =
      blockSpans transcript maxChars offset role blockEnd (transcript.length + 1) cursor

def TranscriptInput.texts : TranscriptInput → List (List Char)
  | .text transcript => [transcript.toList]
  | .turns given _ => given.map fun turn => turn.content.toList

/-- The spans partition a transcript up to white space. -/
structure Partition (maxChars : Nat) (input : TranscriptInput) (spans : List TranscriptSpan) : Prop where
  terminates : ∀ text ∈ input.texts, Terminates text maxChars
  built : ∀ span ∈ spans, span.fault = none
  ordered : spans.Pairwise fun a b => a.stop ≤ b.start
  bounded : ∀ span ∈ spans, span.text.length ≤ maxChars
  named : (spans.map TranscriptSpan.spanId).Nodup
  exact : ∀ span ∈ spans, span.stop ≤ input.joined.length ∧
    span.text.toList = (input.joined.take span.stop).drop span.start
  whole : ∀ i, ∀ c ∈ input.joined[i]?, Text.isSpace c = false →
    ∃! span, span ∈ spans ∧ span.start ≤ i ∧ i < span.stop
  attributed : ∀ span ∈ spans, input.Attributed span

section Partition
variable {maxChars : Nat} {input : TranscriptInput}

theorem terminates (positive : 0 < maxChars) (transcript : List Char) : Terminates transcript maxChars where
  text _ _ _ := textEnds (Nat.zero_le _) (by omega)
  block _ _ _ _ _ bound := blockEnds positive bound (by omega)

theorem turnsTextCons {turn next : Turn} {rest : List Turn} :
    turnsText (turn :: next :: rest) = turn.content.toList ++ (['\n', '\n'] ++ turnsText (next :: rest)) := by
  rw [turnsText, List.map_cons, List.intercalate_cons_of_ne_nil (by simp), List.append_assoc]
  rfl

theorem separatorGap (before after : List Char) {whole : List Char} (shape : whole = before ++ (['\n', '\n'] ++ after)) :
    Gap (BlankAt whole) before.length (before.length + 2) := by
  have gap : Gap (BlankAt ['\n', '\n']) 0 2 := by
    intro i _ ended c found
    have newline : c = '\n' := by simpa using List.mem_of_getElem? found
    subst newline
    decide
  have placed := gapPlaced before after (le_refl _) gap
  rwa [← shape, Nat.zero_add, Nat.add_comm] at placed

theorem turnsCut (before after : List Char) {whole : List Char} {turns : List Turn} (positive : 0 < maxChars)
    (shape : whole = before ++ (turnsText turns ++ after)) :
    Cut whole maxChars before.length (turnSpans maxChars before.length turns)
      (before.length + (turnsText turns).length) := by
  induction turns generalizing before with
  | nil => exact .blank (Nat.le_add_right _ _) .self
  | cons turn rest ih =>
    have chars : turn.content.length = turn.content.toList.length := String.length_toList.symm
    cases rest with
    | nil =>
      have single : turnsText [turn] = turn.content.toList := List.intercalate_singleton
      rw [turnSpans, turnSpans, List.append_nil, single]
      exact textSpansCut _ _ _ _ positive (single ▸ shape)
    | cons next rest =>
      rw [turnsTextCons] at shape
      have first := textSpansCut before turn.content.toList _ (some turn.role) positive
        (shape.trans (by rw [List.append_assoc]))
      have gap := separatorGap (before ++ turn.content.toList) (turnsText (next :: rest) ++ after)
        (shape.trans (by simp only [List.append_assoc]))
      have later := ih (before ++ turn.content.toList ++ ['\n', '\n'])
        (shape.trans (by simp only [List.append_assoc]))
      have place : (before ++ turn.content.toList ++ ['\n', '\n']).length = before.length + turn.content.length + 2 := by
        rw [List.length_append, List.length_append, chars]
        rfl
      rw [List.length_append, ← chars] at gap
      rw [place] at later
      rw [← chars] at first
      have cut := first.append (later.behind (Nat.le_add_right _ 2) gap)
      have total : before.length + (turnsText (turn :: next :: rest)).length =
          before.length + turn.content.length + 2 + (turnsText (next :: rest)).length := by
        rw [turnsTextCons, List.length_append, List.length_append, chars]
        change _ + (_ + (2 + _)) = _
        omega
      rw [total]
      exact cut

theorem turnsAttributed {turns : List Turn} {offset : Nat} (positive : 0 < maxChars) :
    ∀ span ∈ turnSpans maxChars offset turns, ∃ earlier turn later, turns = earlier ++ turn :: later ∧
      span.role = some turn.role ∧ offset + turnStart earlier ≤ span.start ∧
        span.stop ≤ offset + turnStart earlier + turn.content.length := by
  induction turns generalizing offset with
  | nil => exact fun _ h => absurd h List.not_mem_nil
  | cons turn rest ih =>
    intro span hs
    rcases List.mem_append.mp hs with here | later
    · have cut := textSpansCut (List.replicate offset ' ') turn.content.toList [] (some turn.role) positive rfl
      rw [List.length_replicate, String.length_toList] at cut
      obtain ⟨begun, -, ended⟩ := cut.pieces.inside span here
      exact ⟨[], turn, rest, rfl, textRole span here, begun, ended⟩
    · obtain ⟨earlier, turn', behind, shape, role, begun, ended⟩ := ih span later
      have start : turnStart (turn :: earlier) = turn.content.length + 2 + turnStart earlier := List.sum_cons
      exact ⟨turn :: earlier, turn', behind, congrArg (turn :: ·) shape, role, by omega, by omega⟩

theorem transcriptCut (positive : 0 < maxChars) :
    Cut input.joined maxChars 0 (transcriptSpans maxChars input) input.joined.length := by
  cases input with
  | text transcript =>
    have cut := textSpansCut [] transcript.toList [] none positive (List.append_nil _).symm
    rwa [List.length_nil, Nat.zero_add] at cut
  | turns given some =>
    have cut := turnsCut [] [] positive (List.append_nil (turnsText given)).symm
    rwa [List.length_nil, Nat.zero_add] at cut

theorem Cut.sizes {whole : List Char} {spans : List TranscriptSpan} (cut : Cut whole maxChars 0 spans whole.length) :
    ∀ span ∈ spans, span.start < span.stop ∧ span.stop ≤ whole.length ∧ span.text.length = span.stop - span.start := by
  intro span hs
  obtain ⟨-, proper, ended⟩ := cut.pieces.inside span hs
  refine ⟨proper, ended, ?_⟩
  rw [← String.length_toList, (cut.made span hs).exact, List.length_drop, List.length_take, Nat.min_eq_left ended]

/-- Any transcript is cut into spans that can be built, and each character that is not white space lies in one. -/
theorem transcriptPartitioned (positive : 0 < maxChars) (limited : maxChars ≤ maxEvidenceChars) :
    Partition maxChars input (transcriptSpans maxChars input) := by
  have cut : Cut input.joined maxChars 0 _ _ := transcriptCut positive
  have sizes := cut.sizes
  refine {
    terminates := fun text _ => terminates positive text
    built := fun span hs => ?_
    ordered := cut.pieces.ordered
    bounded := fun span hs => (sizes span hs).2.2 ▸ (cut.made span hs).bounded
    named := List.pairwise_map.mpr (cut.pieces.ordered.imp_of_mem fun {a b} ha _ order same => ?_)
    exact := fun span hs => ⟨(sizes span hs).2.1, (cut.made span hs).exact⟩
    whole := fun i c found solid => ?_
    attributed := fun span hs => ?_ }
  · obtain ⟨proper, -, length⟩ := sizes span hs
    have made := cut.made span hs
    have small : span.text.length ≤ maxChars := length ▸ made.bounded
    have stated : span.text ≠ "" := by
      intro blank
      rw [blank, String.length_empty] at length
      omega
    rw [TranscriptSpan.fault, if_neg (not_le.mpr proper), if_neg (by simp [stated, length]),
      if_neg (not_lt.mpr (small.trans limited)), if_neg (not_not.mpr made.named)]
  · rw [(cut.made a ha).named, (cut.made b ‹_›).named] at same
    have start := spanNameStart same
    have proper := (sizes a ha).1
    omega
  · have inside : i < input.joined.length := by
      rw [Option.mem_def] at found
      exact (List.getElem?_eq_some_iff.mp found).1
    refine cut.pieces.exactlyOne (Nat.zero_le i) inside fun blank => ?_
    rw [blank c found] at solid
    cases solid
  · cases input with
    | text transcript => exact textRole span hs
    | turns given some =>
      obtain ⟨earlier, turn, later, shape, role, begun, ended⟩ := turnsAttributed positive span hs
      exact ⟨earlier, turn, later, shape, role, by omega, by omega⟩

end Partition

namespace Example

def schedule : TranscriptInput :=
  .turns [⟨.user, "Backups run on Tuesday.\n\n Restores are tested monthly. ", by decide⟩,
    ⟨.assistant, "Noted.", by decide⟩] (by decide)

theorem transcriptPartitionedHere : Partition 24 schedule (transcriptSpans 24 schedule) :=
  transcriptPartitioned (by decide) (by decide)

example : (transcriptSpans 24 schedule).map (fun span => (span.spanId, span.text)) =
    [("span-000000-000023", "Backups run on Tuesday."), ("span-000026-000050", "Restores are tested mont"),
      ("span-000050-000054", "hly."), ("span-000057-000063", "Noted.")] := by decide +kernel

end Example

end Enfold
