import Mathlib.Algebra.Order.Ring.Unbundled.Rat
import Mathlib.Data.Finset.Card
import Mathlib.Data.List.Sort
import Enfold.Foundation.TopCluster
import Enfold.Runtime

/-! What the retriever reads off a text: its token set, the names a query asks for, the compound
spellings a document answers them with, and the person a document opens with. -/
namespace Enfold

variable (rt : Runtime)

-- `_tokens`
def tokens (text : String) : Finset String := (Text.normTokenSequence text).toFinset

/-- The terms of `_fts_query`, which joins them by `OR`. -/
def ftsTerms (query : String) : List String :=
  (Text.normTokenSequence query).dedup.insertionSort (· ≤ ·)

-- `_MONTH_ALIASES`, in its own order
def monthAliases : List (String × String) :=
  [("jan", "january"), ("feb", "february"), ("mar", "march"), ("apr", "april"), ("jun", "june"),
    ("jul", "july"), ("aug", "august"), ("sep", "september"), ("sept", "september"),
    ("oct", "october"), ("nov", "november"), ("dec", "december")]

def monthWords : List String :=
  ["january", "february", "march", "april", "may", "june", "july", "august", "september", "october",
    "november", "december"] ++ monthAliases.map Prod.fst

def sentenceOpeners : List String :=
  ["A", "An", "Are", "Can", "Could", "Did", "Do", "Does", "Find", "Give", "How", "I", "Is", "Kindly",
    "May", "Me", "My", "Our", "Please", "Should", "Show", "Tell", "The", "Us", "Was", "Were", "What",
    "When", "Where", "Which", "Who", "Whom", "Whose", "Why", "Will", "Would", "You", "Your"]

def leadingRequestVerbs : List String := ["Find", "Give", "Show", "Tell"]

def genericTitleWords : Finset String := {"project"}

def isLetterAscii (c : Char) : Bool := Text.isLowerAscii c || Text.isUpperAscii c

-- `[A-Za-z0-9_-]`
def isNameChar (c : Char) : Bool := isLetterAscii c || Text.isDigitAscii c || c = '_' || c = '-'

-- `\d`
def isDecimal (c : Char) : Bool := (rt.decimal c).isSome

/-- `_WORD_RE.findall`: words that start with a letter, and runs of digits. -/
def wordRuns : Nat → List Char → List (List Char)
  | 0, _ => []
  | _, [] => []
  | fuel + 1, c :: rest =>
    if isLetterAscii c then
      (c :: rest.takeWhile isNameChar) :: wordRuns fuel (rest.dropWhile isNameChar)
    else if isDecimal rt c then
      (c :: rest.takeWhile (isDecimal rt)) :: wordRuns fuel (rest.dropWhile (isDecimal rt))
    else wordRuns fuel rest

def words (text : String) : List (List Char) := wordRuns rt text.length text.toList

/-- `re.split("[-_]", word)`. -/
def splitWord : List Char → List (List Char)
  | [] => [[]]
  | c :: cs =>
    if c = '-' || c = '_' then [] :: splitWord cs
    else match splitWord cs with
      | part :: parts => (c :: part) :: parts
      | [] => [[c]]

-- a later part of a word counts when it is capitalized or a number
def namePart (part : List Char × Nat) : List String :=
  if part.1 ≠ [] && (part.2 = 0 || part.1.head?.any Text.isUpperAscii || part.1.all Text.isDigitAscii) then
    Text.normTokenSequence (String.ofList part.1)
  else []

/-- Whether a word at this place of the query, after these anchors, names something. -/
def namesAnchor (index : Nat) (anchors : List String) (word : List Char) : Bool :=
  word.head?.any Text.isUpperAscii && word ≠ ['I'] &&
    !monthWords.contains (String.ofList (Text.lower (String.ofList word))) &&
    !(index = 0 && sentenceOpeners.contains (String.ofList word)) &&
    !(anchors = [] && leadingRequestVerbs.contains (String.ofList word))

def gatherAnchors (anchors : List String) : List (List Char × Nat) → List String
  | [] => anchors
  | (word, index) :: rest =>
    if namesAnchor index anchors word then
      gatherAnchors (anchors ++ (splitWord word).zipIdx.flatMap namePart) rest
    else gatherAnchors anchors rest

def namedAnchorTokens (text : String) : Finset String :=
  (gatherAnchors [] (words rt text).zipIdx).toFinset

def withAlias (spellings : Finset String) (month : String × String) : Finset String :=
  let spellings := if month.1 ∈ spellings then insert month.2 spellings else spellings
  if month.2 ∈ spellings then insert month.1 spellings else spellings

def compounds (width : Nat) (sequence : List String) : List String :=
  (List.range (sequence.length + 1 - width)).map fun offset =>
    String.join ((sequence.drop offset).take width)

/-- `_anchor_match_tokens`. -/
def anchorMatchTokens (text : String) : Finset String :=
  let sequence := Text.normTokenSequence text
  monthAliases.foldl withAlias sequence.toFinset ∪ (compounds 2 sequence).toFinset ∪
    (compounds 3 sequence).toFinset

/-- Generic title words count only where nothing else is named. -/
def distinctiveNames (anchors : Finset String) : Finset String :=
  let distinctive := anchors \ genericTitleWords
  if distinctive ≠ ∅ ∧ distinctive ≠ anchors then distinctive else anchors

section Anchors
variable {α : Type} (anchors : Finset String) (textOf : α → String)

def anchorHits (names : Finset String) (item : α) : Nat := (names ∩ anchorMatchTokens (textOf item)).card

/-- Keep the items that hold every anchor; when none does, those that hold the most of them. -/
def selectNamedAnchorMatches (items : List α) : List α :=
  if anchors = ∅ then items
  else
    let exact := items.filter fun item => anchorHits textOf anchors item = anchors.card
    if exact ≠ [] then exact
    else
      let hits := anchorHits textOf (distinctiveNames anchors)
      if TopCluster.top hits items = 0 then []
      else items.filter fun item => hits item = TopCluster.top hits items

/-! The selection is the top cluster of one grade, in which an exact match stands above the others. -/

def anchorGrade (item : α) : Nat :=
  if anchorHits textOf anchors item = anchors.card then anchors.card + 1
  else anchorHits textOf (distinctiveNames anchors) item

variable {anchors textOf} {items part first second pool : List α} {x : α}

theorem hitsBound (textOf : α → String) (names : Finset String) (item : α) : anchorHits textOf names item ≤ names.card :=
  Finset.card_le_card Finset.inter_subset_left

theorem distinctiveBound (anchors : Finset String) : (distinctiveNames anchors).card ≤ anchors.card := by
  unfold distinctiveNames
  dsimp only
  split
  · exact Finset.card_le_card Finset.sdiff_subset
  · exact Nat.le_refl _

theorem gradeBound (item : α) : anchorGrade anchors textOf item ≤ anchors.card + 1 := by
  unfold anchorGrade
  split
  · exact Nat.le_refl _
  · have hits := hitsBound textOf (distinctiveNames anchors) item
    have names := distinctiveBound anchors
    omega

theorem gradeExact (item : α) :
    anchorGrade anchors textOf item = anchors.card + 1 ↔ anchorHits textOf anchors item = anchors.card := by
  unfold anchorGrade
  split
  · rename_i exact
    exact ⟨fun _ => exact, fun _ => rfl⟩
  · rename_i other
    have hits := hitsBound textOf (distinctiveNames anchors) item
    have names := distinctiveBound anchors
    constructor
    · intro same
      omega
    · intro same
      exact absurd same other

theorem selectGraded (named : anchors ≠ ∅) (items : List α) :
    selectNamedAnchorMatches anchors textOf items = TopCluster.cluster (anchorGrade anchors textOf) items := by
  unfold selectNamedAnchorMatches
  rw [if_neg named]
  dsimp only
  split
  · rename_i some
    obtain ⟨x, hx⟩ := List.exists_mem_of_ne_nil _ some
    rw [List.mem_filter, decide_eq_true_eq] at hx
    have top : TopCluster.top (anchorGrade anchors textOf) items = anchors.card + 1 :=
      TopCluster.topIs (fun y _ => gradeBound y) ⟨x, hx.1, (gradeExact x).mpr hx.2⟩
    rw [TopCluster.cluster, top, if_neg (Nat.succ_ne_zero _)]
    exact List.filter_congr fun y _ => decide_eq_decide.mpr (gradeExact y).symm
  · rename_i none
    have inexact (y) (hy : y ∈ items) :
        anchorGrade anchors textOf y = anchorHits textOf (distinctiveNames anchors) y := by
      refine if_neg fun exact => none fun empty => ?_
      exact List.not_mem_nil (empty ▸ List.mem_filter.mpr ⟨hy, decide_eq_true exact⟩)
    have top : TopCluster.top (anchorGrade anchors textOf) items =
        TopCluster.top (anchorHits textOf (distinctiveNames anchors)) items := by
      rw [TopCluster.top, TopCluster.top, List.map_congr_left inexact]
    rw [TopCluster.cluster, top]
    congr 1
    refine List.filter_congr fun y hy => ?_
    rw [inexact y hy]

theorem selectWithin (chosen : x ∈ selectNamedAnchorMatches anchors textOf items) : x ∈ items := by
  by_cases named : anchors = ∅
  · rwa [selectNamedAnchorMatches, if_pos named] at chosen
  · rw [selectGraded named] at chosen
    exact (TopCluster.clusterMem.mp chosen).1

theorem selectInherited (chosen : x ∈ selectNamedAnchorMatches anchors textOf items)
    (within : ∀ y ∈ part, y ∈ items) (inside : x ∈ part) :
    x ∈ selectNamedAnchorMatches anchors textOf part := by
  by_cases named : anchors = ∅
  · rwa [selectNamedAnchorMatches, if_pos named]
  · rw [selectGraded named] at chosen ⊢
    exact TopCluster.inherited chosen within inside

theorem selectCongr (same : ∀ y, y ∈ part ↔ y ∈ items) :
    x ∈ selectNamedAnchorMatches anchors textOf part ↔ x ∈ selectNamedAnchorMatches anchors textOf items := by
  by_cases named : anchors = ∅
  · simp only [selectNamedAnchorMatches, if_pos named]
    exact same x
  · simp only [selectGraded named, TopCluster.clusterMem, same]

theorem selectPooled (firsts : ∀ y ∈ first, y ∈ items) (seconds : ∀ y ∈ second, y ∈ items)
    (held : ∀ y, y ∈ pool ↔ y ∈ selectNamedAnchorMatches anchors textOf first ∨ y ∈ second)
    (covered : ∀ y ∈ selectNamedAnchorMatches anchors textOf items, y ∈ first ∨ y ∈ second) :
    x ∈ selectNamedAnchorMatches anchors textOf pool ↔ x ∈ selectNamedAnchorMatches anchors textOf items := by
  by_cases named : anchors = ∅
  · simp only [selectNamedAnchorMatches, if_pos named] at held covered ⊢
    rw [held]
    exact ⟨fun inside => inside.elim (firsts x) (seconds x), covered x⟩
  · simp only [selectGraded named] at held covered ⊢
    exact TopCluster.pooled firsts seconds held covered

theorem selectSome (some : selectNamedAnchorMatches anchors textOf part ≠ [])
    (within : ∀ y ∈ part, y ∈ items) : selectNamedAnchorMatches anchors textOf items ≠ [] := by
  obtain ⟨x, hx⟩ := List.exists_mem_of_ne_nil _ some
  by_cases named : anchors = ∅
  · rw [selectNamedAnchorMatches, if_pos named] at hx ⊢
    exact List.ne_nil_of_mem (within x hx)
  · rw [selectGraded named] at hx ⊢
    obtain ⟨inside, counts, -⟩ := TopCluster.clusterMem.mp hx
    intro none
    have zero := TopCluster.clusterNone none (within x inside)
    omega

theorem selectSublist : (selectNamedAnchorMatches anchors textOf items).Sublist items := by
  unfold selectNamedAnchorMatches
  dsimp only
  split
  · exact List.Sublist.refl _
  · split
    · exact List.filter_sublist
    · split
      · exact List.nil_sublist _
      · exact List.filter_sublist

end Anchors

def jaccard (left right : Finset String) : Rat :=
  if left = ∅ ∨ right = ∅ then 0 else ((left ∩ right).card : Rat) / (left ∪ right).card

def queryCoverage (query document : Finset String) : Rat :=
  if query = ∅ then 0 else ((query ∩ document).card : Rat) / query.card

/-! ## The subject a text opens with -/

-- `[A-Za-z0-9'-]`
def isPersonChar (c : Char) : Bool := isLetterAscii c || Text.isDigitAscii c || c = Char.ofNat 39 || c = '-'

def personName : List Char → Option (List Char × List Char)
  | [] => none
  | c :: rest =>
    let body := rest.takeWhile isPersonChar
    if Text.isUpperAscii c && body ≠ [] then some (c :: body, rest.dropWhile isPersonChar) else none

/-- A name with those joined to it by `/`. -/
def joinedNames : Nat → List Char → Option (List Char × List Char)
  | 0, _ => none
  | fuel + 1, text => match personName text with
    | none => none
    | some (name, '/' :: rest) => match joinedNames fuel rest with
      | some (names, rest) => some (name ++ '/' :: names, rest)
      | none => some (name, '/' :: rest)
    | some found => some found

/-- At most this many further words of the run, each after white space. -/
def furtherNames : Nat → List Char → List (List Char) × List Char
  | 0, text => ([], text)
  | more + 1, text =>
    let ahead := text.dropWhile Text.isSpace
    if ahead.length = text.length then ([], text)
    else match joinedNames ahead.length ahead with
      | none => ([], text)
      | some (word, rest) =>
        let further := furtherNames more rest
        (word :: further.1, further.2)

/-- `_LEADING_PERSON_RE.match`: the words of the opening run, and what follows it. -/
def leadingNames (text : List Char) : Option (List (List Char) × List Char) :=
  let ahead := text.dropWhile Text.isSpace
  match joinedNames ahead.length ahead with
  | none => none
  | some (word, rest) =>
    let further := furtherNames 3 rest
    some (word :: further.1, further.2)

/-- What closes an imported topic, `closing` being the text after its title. -/
def afterTopic (closing : List Char) : Option (List Char) := do
  let aside ← Text.after "` (".toList closing
  let rest ← Text.after "):".toList (aside.dropWhile (· ≠ ')'))
  some (rest.dropWhile Text.isSpace)

/-- `_IMPORTED_TOPIC_RE.match`: the longest title that closes, and what follows the topic. -/
def importedTopic (text : List Char) : Option (List Char × List Char) := do
  let opened ← Text.after "Claude Code memory topic `".toList (text.dropWhile Text.isSpace)
  let line := opened.takeWhile fun c => c ≠ '\r' && c ≠ '\n'
  (List.range (line.length + 1)).reverse.findSome? fun n =>
    (afterTopic (opened.drop n)).map fun rest => (opened.take n, rest)

def decimals (count : Nat) (text : List Char) : Option (List Char) :=
  if (text.take count).length = count && (text.take count).all (isDecimal rt) then some (text.drop count)
  else none

/-- `_AS_OF_DATE_RE.match`, with what follows. -/
def afterAsOfDate (text : List Char) : Option (List Char) := do
  let rest ← Text.after "As of ".toList (text.dropWhile Text.isSpace)
  let rest ← Text.after ['-'] (← decimals rt 4 rest)
  let rest ← Text.after ['-'] (← decimals rt 2 rest)
  let rest ← Text.after [','] (← decimals rt 2 rest)
  some (rest.dropWhile Text.isSpace)

def skipOpeners : Nat → List Char → List (List Char)
  | 0, _ => []
  | fuel + 1, text => match leadingNames text with
    | none => []
    | some (names, rest) =>
      if names.head?.any fun word => (sentenceOpeners ++ leadingRequestVerbs).contains (String.ofList word) then
        skipOpeners fuel (rest.dropWhile Text.isSpace)
      else names

/-- Return the opening proper-name run, skipping sentence openers. -/
def leadingPersonTokens (text : String) : Finset String :=
  let stripped := Text.stripWith Text.isSpace text.toList
  let body := ((importedTopic stripped).map Prod.snd).getD stripped
  let body := (afterAsOfDate rt body).getD body
  ((skipOpeners body.length body).flatMap fun word => Text.normTokenSequence (String.ofList word)).toFinset

def subjectScore (anchors subject : Finset String) : Rat :=
  if subject = ∅ then 1 / 2
  else if subject ⊆ anchors ∨ anchors ⊆ subject then 1
  else if Disjoint anchors subject ∧ 2 ≤ subject.card then 0
  else 1 / 2

/-- Score whether the query names the fact's subject, not a later mention. -/
def namedSubjectScore (anchors : Finset String) (content : String) : Rat :=
  if anchors = ∅ then 0
  else
    let opening := subjectScore anchors (leadingPersonTokens rt content)
    match importedTopic content.toList with
    | none => opening
    | some (title, _) => max opening (subjectScore anchors (tokens (String.ofList title) \ genericTitleWords))

end Enfold
