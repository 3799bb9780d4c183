import Enfold.Runtime

/-! Polarity and value-swap detection between two claims in prose. Sets of tokens are lists
read through membership. -/
namespace Enfold

namespace Words

def stopwords : List String :=
  ["a", "an", "the", "is", "are", "was", "were", "be", "been", "being", "am", "of", "to", "in",
   "on", "at", "for", "and", "or", "with", "by", "as", "it", "its", "this", "that", "these",
   "those", "from", "into", "over", "under", "has", "have", "had", "do", "does", "did", "will",
   "would", "can", "could", "should", "may", "might", "must", "not", "no"]

def stateWordGroups : List (List String) :=
  [["enabled", "disabled"], ["active", "inactive", "archived"], ["on", "off"],
   ["open", "closed"], ["paused", "resumed"], ["up", "down"], ["alive", "dead"],
   ["started", "stopped"]]

def negationWords : List String := ["not", "no", "never", "without"]

def stateFrameWords : List String :=
  ["is", "are", "was", "were", "uses", "use", "used", "using", "prefers", "prefer", "preferred",
   "runs", "run", "running"]

def suffixes : List String := ["ation", "ing", "ed", "ic", "ion", "s"]

def meets (a b : List String) : Bool := a.any b.contains
def minus (a b : List String) : List String := a.filter fun token => !b.contains token
def inter (a b : List String) : List String := a.filter b.contains
def sameSet (a b : List String) : Bool := a.all b.contains && b.all a.contains

/-- `token[:-len(suffix)]` when the token ends in the suffix and is long enough to keep a
stem of three letters. -/
def stem (token suffix : String) : Option String :=
  match Text.after suffix.toList.reverse token.toList.reverse with
  | some rest => if 2 < rest.length then some (String.ofList rest.reverse) else none
  | none => none

end Words

open Words Text

def contentTokens (text : String) : List String := minus (normTokenSequence text) stopwords

def stateWords (text : String) : List String := inter (contentTokens text) stateWordGroups.flatten

def negations (text : String) : List String := inter (normTokenSequence text) negationWords

def hasDigit (token : String) : Bool := token.toList.any isDigitAscii

def valueTokens (text : String) : List String := (normTokenSequence text).filter hasDigit

def subjectishTokens (text : String) : List String :=
  let tokens := minus (contentTokens text) stateWordGroups.flatten
  tokens ++ tokens.flatMap fun token => suffixes.filterMap (stem token)

def hasSubjectishOverlap (content other : String) : Bool :=
  meets (subjectishTokens content) (subjectishTokens other)

def hasOpposingStateWords (content other : String) : Bool :=
  hasSubjectishOverlap content other &&
    stateWordGroups.any fun group =>
      let a := inter (stateWords content) group
      let b := inter (stateWords other) group
      a ≠ [] && b ≠ [] && !sameSet a b

def hasNegationMismatch (content other : String) : Bool :=
  hasSubjectishOverlap content other && (negations content).isEmpty != (negations other).isEmpty

def isValueUpdate (content other : String) : Bool :=
  let a := valueTokens content
  let b := valueTokens other
  if a = b || a = [] || b = [] then
    hasOpposingStateWords content other || hasNegationMismatch content other
  else
    sameSet (minus (minus (contentTokens content) a) (stateWords content))
      (minus (minus (contentTokens other) b) (stateWords other))

/-- The longest common prefix of two token sequences, and the two tails behind it. -/
def commonPrefix : List String → List String → List String × List String × List String
  | a :: as, b :: bs =>
    if a = b then
      let (shared, left, right) := commonPrefix as bs
      (a :: shared, left, right)
    else ([], a :: as, b :: bs)
  | left, right => ([], left, right)

/-- Two claims share a prefix frame and replace the trailing value. -/
def isSuffixValueSubstitution (left right : String) : Bool :=
  let (shared, leftTail, rightTail) :=
    commonPrefix (normTokenSequence left) (normTokenSequence right)
  hasSubjectishOverlap left right && 2 ≤ shared.length && leftTail ≠ [] && rightTail ≠ [] &&
    !meets leftTail rightTail && !meets leftTail stateFrameWords &&
    !meets rightTail stateFrameWords &&
    (3 ≤ shared.length ||
      minus (inter shared stateFrameWords) ["is", "are", "was", "were"] ≠ [] ||
      (leftTail.all hasDigit && rightTail.all hasDigit))

def hasStateFrame (text : String) : Bool := meets (normTokenSequence text) stateFrameWords

/-- Subject-like tokens after polarity words, collapsed to shared stems. -/
def untypedClaimResidue (text : String) : List String :=
  let pool := minus (subjectishTokens text) ["never", "without"]
  pool.map fun token =>
    ((suffixes.filterMap (stem token)).find? pool.contains).getD token

def untypedContentsContradict (left right : String) : Bool :=
  if hasOpposingStateWords left right || hasNegationMismatch left right then
    let a := untypedClaimResidue left
    a ≠ [] && sameSet a (untypedClaimResidue right)
  else
    hasStateFrame left && hasStateFrame right &&
      (isValueUpdate left right || isSuffixValueSubstitution left right)

/-! ## Slot keys -/

def isSubjectKey (text : List Char) : Bool :=
  shaped isWordChar
    (fun c => isWordChar c || c = '.' || c = '_' || c = ':' || c = '/' || c = '-') 128 text

def isPredicateKey (text : List Char) : Bool :=
  shaped isWordChar (fun c => isWordChar c || c = '.' || c = '_' || c = '-') 64 text

def normalizeSubjectKey (value : String) : Except Raised String :=
  let normalized := collapse isSpace '_' (casefold (strip value).toList)
  if isSubjectKey normalized then .ok (String.ofList normalized)
  else .error ⟨.valueError, "subject_key is not a canonical slot key"⟩

def normalizePredicateKey (value : String) : Except Raised String :=
  let normalized := collapse (fun c => isSpace c || c = '-') '_' (casefold (strip value).toList)
  if isPredicateKey normalized then .ok (String.ofList normalized)
  else .error ⟨.valueError, "predicate_key is not a canonical slot key"⟩

def canonicalSharedToken (token : String) (subjectish : List String) : Option String :=
  if subjectish.contains token then some token
  else (suffixes.filterMap (stem token)).find? subjectish.contains

/-- Label a dispute from shared subject-like tokens, never from a lone word. -/
def guessUntypedConflictSlot (left right : String) : Except Raised (String × String) := do
  let subjectish := subjectishTokens right
  let shared := ((normTokenSequence left).filterMap (canonicalSharedToken · subjectish)).reverse
    |>.dedup |>.reverse
  let (subject, predicate) := match shared with
    | [] => ("untyped", "claim")
    | [only] => (only, "claim")
    | many => (".".intercalate many.dropLast, many.getLast?.getD "")
  let subject ← normalizeSubjectKey (String.ofList (subject.toList.take 128))
  let predicate ← normalizePredicateKey (String.ofList (predicate.toList.take 64))
  .ok (subject, predicate)

example : untypedContentsContradict "Service port is 80" "Service port is 81" = true := by decide
example : untypedContentsContradict "load memory 1" "load memory 2" = false := by decide

end Enfold
