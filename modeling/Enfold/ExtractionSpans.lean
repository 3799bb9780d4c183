import Enfold.Text

/-! The exact-source spans of a transcript: bounded pieces of its blocks, each named by its offsets.
Text is a list of characters here, and an offset counts characters. -/
namespace Enfold

def maxEvidenceChars : Nat := 2000
def minBoundarySearchChars : Nat := 64

inductive TranscriptRole where
  | user | assistant | tool
  deriving DecidableEq, Repr

def TranscriptRole.name : TranscriptRole → String
  | .user => "user"
  | .assistant => "assistant"
  | .tool => "tool"

structure Turn where
  role : TranscriptRole
  content : String
  stated : Text.strip content ≠ ""

inductive TranscriptInput where
  | text (transcript : String)
  | turns (turns : List Turn) (some : turns ≠ [])

structure TranscriptSpan where
  spanId : String
  start : Nat
  stop : Nat
  text : String
  role : Option TranscriptRole
  deriving DecidableEq, Repr

-- `text.rfind(sub, start, stop)`
def rfind (sub text : List Char) (start stop : Nat) : Option Nat :=
  (List.range' start (stop - start)).reverse.find? fun i =>
    i + sub.length ≤ stop && sub.isPrefixOf (text.drop i)

-- every separator ends in white space, and the first character of it stays in the span
def preferredEnd (transcript : List Char) (start hardEnd blockEnd : Nat) : Nat :=
  if hardEnd = blockEnd then hardEnd
  else
    let minimum := min hardEnd (start + minBoundarySearchChars)
    match ["\n\n", "\n", ". ", "? ", "! "].findSome? fun separator =>
      rfind separator.toList transcript minimum hardEnd with
    | some boundary => boundary + 1
    | none => hardEnd

-- from `low` past the white space that starts there, up to `high`
def skipSpaces (text : List Char) (low high : Nat) : Nat :=
  low + (((text.take high).drop low).takeWhile Text.isSpace).length

-- from `high` back over the white space that ends there, down to `low`
def trimSpaces (text : List Char) (low high : Nat) : Nat :=
  high - (((text.take high).drop low).rtakeWhile Text.isSpace).length

def newline : List Char → Option (List Char)
  | '\r' :: '\n' :: rest => some rest
  | '\n' :: rest => some rest
  | _ => none

-- `\r?\n[ \t]*\r?\n` at the head of a text, with what follows
def blankLine (text : List Char) : Option (List Char) := do
  let rest ← newline text
  newline (rest.dropWhile fun c => c = ' ' || c = '\t')

-- the first blank line from a position on: where it starts and where it ends
def searchBlankLine : List Char → Nat → Option (Nat × Nat)
  | [], _ => none
  | c :: text, position => match blankLine (c :: text) with
    | some rest => some (position, position + ((c :: text).length - rest.length))
    | none => searchBlankLine text (position + 1)

def sixDigits (n : Nat) : String :=
  String.ofList (List.replicate (6 - (toString n).length) '0' ++ (toString n).toList)

def spanName (start stop : Nat) : String := "span-" ++ sixDigits start ++ "-" ++ sixDigits stop

section Spans
variable (transcript : List Char) (maxChars offset : Nat) (role : Option TranscriptRole)

-- the inner loop, for at most as many rounds as the first argument
def blockSpans (blockEnd : Nat) : Nat → Nat → List TranscriptSpan
  | 0, _ => []
  | rounds + 1, cursor =>
    if blockEnd ≤ cursor then []
    else
      let hardEnd := min blockEnd (cursor + maxChars)
      let readable := trimSpaces transcript cursor (preferredEnd transcript cursor hardEnd blockEnd)
      let stop := if readable ≤ cursor then hardEnd else readable
      ⟨spanName (cursor + offset) (stop + offset), cursor + offset, stop + offset,
        String.ofList ((transcript.take stop).drop cursor), role⟩ ::
        blockSpans blockEnd rounds (skipSpaces transcript stop blockEnd)

-- the outer loop; a round takes at least one character
def textSpansFrom : Nat → Nat → List TranscriptSpan
  | 0, _ => []
  | rounds + 1, position =>
    let cursor := skipSpaces transcript position transcript.length
    if transcript.length ≤ cursor then []
    else match searchBlankLine (transcript.drop cursor) cursor with
      | some (start, stop) =>
        blockSpans transcript maxChars offset role (trimSpaces transcript cursor start)
          (transcript.length + 1) cursor ++ textSpansFrom rounds stop
      | none =>
        blockSpans transcript maxChars offset role (trimSpaces transcript cursor transcript.length)
          (transcript.length + 1) cursor

-- `_text_spans`
def textSpans : List TranscriptSpan :=
  textSpansFrom transcript maxChars offset role (transcript.length + 1) 0

end Spans

def turnSpans (maxChars : Nat) : Nat → List Turn → List TranscriptSpan
  | _, [] => []
  | offset, turn :: rest =>
    textSpans turn.content.toList maxChars offset (some turn.role) ++
      turnSpans maxChars (offset + turn.content.length + 2) rest

/-- Ordered, bounded spans with identifiers derived from their offsets. -/
def transcriptSpans (maxChars : Nat) : TranscriptInput → List TranscriptSpan
  | .text transcript => textSpans transcript.toList maxChars 0 none
  | .turns turns _ => turnSpans maxChars 0 turns

/-- The spans admitted to automatic extraction. -/
def eligibleTranscriptSpans (spans : List TranscriptSpan) : List TranscriptSpan :=
  spans.filter fun span => span.role = some .user

end Enfold
