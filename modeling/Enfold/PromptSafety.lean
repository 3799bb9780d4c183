import Mathlib.Data.List.Dedup
import Enfold.Runtime

/-! Why an automatic proposal is no durable memory: it echoes a prompt example, gives orders to the
model that reads it, or is a task. -/
namespace Enfold

/-- What the classifiers take from the Unicode database. -/
structure UnicodeText where
  /-- `unicodedata.normalize("NFKC", text)`. -/
  nfkc : String → String
  /-- `unicodedata.category(character) == "Cf"`. -/
  isFormat : Char → Bool
  lower : List Char → List Char
  isAlnum : Char → Bool

variable (rt : Runtime) (unicode : UnicodeText)

def structuralInjection : String :=
  "(?i)(?:(?:^|\\n)[ \\t]*(?:[#>*-]+[ \\t]*)?(?:system|developer|assistant)\\s*" ++
    "(?:(?:message|prompt|instructions?)\\s*)?:|\\[(?:/?inst|system)\\]" ++
    "|<\\/?(?:system|developer|assistant)(?:\\s|>))"

def leadingControl : String :=
  "(?i)^\\s*(?:ignore|disregard|forget|override|bypass|follow|obey)\\b" ++
    ".\x7b0,96\x7d\\b(?:instructions?|prompt|rules?|policy|memory)\\b"

def exfiltration : String :=
  "(?i)\\b(?:reveal|expose|exfiltrate|disclose)\\b" ++
    ".\x7b0,64\x7d\\b(?:secrets?|private\\s+data|hidden\\s+instructions?)\\b"

def taskShape : String := "(?is)^\\s*(?:pitch\\b|todo\\b|action items?:)"

def promptExampleContents : List String :=
  ["Dana now works at Northwind.", "Dana prefers split keyboards.",
    "Dana no longer lives in Springfield."]

def echoStopwords : List String := ["a", "an", "as", "at", "in", "longer", "no", "now", "the"]

-- `_HOMOGLYPH_FOLD`
def homoglyphFold (c : Char) : Char :=
  match c.toNat with
  | 0x430 | 0x410 => 'a'
  | 0x435 | 0x415 => 'e'
  | 0x43E | 0x41E => 'o'
  | 0x440 | 0x420 => 'p'
  | 0x441 | 0x421 => 'c'
  | 0x443 | 0x423 => 'y'
  | 0x445 | 0x425 => 'x'
  | 0x456 | 0x406 => 'i'
  | _ => c

def normalizedPromptText (value : String) : List Char :=
  (unicode.nfkc value).toList.filter (!unicode.isFormat ·)

def echoLowered (content : String) : List Char :=
  unicode.lower ((normalizedPromptText unicode content).map homoglyphFold)

def echoAlnumKey (content : String) : List Char := (echoLowered unicode content).filter unicode.isAlnum

def echoTokens (content : String) : List String :=
  ((Text.runs unicode.isAlnum (echoLowered unicode content)).map String.ofList).dedup

def textWithin (part whole : List Char) : Bool := (Text.afterFirst part whole).isSome

-- `len(shared) / len(union) >= 0.65` on counts below the reach of rounding
def echoesExample (content sample : String) : Bool :=
  let key := echoAlnumKey unicode content
  let exampleKey := echoAlnumKey unicode sample
  let tokens := (echoTokens unicode content).filter (!echoStopwords.contains ·)
  let exampleTokens := (echoTokens unicode sample).filter (!echoStopwords.contains ·)
  let shared := (tokens.filter exampleTokens.contains).length
  let union := (tokens ++ exampleTokens).dedup.length
  exampleKey ≠ [] && (textWithin exampleKey key || textWithin key exampleKey ||
    (exampleTokens ≠ [] && 3 ≤ shared && 13 * union ≤ 20 * shared))

/-- Why a proposal is a near-echo of a few-shot prompt example. -/
def promptExampleEchoReason (content : String) : Option String :=
  if echoAlnumKey unicode content = [] then none
  else if promptExampleContents.any (echoesExample unicode content) then some "prompt_example_echo"
  else none

def extractionInstructionShaped (content : String) : Bool :=
  let text := String.ofList (normalizedPromptText unicode content)
  Text.strip text = "" || rt.search structuralInjection text || rt.search leadingControl text ||
    rt.search exfiltration text

def taskShaped (content : String) : Bool :=
  rt.search taskShape (String.ofList (normalizedPromptText unicode content))

def ephemeralExtractionReason (content : String) : Option String :=
  if (promptExampleEchoReason unicode content).isSome then some "prompt_example_echo"
  else if extractionInstructionShaped rt unicode content then some "instruction_shaped_content"
  else if taskShaped rt unicode content then some "task_shaped_content"
  else none

end Enfold
