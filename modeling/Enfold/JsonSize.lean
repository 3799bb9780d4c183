import Mathlib.Algebra.GroupWithZero.Nat
import Mathlib.Algebra.Order.BigOperators.Group.List
import Mathlib.Algebra.Order.Group.Nat
import Enfold.JsonText

/-! How long the printed text of a JSON value is, in characters or in bytes. A container adds up what
it holds, so it is never shorter for holding more. -/
namespace Enfold

/-- What a character counts; an ASCII character counts one. -/
structure CharWeight where
  of : Char → Nat
  ascii : ∀ c : Char, c.toNat < 128 → of c = 1

namespace CharWeight

def characters : CharWeight := ⟨fun _ => 1, fun _ _ => rfl⟩

theorem asciiSize {c : Char} (ascii : c.toNat < 128) : c.utf8Size = 1 := by
  have small : c.val ≤ 0x7f := by
    rw [UInt32.le_iff_toNat_le]
    exact Nat.le_of_lt_succ ascii
  exact if_pos small

def bytes : CharWeight := ⟨Char.utf8Size, fun _ => asciiSize⟩

def width (w : CharWeight) (text : List Char) : Nat := (text.map w.of).sum

variable {w : CharWeight} {a b text : List Char} {c : Char}

@[simp]
theorem widthNil : w.width [] = 0 := rfl

theorem widthCons : w.width (c :: text) = w.of c + w.width text := by
  rw [width, List.map_cons, List.sum_cons, width]

@[simp]
theorem widthAppend : w.width (a ++ b) = w.width a + w.width b := by
  rw [width, List.map_append, List.sum_append, width, width]

theorem widthAscii (ascii : ∀ c ∈ text, c.toNat < 128) : w.width text = text.length := by
  induction text with
  | nil => rfl
  | cons c text ih =>
    rw [widthCons, w.ascii c (ascii c List.mem_cons_self), ih fun d inside => ascii d (List.mem_cons_of_mem c inside),
      List.length_cons, Nat.add_comm]

theorem widthWord (word : String) (ascii : (word.toList.all fun c => decide (c.toNat < 128)) = true) :
    w.width word.toList = word.toList.length :=
  widthAscii fun c inside => of_decide_eq_true (List.all_eq_true.mp ascii c inside)

@[simp]
theorem widthCharacters : characters.width text = text.length := by
  induction text with
  | nil => rfl
  | cons c text ih => rw [widthCons, ih, List.length_cons, Nat.add_comm]; rfl

end CharWeight

-- printed as itself
def plainChar (c : Char) : Bool := 0x20 ≤ c.toNat && c.toNat < 128 && c != '\x22' && c != '\x5c'

theorem plainEscape {c : Char} (plain : plainChar c = true) : escapeChar c = [c] := by
  simp only [plainChar, Bool.and_eq_true, decide_eq_true_eq, bne_iff_ne, ne_eq] at plain
  obtain ⟨⟨⟨printed, -⟩, unquoted⟩, unslashed⟩ := plain
  have apart : ∀ d : Char, d.toNat < 0x20 → c ≠ d := by
    intro d control same
    subst same
    omega
  rw [escapeChar, if_neg unquoted, if_neg unslashed, if_neg (apart _ (by decide)), if_neg (apart _ (by decide)),
    if_neg (apart _ (by decide)), if_neg (apart _ (by decide)), if_neg (apart _ (by decide)),
    if_neg (Nat.not_lt.mpr printed)]

theorem plainQuote {text : List Char} (plain : ∀ c ∈ text, plainChar c = true) :
    quote text = '\x22' :: (text ++ ['\x22']) := by
  have kept : text.flatMap escapeChar = text := by
    induction text with
    | nil => rfl
    | cons c text ih =>
      rw [List.flatMap_cons, plainEscape (plain c List.mem_cons_self),
        ih fun d inside => plain d (List.mem_cons_of_mem c inside), List.singleton_append]
  rw [quote, kept]

theorem plainWidth {w : CharWeight} {text : List Char} (plain : ∀ c ∈ text, plainChar c = true) :
    w.width (quote text) = text.length + 2 := by
  have ascii : ∀ c ∈ '\x22' :: (text ++ ['\x22']), c.toNat < 128 := by
    intro c inside
    rcases List.mem_cons.mp inside with rfl | inside
    · decide
    · rcases List.mem_append.mp inside with inside | inside
      · have shown := plain c inside
        simp only [plainChar, Bool.and_eq_true, decide_eq_true_eq] at shown
        exact shown.1.1.2
      · rw [List.mem_singleton.mp inside]
        decide
  rw [plainQuote plain, CharWeight.widthAscii ascii]
  simp

/-! ## Values -/

section Size
variable (floats : FloatText) (w : CharWeight)

def Json.size (v : Json) : Nat := w.width (print floats v)

def memberSize (member : String × Json) : Nat := 2 + w.width (quote member.1.toList) + member.2.size floats w

theorem itemsSize (items : List Json) :
    w.width (printItems floats items) = 1 + (items.map fun item => 1 + item.size floats w).sum := by
  induction items with
  | nil => rw [printItems, CharWeight.widthCons, w.ascii _ (by decide)]; rfl
  | cons item items ih =>
    rw [printItems, CharWeight.widthCons, CharWeight.widthAppend, w.ascii _ (by decide), ih, List.map_cons,
      List.sum_cons, Json.size]
    omega

theorem membersSize (members : JsonObject) :
    w.width (printMembers floats members) = 1 + (members.map (memberSize floats w)).sum := by
  induction members with
  | nil => rw [printMembers, CharWeight.widthCons, w.ascii _ (by decide)]; rfl
  | cons member members ih =>
    obtain ⟨key, value⟩ := member
    rw [printMembers, CharWeight.widthCons, CharWeight.widthAppend, CharWeight.widthCons, CharWeight.widthAppend,
      w.ascii _ (by decide), w.ascii _ (by decide), ih, List.map_cons, List.sum_cons]
    simp only [memberSize, Json.size]
    omega

theorem sizeArr (items : List Json) :
    (Json.arr items).size floats w = 1 + max 1 (items.map fun item => 1 + item.size floats w).sum := by
  cases items with
  | nil => rw [Json.size, print, CharWeight.widthCons, CharWeight.widthCons, w.ascii _ (by decide),
      w.ascii _ (by decide)]; rfl
  | cons item items =>
    rw [Json.size, print, CharWeight.widthCons, CharWeight.widthAppend, w.ascii _ (by decide), itemsSize,
      List.map_cons, List.sum_cons, ← Json.size]
    omega

theorem sizeObj (members : JsonObject) :
    (Json.obj members).size floats w = 1 + max 1 (members.map (memberSize floats w)).sum := by
  cases members with
  | nil => rw [Json.size, print, CharWeight.widthCons, CharWeight.widthCons, w.ascii _ (by decide),
      w.ascii _ (by decide)]; rfl
  | cons member members =>
    obtain ⟨key, value⟩ := member
    rw [Json.size, print, CharWeight.widthCons, CharWeight.widthAppend, CharWeight.widthCons,
      CharWeight.widthAppend, w.ascii _ (by decide), w.ascii _ (by decide), membersSize, List.map_cons,
      List.sum_cons]
    simp only [memberSize, Json.size]
    omega

theorem sizeTrue : (Json.bool true).size floats w = 4 :=
  CharWeight.widthWord "true" (by decide)

theorem sizeFalse : (Json.bool false).size floats w = 5 :=
  CharWeight.widthWord "false" (by decide)

theorem sizeNull : Json.null.size floats w = 4 :=
  CharWeight.widthWord "null" (by decide)

variable {floats w}

theorem plainKey {key : String} (plain : key.toList.all plainChar = true) (value : Json) :
    memberSize floats w (key, value) = key.toList.length + 4 + value.size floats w := by
  simp only [memberSize, plainWidth (List.all_eq_true.mp plain)]
  omega

theorem sizeSublist {items items' : List Json} (fewer : items.Sublist items') :
    (Json.arr items).size floats w ≤ (Json.arr items').size floats w := by
  have sums := (fewer.map fun item => 1 + item.size floats w).sum_le_sum fun _ _ => Nat.zero_le _
  rw [sizeArr, sizeArr]
  omega

theorem sizeGrows {items items' : List Json} (fewer : items <+: items') :
    (Json.arr items).size floats w ≤ (Json.arr items').size floats w := sizeSublist fewer.sublist

end Size

/-! ## Tokens -/

-- `_estimate_tokens`
def estimateJsonTokens (floats : FloatText) (value : Json) : Nat := (value.size floats .characters + 3) / 4

theorem estimateWithin {floats : FloatText} {value : Json} {budget : Nat} :
    estimateJsonTokens floats value ≤ budget ↔ value.size floats .characters ≤ 4 * budget := by
  rw [estimateJsonTokens]
  omega

end Enfold
