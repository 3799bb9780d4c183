import Mathlib.Data.List.Basic

/-! Base64 in its URL-safe alphabet. The encoder takes three bytes to four letters; the decoder passes
over what is no letter and stops at a padding that closes its group. -/
namespace Base64

def alphabet : List Char := "ABCDEFGHIJKLMNOPQRSTUVWXYZabcdefghijklmnopqrstuvwxyz0123456789-_".toList

def letter (n : Nat) : Char := alphabet.getD n 'A'

-- the standard letters are taken for the URL-safe ones
def value (c : Char) : Option Nat :=
  if c = '+' then some 62
  else if c = '/' then some 63
  else if c ∈ alphabet then some (alphabet.idxOf c)
  else none

def encode : List Nat → List Char
  | [] => []
  | [a] => [letter (a / 4), letter (a % 4 * 16), '=', '=']
  | [a, b] => [letter (a / 4), letter (a % 4 * 16 + b / 16), letter (b % 16 * 4), '=']
  | a :: b :: c :: rest =>
    letter (a / 4) :: letter (a % 4 * 16 + b / 16) :: letter (b % 16 * 4 + c / 64) :: letter (c % 64) :: encode rest

-- the place in the group, the bits left over from the letter before, and the paddings met
def decodeFrom : Nat → Nat → Nat → List Char → Option (List Nat)
  | place, _, _, [] => if place = 0 then some [] else none
  | place, left, pads, c :: rest =>
    if c = '=' then
      if 2 ≤ place then
        if 4 ≤ place + (pads + 1) then some [] else decodeFrom place left (pads + 1) rest
      else decodeFrom place left pads rest
    else match value c with
      | none => decodeFrom place left pads rest
      | some v => match place with
        | 0 => decodeFrom 1 v 0 rest
        | 1 => (decodeFrom 2 (v % 16) 0 rest).map ((left * 4 + v / 16) :: ·)
        | 2 => (decodeFrom 3 (v % 4) 0 rest).map ((left * 16 + v / 4) :: ·)
        | _ => (decodeFrom 0 0 0 rest).map ((left * 64 + v) :: ·)

def decode (text : List Char) : Option (List Nat) := decodeFrom 0 0 0 text

theorem letterRead {n : Nat} (small : n < 64) : letter n ≠ '=' ∧ value (letter n) = some n := by
  have table : (List.range 64).all (fun n => letter n != '=' && decide (value (letter n) = some n)) = true := by
    decide +kernel
  have entry := List.all_eq_true.mp table n (List.mem_range.mpr small)
  simpa using entry

section Decode
variable {left pads v : Nat} {rest : List Char}

theorem decodeFirst (small : v < 64) : decodeFrom 0 left pads (letter v :: rest) = decodeFrom 1 v 0 rest := by
  simp only [decodeFrom, if_neg (letterRead small).1, (letterRead small).2]

theorem decodeSecond (small : v < 64) : decodeFrom 1 left pads (letter v :: rest) =
    (decodeFrom 2 (v % 16) 0 rest).map ((left * 4 + v / 16) :: ·) := by
  simp only [decodeFrom, if_neg (letterRead small).1, (letterRead small).2]

theorem decodeThird (small : v < 64) : decodeFrom 2 left pads (letter v :: rest) =
    (decodeFrom 3 (v % 4) 0 rest).map ((left * 16 + v / 4) :: ·) := by
  simp only [decodeFrom, if_neg (letterRead small).1, (letterRead small).2]

theorem decodeFourth (small : v < 64) : decodeFrom 3 left pads (letter v :: rest) =
    (decodeFrom 0 0 0 rest).map ((left * 64 + v) :: ·) := by
  simp only [decodeFrom, if_neg (letterRead small).1, (letterRead small).2]

end Decode

/-- What is encoded is decoded again. -/
theorem decodeEncode (bytes : List Nat) (octets : ∀ b ∈ bytes, b < 256) : decode (encode bytes) = some bytes := by
  rw [decode]
  fun_induction encode bytes with
  | case1 => rfl
  | case2 a =>
    have first : a < 256 := octets a List.mem_cons_self
    have padded : decodeFrom 2 (a % 4 * 16 % 16) 0 ['=', '='] = some [] := rfl
    rw [decodeFirst (by omega), decodeSecond (by omega), padded]
    have whole : a / 4 * 4 + a % 4 * 16 / 16 = a := by omega
    rw [Option.map_some, whole]
  | case3 a b =>
    have first : a < 256 := octets a List.mem_cons_self
    have second : b < 256 := octets b (List.mem_cons_of_mem a List.mem_cons_self)
    have padded : decodeFrom 3 (b % 16 * 4 % 4) 0 ['='] = some [] := rfl
    rw [decodeFirst (by omega), decodeSecond (by omega), decodeThird (by omega), padded]
    have whole : a / 4 * 4 + (a % 4 * 16 + b / 16) / 16 = a := by omega
    have whole' : (a % 4 * 16 + b / 16) % 16 * 16 + b % 16 * 4 / 4 = b := by omega
    rw [Option.map_some, Option.map_some, whole, whole']
  | case4 a b c rest ih =>
    have first : a < 256 := octets a List.mem_cons_self
    have second : b < 256 := octets b (List.mem_cons_of_mem a List.mem_cons_self)
    have third : c < 256 := octets c (List.mem_cons_of_mem a (List.mem_cons_of_mem b List.mem_cons_self))
    have tail := ih fun d inside =>
      octets d (List.mem_cons_of_mem a (List.mem_cons_of_mem b (List.mem_cons_of_mem c inside)))
    rw [decodeFirst (by omega), decodeSecond (by omega), decodeThird (by omega), decodeFourth (by omega), tail]
    have whole : a / 4 * 4 + (a % 4 * 16 + b / 16) / 16 = a := by omega
    have whole' : (a % 4 * 16 + b / 16) % 16 * 16 + (b % 16 * 4 + c / 64) / 4 = b := by omega
    have whole'' : (b % 16 * 4 + c / 64) % 4 * 64 + c % 64 = c := by omega
    rw [Option.map_some, Option.map_some, Option.map_some, whole, whole', whole'']

theorem encodeLength (bytes : List Nat) : (encode bytes).length = 4 * ((bytes.length + 2) / 3) := by
  fun_induction encode bytes with
  | case1 => rfl
  | case2 => simp only [List.length_cons, List.length_nil]
  | case3 => simp only [List.length_cons, List.length_nil]
  | case4 a b c rest ih =>
    simp only [List.length_cons, ih]
    omega

theorem letterAll {p : Char → Bool} (known : alphabet.all p = true) (n : Nat) : p (letter n) = true := by
  have first : 'A' ∈ alphabet := by decide
  rw [letter, List.getD_eq_getElem?_getD]
  cases found : alphabet[n]? with
  | none => exact List.all_eq_true.mp known _ first
  | some c => exact List.all_eq_true.mp known c (List.mem_of_getElem? found)

theorem encodeAll {p : Char → Bool} (known : alphabet.all p = true) (padding : p '=' = true) (bytes : List Nat) :
    ∀ c ∈ encode bytes, p c = true := by
  fun_induction encode bytes with
  | case1 => nofun
  | case2 a => simp [letterAll known, padding]
  | case3 a b => simp [letterAll known, padding]
  | case4 a b c rest ih =>
    simp only [List.forall_mem_cons, letterAll known, true_and]
    exact ih

end Base64
