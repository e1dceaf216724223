import Mathlib.Data.Nat.Digits.Defs
import Mathlib.Data.List.Infix
import Mathlib.Data.List.TakeWhile
import Mathlib.Logic.Function.Basic

/-!
# Reading words and numbers of a command

A text is the list of the characters that are left of it, so what the source adds to
`ctlP->eaten` is what a function drops here. The conversions of `sscanf` follow the C standard,
but for `%f`, which is left open.
-/

namespace Lg

/-- `isspace` in the C locale. -/
def isspace (c : Char) : Bool := c = ' ' || ('\t' ≤ c && c ≤ '\r')

def skipSpace (text : List Char) : List Char := text.dropWhile isspace

/-- The conversion `" %31s %n"`. -/
def scanWord (text : List Char) : Option (List Char × List Char) :=
  match skipSpace text with
  | [] => none
  | cs =>
    let word := (cs.takeWhile (fun c => !isspace c)).take 31
    some (word, skipSpace (cs.drop word.length))

/-- The conversion `" %*s%n"`. -/
def scanString (text : List Char) : Option (List Char) :=
  match skipSpace text with
  | [] => none
  | cs => some (cs.dropWhile (fun c => !isspace c))

/-- The value of a digit, `36` if it is none. -/
def digit (c : Char) : ℕ :=
  if '0' ≤ c ∧ c ≤ '9' then c.toNat - '0'.toNat
  else if 'a' ≤ c ∧ c ≤ 'z' then c.toNat - 'a'.toNat + 10
  else if 'A' ≤ c ∧ c ≤ 'Z' then c.toNat - 'A'.toNat + 10
  else 36

def scanSign : List Char → Bool × List Char
  | '-' :: cs => (true, cs)
  | '+' :: cs => (false, cs)
  | cs => (false, cs)

/-- The base of a number, and its digits. -/
def scanBase : List Char → ℕ × List Char
  | '0' :: 'x' :: cs => (16, cs)
  | '0' :: 'X' :: cs => (16, cs)
  | '0' :: cs => (8, '0' :: cs)
  | cs => (10, cs)

/-- The conversion `" %ji"`, with the limits of `intmax_t`. -/
def scanI (text : List Char) : Option (ℤ × List Char) :=
  let (negative, text) := scanSign (skipSpace text)
  let (base, text) := scanBase text
  let digits := text.takeWhile (fun c => digit c < base)
  if digits = [] then none
  else
    let v : ℤ := Nat.ofDigits base (digits.reverse.map digit)
    some (if negative then max (-v) (-2 ^ 63) else min v (2 ^ 63 - 1), text.drop digits.length)

/-- The conversion `" %f %n"`, with the value that `getNum` makes of the number. It eats from the
front of the text, with the white space after the number. -/
structure ScanF where
  scan : List Char → Option (ℕ × List Char)
  suffix : ∀ text v rest, scan text = some (v, rest) → rest <:+ text
  trimmed : ∀ text v rest, scan text = some (v, rest) → skipSpace rest = rest

/-- The kinds of a parameter, and of one out of its range. -/
inductive Opt
  | none
  | numeric
  | var
  | par
  | badNumeric
  | badVar
  | badPar
  deriving DecidableEq

/-- The test `opt > 0`. -/
def Opt.ok : Opt → Bool
  | .numeric => true
  | .var => true
  | .par => true
  | _ => false

def scriptVars : ℕ := 150
def scriptParams : ℕ := 10

/-- What `getNum` stores, and the text after what it eats. The value counts only where the kind is
not `none`. -/
structure Num where
  val : ℕ
  opt : Opt
  rest : List Char

/-- An `intmax_t` read as `uintmax_t`. -/
def toUintmax (v : ℤ) : ℕ := (v % 2 ^ 64).toNat

/-- The conversions `" v%ji"` and `" p%ji"`. -/
def scanRegister (letter : Char) (text : List Char) : Option (ℤ × List Char) :=
  match skipSpace text with
  | [] => none
  | c :: cs => if c = letter then scanI cs else none

def getNum (scanF : ScanF) (text : List Char) (max : ℕ) (real : Bool) : Num :=
  match if real then scanF.scan text else none with
  | some (v, rest) => ⟨v, if v > max then .badNumeric else .numeric, rest⟩
  | none =>
  match scanI text with
  | some (v, rest) =>
    let v := if real then toUintmax v * 1000 % 2 ^ 64 else toUintmax v
    ⟨v, if v > max then .badNumeric else .numeric, skipSpace rest⟩
  | none =>
  match scanRegister 'v' text with
  | some (v, rest) =>
    ⟨toUintmax v, if toUintmax v < scriptVars then .var else .badVar, skipSpace rest⟩
  | none =>
  match scanRegister 'p' text with
  | some (v, rest) =>
    ⟨toUintmax v, if toUintmax v < scriptParams then .par else .badPar, skipSpace rest⟩
  | none => ⟨0, .none, text⟩

section Eats

variable {text rest : List Char}

lemma skipSpace_suffix (text : List Char) : skipSpace text <:+ text := List.dropWhile_suffix _

lemma scanSign_suffix (text : List Char) : (scanSign text).2 <:+ text := by
  unfold scanSign
  split
  · exact List.suffix_cons _ _
  · exact List.suffix_cons _ _
  · exact List.suffix_rfl

lemma scanBase_suffix (text : List Char) : (scanBase text).2 <:+ text := by
  unfold scanBase
  split
  · exact (List.suffix_cons _ _).trans (List.suffix_cons _ _)
  · exact (List.suffix_cons _ _).trans (List.suffix_cons _ _)
  · exact List.suffix_rfl
  · exact List.suffix_rfl

lemma scanI_suffix {v : ℤ} (h : scanI text = some (v, rest)) : rest <:+ text := by
  unfold scanI at h
  dsimp only at h
  split at h
  · cases h
  · cases h
    exact (List.drop_suffix _ _).trans
      ((scanBase_suffix _).trans ((scanSign_suffix _).trans (skipSpace_suffix _)))

lemma scanRegister_suffix {letter : Char} {v : ℤ} (h : scanRegister letter text = some (v, rest)) :
    rest <:+ text := by
  unfold scanRegister at h
  split at h
  · cases h
  · rename_i c cs hcs
    split at h
    · have hskip := skipSpace_suffix text
      rw [hcs] at hskip
      exact (scanI_suffix h).trans ((List.suffix_cons c cs).trans hskip)
    · cases h

lemma scanString_suffix (h : scanString text = some rest) : rest <:+ text := by
  unfold scanString at h
  split at h
  · cases h
  · cases h
    exact (List.dropWhile_suffix _).trans (skipSpace_suffix text)

/-- The text `rest` is what is left of `text` by a conversion, which eats the white space behind. -/
def Eats (text rest : List Char) : Prop :=
  rest <:+ text ∧ (skipSpace text = text → skipSpace rest = rest)

lemma Eats.refl (text : List Char) : Eats text text := ⟨List.suffix_rfl, id⟩

lemma Eats.trans {mid : List Char} (h : Eats text mid) (h' : Eats mid rest) : Eats text rest :=
  ⟨h'.1.trans h.1, fun ht => h'.2 (h.2 ht)⟩

lemma skipSpace_skipSpace (text : List Char) : skipSpace (skipSpace text) = skipSpace text :=
  List.dropWhile_eq_self_iff.mpr (List.dropWhile_get_zero_not _ text)

lemma eats_skipSpace (h : rest <:+ text) : Eats text (skipSpace rest) :=
  ⟨(skipSpace_suffix rest).trans h, fun _ => skipSpace_skipSpace rest⟩

lemma getNum_eats (scanF : ScanF) (text : List Char) (max : ℕ) (real : Bool) :
    Eats text (getNum scanF text max real).rest := by
  unfold getNum
  split
  · rename_i v rest h
    cases real with
    | false => cases h
    | true => exact ⟨scanF.suffix _ _ _ h, fun _ => scanF.trimmed _ _ _ h⟩
  · split
    · exact eats_skipSpace (scanI_suffix ‹_›)
    · split
      · exact eats_skipSpace (scanRegister_suffix ‹_›)
      · split
        · exact eats_skipSpace (scanRegister_suffix ‹_›)
        · exact .refl text

end Eats

section Range

/-- A parameter that `getNum` accepts is in its range. -/
def Num.InRange (max : ℕ) (n : Num) : Prop :=
  match n.opt with
  | .numeric => n.val ≤ max
  | .var => n.val < scriptVars
  | .par => n.val < scriptParams
  | _ => True

lemma inRange_numeric (v max : ℕ) (rest : List Char) :
    Num.InRange max ⟨v, if v > max then .badNumeric else .numeric, rest⟩ := by
  by_cases h : v > max
  · simp [Num.InRange, h]
  · simp only [Num.InRange, h, if_false]
    exact Nat.le_of_not_gt h

lemma getNum_inRange (scanF : ScanF) (text : List Char) (max : ℕ) (real : Bool) :
    (getNum scanF text max real).InRange max := by
  unfold getNum
  split
  · exact inRange_numeric _ _ _
  · split
    · exact inRange_numeric _ _ _
    · split
      · rename_i v _ _
        by_cases h : toUintmax v < scriptVars <;> simp [Num.InRange, h]
      · split
        · rename_i v _ _
          by_cases h : toUintmax v < scriptParams <;> simp [Num.InRange, h]
        · trivial

end Range

end Lg
