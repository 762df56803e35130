import Mathlib.Algebra.GroupWithZero.Nat
import Mathlib.Data.List.Basic
import Mathlib.Data.List.TakeWhile
import Switchboard.Json.Number
import Switchboard.Text.Blank
import Switchboard.Text.Numeral
/-!
# Decimal texts

Two readers take the decimal text of a number below `2 ^ 64` back to that number: the reader of
numerals, which reads digit by digit and stops where it has no more room, and the reader of JSON
numbers, which collects the digits first and admits no zero in front.
-/
namespace Switchboard

namespace Text

/-- Digits that are read only make a number greater. -/
theorem le_ofDigitChars (digits : List Char) (value : Nat) :
    value ≤ Nat.ofDigitChars 10 digits value := by
  induction digits generalizing value with
  | nil => exact Nat.le_refl value
  | cons c cs ih =>
    rw [Nat.ofDigitChars_cons]
    have hgrown := ih (10 * value + (c.toNat - '0'.toNat))
    omega

/-- Digits are read as the number that they denote, if there is room for it. -/
theorem readDigits_of_isDigit {digits : List Char} (hdigits : ∀ c ∈ digits, c.isDigit = true)
    {value : Nat} (hvalue : value < UInt64.size) :
    readDigits value digits =
      if Nat.ofDigitChars 10 digits value < UInt64.size then
        .ok (Nat.ofDigitChars 10 digits value)
      else .error .tooLarge := by
  induction digits generalizing value with
  | nil => simp [readDigits, hvalue]
  | cons c cs ih =>
    obtain ⟨hc, hcs⟩ := List.forall_mem_cons.mp hdigits
    have hgrown : value * 10 + digitValue c = 10 * value + (c.toNat - '0'.toNat) := by
      rw [Nat.mul_comm, digitValue]
    rw [readDigits, if_pos hc, hgrown, Nat.ofDigitChars_cons]
    by_cases hroom : 10 * value + (c.toNat - '0'.toNat) < UInt64.size
    · simp only [if_pos hroom]
      exact ih hcs hroom
    · -- what follows cannot bring the number back below the bound
      have hlarge := le_ofDigitChars cs (10 * value + (c.toNat - '0'.toNat))
      rw [if_neg hroom, if_neg (by omega)]

/-- A digit is neither a sign nor a blank. -/
theorem ne_of_isDigit {c d : Char} (hc : c.isDigit = true) (hd : d.isDigit = false) : c ≠ d := by
  rintro rfl
  simp [hc] at hd

theorem isBlank_of_isDigit {c : Char} (hc : c.isDigit = true) : isBlank c = false := by
  simp only [Char.isDigit_iff_toNat] at hc
  simp only [isBlank, inRanges, blankRanges, List.any_cons, List.any_nil, Bool.or_false,
    Bool.or_eq_false_iff, Bool.and_eq_false_iff, decide_eq_false_iff_not]
  have hlow : 48 ≤ c.toNat := hc.1
  have hhigh : c.toNat ≤ 57 := hc.2
  omega

theorem trim_of_isDigit {s : String} (hs : ∀ c ∈ s.toList, c.isDigit = true) : trim s = s := by
  have hkeep : ∀ {cs : List Char}, (∀ c ∈ cs, c.isDigit = true) → cs.dropWhile isBlank = cs := by
    intro cs hcs
    cases cs with
    | nil => rfl
    | cons c cs => simp [isBlank_of_isDigit (hcs c List.mem_cons_self)]
  rw [trim, trimBlank, hkeep hs, hkeep (by simpa using hs), List.reverse_reverse,
    String.ofList_toList]

/-- A text of digits has no sign to be told apart. -/
theorem readNumeral_of_isDigit {s : String} (hs : ∀ c ∈ s.toList, c.isDigit = true)
    (hne : s.toList ≠ []) :
    readNumeral s = (readDigits 0 s.toList).map (·.toUInt64) := by
  unfold readNumeral
  split
  next hnil => exact absurd hnil hne
  next hplus => exact absurd (hs '+' (by simp [hplus])) (by decide)
  next hminus => exact absurd (hs '-' (by simp [hminus])) (by decide)
  next hplus => exact absurd (hs '+' (by simp [hplus])) (by decide)
  next => rfl

/-- The decimal text of a number is that of its digits. -/
theorem toList_toString (v : UInt64) : (toString v).toList = Nat.toDigits 10 v.toNat := by
  rw [show toString v = toString v.toNat from rfl]
  simp

theorem isDigit_of_mem_toDigits {n : Nat} {c : Char} (hc : c ∈ Nat.toDigits 10 n) :
    c.isDigit = true :=
  Nat.isDigit_of_mem_toDigits (by decide) (by decide) hc

theorem isDigit_of_mem_toString {v : UInt64} {c : Char} (hc : c ∈ (toString v).toList) :
    c.isDigit = true :=
  isDigit_of_mem_toDigits (toList_toString v ▸ hc)

@[simp] theorem trim_toString (v : UInt64) : trim (toString v) = toString v :=
  trim_of_isDigit fun _ hc => isDigit_of_mem_toString hc

/-- The reader of numerals reads a decimal text back. -/
@[simp] theorem readNumeral_toString (v : UInt64) : readNumeral (toString v) = .ok v := by
  have hne : (toString v).toList ≠ [] := by
    rw [toList_toString]
    exact Nat.toDigits_ne_nil
  have hvalue : Nat.ofDigitChars 10 (toString v).toList 0 = v.toNat := by
    rw [toList_toString]
    exact Nat.ofDigitChars_toDigits (by decide) (by decide)
  calc
    readNumeral (toString v) = (readDigits 0 (toString v).toList).map (·.toUInt64) :=
      readNumeral_of_isDigit (fun _ hc => isDigit_of_mem_toString hc) hne
    _ = (Except.ok v.toNat).map (·.toUInt64) := by
      rw [readDigits_of_isDigit (fun _ hc => isDigit_of_mem_toString hc) (by decide), hvalue,
        if_pos v.toNat_lt_size]
    _ = .ok v := by simp [Except.map]

end Text

namespace JsonNumber

/-- A decimal text has a zero in front only if it is the text of zero. -/
theorem eq_zero_of_head?_toDigits {n : Nat} (h : (Nat.toDigits 10 n).head? = some '0') : n = 0 := by
  induction n using Nat.strongRecOn with
  | ind n ih =>
    rcases Nat.lt_or_ge n 10 with hsmall | hlarge
    · rw [Nat.toDigits_of_lt_base hsmall] at h
      have hzero : n.digitChar.toNat = 48 := by
        rw [Option.some.inj h]
        rfl
      rw [Nat.toNat_digitChar_of_lt_ten hsmall] at hzero
      omega
    · have hfront : (Nat.toDigits 10 (n / 10)).head? = some '0' := by
        rw [← h, Nat.toDigits_of_base_le (by decide) hlarge,
          List.head?_append_of_ne_nil _ Nat.toDigits_ne_nil]
      have hrest := ih (n / 10) (by omega) hfront
      omega

/-- The reader of JSON numbers reads a decimal text back. -/
theorem read?_toDigits (v : UInt64) : read? (Nat.toDigits 10 v.toNat) = some (.natural v) := by
  have hdigits : ∀ c ∈ Nat.toDigits 10 v.toNat, c.isDigit = true := fun _ hc =>
    Text.isDigit_of_mem_toDigits hc
  have htake := List.takeWhile_eq_self_iff.mpr hdigits
  have hdrop := List.dropWhile_eq_nil_iff.mpr hdigits
  have hfront : (Nat.toDigits 10 v.toNat).head? = some '0' →
      (Nat.toDigits 10 v.toNat).length = 1 := by
    intro hhead
    rw [eq_zero_of_head?_toDigits hhead, Nat.toDigits_zero]
    rfl
  have hvalue : (Nat.toDigits 10 v.toNat).foldl (fun n c => n * 10 + digit c) 0 = v.toNat := by
    have hsame : (fun (n : Nat) (c : Char) => n * 10 + digit c) =
        fun n c => 10 * n + (c.toNat - '0'.toNat) := by
      funext n c
      rw [Nat.mul_comm, digit]
    rw [hsame, ← Nat.ofDigitChars_eq_foldl]
    exact Nat.ofDigitChars_toDigits (by decide) (by decide)
  unfold read?
  split
  next minus unsigned hsign =>
    have hplain : (minus, unsigned) = (false, Nat.toDigits 10 v.toNat) := by
      rw [← hsign]
      split
      next ds hds => exact absurd (hdigits '-' (by simp [hds])) (by decide)
      next => rfl
    obtain ⟨rfl, rfl⟩ := Prod.mk.inj hplain
    simpa [htake, hdrop, ofInteger?, hvalue, v.toNat_lt_size] using hfront

end JsonNumber
end Switchboard
