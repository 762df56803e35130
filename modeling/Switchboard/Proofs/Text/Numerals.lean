import Switchboard.Proofs.Text.Decimals
/-!
# The grammar of numerals

A numeral is an optional plus sign and one digit or more, with any blanks around it; it denotes the
number of its digits. The reader takes a text without the blanks at its ends just if the text is a
numeral of a number for which there is room.
-/
namespace Switchboard.Text

/-- A text is a numeral of a number. -/
def Denotes (s : String) (n : Nat) : Prop :=
  ∃ front sign digits back : List Char, s.toList = front ++ (sign ++ digits) ++ back ∧
    (∀ c ∈ front, isBlank c = true) ∧ (∀ c ∈ back, isBlank c = true) ∧
    (sign = [] ∨ sign = ['+']) ∧ digits ≠ [] ∧ (∀ c ∈ digits, c.isDigit = true) ∧
    Nat.ofDigitChars 10 digits 0 = n

section Blanks

/-- Blanks are taken off both ends. -/
theorem exists_blanks_around (cs : List Char) :
    ∃ front back, cs = front ++ trimBlank cs ++ back ∧
      (∀ c ∈ front, isBlank c = true) ∧ ∀ c ∈ back, isBlank c = true := by
  have htakes (l : List Char) : ∀ c ∈ l.takeWhile isBlank, isBlank c = true :=
    fun c hc => List.mem_takeWhile_imp hc
  refine ⟨cs.takeWhile isBlank, ((cs.dropWhile isBlank).reverse.takeWhile isBlank).reverse, ?_,
    htakes cs, fun c hc => htakes _ c (List.mem_reverse.mp hc)⟩
  calc
    cs = cs.takeWhile isBlank ++ (cs.dropWhile isBlank).reverse.reverse := by simp
    _ = cs.takeWhile isBlank ++ ((cs.dropWhile isBlank).reverse.takeWhile isBlank ++
        (cs.dropWhile isBlank).reverse.dropWhile isBlank).reverse := by
      rw [List.takeWhile_append_dropWhile]
    _ = _ := by rw [List.reverse_append, trimBlank, List.append_assoc]

/-- Nothing is taken off a text whose first and last characters are not blank. -/
theorem trimBlank_between {front core back : List Char} (hfront : ∀ c ∈ front, isBlank c = true)
    (hback : ∀ c ∈ back, isBlank c = true) (hne : core ≠ [])
    (hcore : ∀ c ∈ core, isBlank c = false) : trimBlank (front ++ core ++ back) = core := by
  have hstop {l : List Char} (rest : List Char) (hl : l ≠ []) (hnone : ∀ c ∈ l, isBlank c = false) :
      (l ++ rest).dropWhile isBlank = l ++ rest := by
    cases l with
    | nil => exact absurd rfl hl
    | cons c l => simp [hnone c List.mem_cons_self]
  have hleft : (front ++ core ++ back).dropWhile isBlank = core ++ back := by
    rw [List.append_assoc, List.dropWhile_append_of_pos hfront, hstop back hne hcore]
  have hright : (core ++ back).reverse.dropWhile isBlank = core.reverse := by
    rw [List.reverse_append, List.dropWhile_append_of_pos (by simpa using hback)]
    simpa using hstop [] (List.reverse_ne_nil_iff.mpr hne)
      fun c hc => hcore c (List.mem_reverse.mp hc)
  rw [trimBlank, hleft, hright, List.reverse_reverse]

end Blanks

section Reading

/-- What is read is digits, and the number of them. -/
theorem readDigits_eq_ok_iff {digits : List Char} {value n : Nat} (hvalue : value < UInt64.size) :
    readDigits value digits = .ok n ↔ (∀ c ∈ digits, c.isDigit = true) ∧
      Nat.ofDigitChars 10 digits value = n ∧ n < UInt64.size := by
  constructor
  · intro h
    have hdigits : ∀ c ∈ digits, c.isDigit = true := by
      clear hvalue
      induction digits generalizing value with
      | nil => nofun
      | cons c cs ih =>
        rw [readDigits] at h
        split at h
        · next hc =>
          dsimp only at h
          split at h
          · exact List.forall_mem_cons.mpr ⟨hc, ih h⟩
          · cases h
        · cases h
    rw [readDigits_of_isDigit hdigits hvalue] at h
    split at h
    · next hroom =>
      obtain rfl := Except.ok.inj h
      exact ⟨hdigits, rfl, hroom⟩
    · cases h
  · rintro ⟨hdigits, rfl, hroom⟩
    rw [readDigits_of_isDigit hdigits hvalue, if_pos hroom]

/-- Digits for whose number there is room are read as that number. -/
theorem map_readDigits_eq_ok_iff {digits : List Char} {v : UInt64} :
    (readDigits 0 digits).map (·.toUInt64) = .ok v ↔
      (∀ c ∈ digits, c.isDigit = true) ∧ Nat.ofDigitChars 10 digits 0 = v.toNat := by
  constructor
  · intro h
    cases hread : readDigits 0 digits with
    | error e =>
      rw [hread] at h
      cases h
    | ok n =>
      rw [hread] at h
      obtain ⟨hdigits, hvalue, hroom⟩ := (readDigits_eq_ok_iff (by decide)).mp hread
      obtain rfl : n.toUInt64 = v := Except.ok.inj h
      exact ⟨hdigits, hvalue.trans (UInt64.toNat_ofNat_of_lt' hroom).symm⟩
  · rintro ⟨hdigits, hvalue⟩
    rw [(readDigits_eq_ok_iff (by decide)).mpr ⟨hdigits, hvalue, v.toNat_lt_size⟩]
    exact congrArg Except.ok (UInt64.ofNat_toNat)

/-- The reader takes an optional sign and one digit or more. -/
theorem readNumeral_eq_ok_iff {s : String} {v : UInt64} :
    readNumeral s = .ok v ↔ ∃ sign digits : List Char, s.toList = sign ++ digits ∧
      (sign = [] ∨ sign = ['+']) ∧ digits ≠ [] ∧ (∀ c ∈ digits, c.isDigit = true) ∧
      Nat.ofDigitChars 10 digits 0 = v.toNat := by
  constructor
  · intro h
    unfold readNumeral at h
    split at h
    next => cases h
    next => cases h
    next => cases h
    next _ digits hlone hsigned =>
      obtain ⟨hdigits, hvalue⟩ := map_readDigits_eq_ok_iff.mp h
      refine ⟨['+'], digits, hsigned, .inr rfl, ?_, hdigits, hvalue⟩
      rintro rfl
      exact hlone rfl
    next hnil _ _ _ =>
      obtain ⟨hdigits, hvalue⟩ := map_readDigits_eq_ok_iff.mp h
      exact ⟨[], s.toList, rfl, .inl rfl, hnil, hdigits, hvalue⟩
  · rintro ⟨sign, digits, hs, rfl | rfl, hne, hdigits, hvalue⟩
    · rw [List.nil_append] at hs
      subst hs
      rw [readNumeral_of_isDigit hdigits hne]
      exact map_readDigits_eq_ok_iff.mpr ⟨hdigits, hvalue⟩
    · cases digits with
      | nil => exact absurd rfl hne
      | cons c cs =>
        have hread : readNumeral s = (readDigits 0 (c :: cs)).map (·.toUInt64) := by
          rw [readNumeral, hs]
          rfl
        rw [hread]
        exact map_readDigits_eq_ok_iff.mpr ⟨hdigits, hvalue⟩

/-- Without the blanks at its ends a text is read just if it is a numeral, and as what it denotes. -/
theorem readNumeral_trim_eq_ok_iff {s : String} {v : UInt64} :
    readNumeral (trim s) = .ok v ↔ Denotes s v.toNat := by
  rw [readNumeral_eq_ok_iff, trim, String.toList_ofList]
  constructor
  · rintro ⟨sign, digits, hcore, hsign, hne, hdigits, hvalue⟩
    obtain ⟨front, back, hs, hfront, hback⟩ := exists_blanks_around s.toList
    rw [hcore] at hs
    exact ⟨front, sign, digits, back, hs, hfront, hback, hsign, hne, hdigits, hvalue⟩
  · rintro ⟨front, sign, digits, back, hs, hfront, hback, hsign, hne, hdigits, hvalue⟩
    have hcore : ∀ c ∈ sign ++ digits, isBlank c = false := by
      intro c hc
      rcases List.mem_append.mp hc with hc | hc
      · rcases hsign with rfl | rfl
        · cases hc
        · rw [List.mem_singleton.mp hc]
          rfl
      · exact isBlank_of_isDigit (hdigits c hc)
    refine ⟨sign, digits, ?_, hsign, hne, hdigits, hvalue⟩
    rw [hs]
    exact trimBlank_between hfront hback (List.append_ne_nil_of_right_ne_nil sign hne) hcore

end Reading

end Switchboard.Text
