import FormSchema.Path.Index

/-!
# Numerals of natural numbers

The decimal numeral of a natural number is an index segment: its digits are those of
ASCII, and the first one is a zero for the number zero alone.  No other text is one:
the number that is read from an index segment is written as that segment again.
-/

namespace FormSchema

open FormSchema.Text

theorem Text.isDigit_digitChar : ∀ value < 10, isDigit (Nat.digitChar value) = true := by
  decide

theorem Text.digitChar_ne_zero : ∀ value < 10, 0 < value → Nat.digitChar value ≠ '0' := by
  decide

theorem Text.isDigit_iff {c : Char} :
    isDigit c = true ↔ 48 ≤ c.toNat ∧ c.toNat ≤ 57 := by
  simp [isDigit, Char.le_def, UInt32.le_iff_toNat_le]

theorem Text.digitValue_lt {c : Char} (h : isDigit c = true) : digitValue c < 10 := by
  have := isDigit_iff.1 h
  simp only [digitValue, Char.reduceToNat]
  omega

theorem Text.digitChar_digitValue {c : Char} (h : isDigit c = true) :
    Nat.digitChar (digitValue c) = c := by
  have := isDigit_iff.1 h
  apply Char.toNat_inj.1
  rw [Nat.toNat_digitChar_of_lt_ten (digitValue_lt h)]
  simp only [digitValue, Char.reduceToNat]
  omega

namespace Path

theorem exists_toDigits {value : Nat} (h : 0 < value) :
    ∃ first rest, Nat.toDigits 10 value = first :: rest ∧ first ≠ '0' ∧
      isDigit first = true ∧ rest.all isDigit = true := by
  induction value using Nat.strongRecOn with
  | ind value ih =>
      by_cases hsmall : value < 10
      · exact ⟨Nat.digitChar value, [], Nat.toDigits_of_lt_base hsmall,
          digitChar_ne_zero value hsmall h, isDigit_digitChar value hsmall, rfl⟩
      · have hlarge : 10 ≤ value := Nat.le_of_not_lt hsmall
        obtain ⟨first, rest, hdigits, hne, hfirst, hrest⟩ :=
          ih (value / 10) (by omega) (by omega)
        have hlast := isDigit_digitChar (value % 10) (by omega)
        refine ⟨first, rest ++ [Nat.digitChar (value % 10)], ?_, hne, hfirst, ?_⟩
        · rw [Nat.toDigits_of_base_le (by decide) hlarge, hdigits, List.cons_append]
        · rw [List.all_append, hrest, List.all_cons, hlast, List.all_nil]
          rfl

theorem isNumeral_toDigits (value : Nat) : isNumeral (Nat.toDigits 10 value) = true := by
  cases value with
  | zero => rfl
  | succ value =>
      obtain ⟨first, rest, hdigits, hne, hfirst, hrest⟩ :=
        exists_toDigits (Nat.succ_pos value)
      rw [hdigits, isNumeral, if_neg hne, hfirst, hrest]
      rfl

theorem isIndex_toString (value : Nat) : isIndex (toString value) = true := by
  change isNumeral value.repr.toList = true
  rw [Nat.toList_repr]
  exact isNumeral_toDigits value

theorem toDigits_append {value : Nat} (hvalue : 0 < value) {digits : List Char}
    (hdigits : digits.all isDigit = true) :
    Nat.toDigits 10 value ++ digits =
      Nat.toDigits 10
        (digits.foldl (fun value c => 10 * value + digitValue c) value) := by
  induction digits generalizing value with
  | nil => simp
  | cons c rest ih =>
      obtain ⟨hc, hrest⟩ : isDigit c = true ∧ rest.all isDigit = true := by
        simpa using hdigits
      have hnext := Nat.toDigits_append_toDigits (b := 10) (by decide) hvalue
        (digitValue_lt hc)
      rw [Nat.toDigits_of_lt_base (digitValue_lt hc), digitChar_digitValue hc] at hnext
      rw [List.foldl_cons, ← ih (by omega) hrest, ← hnext]
      simp

theorem toDigits_decimalValue {digits : List Char} (h : isNumeral digits = true) :
    Nat.toDigits 10 (decimalValue digits) = digits := by
  cases digits with
  | nil => cases h
  | cons c rest =>
      rw [isNumeral] at h
      split at h
      · next hzero =>
          obtain rfl : rest = [] := by simpa using h
          rw [hzero]
          rfl
      · next hne =>
          obtain ⟨hc, hrest⟩ := Bool.and_eq_true_iff.1 h
          have hpos : 0 < digitValue c := by
            have hvalue := isDigit_iff.1 hc
            have hnot : c.toNat ≠ 48 := fun heq => hne (Char.toNat_inj.1 heq)
            simp only [digitValue, Char.reduceToNat]
            omega
          have hall := toDigits_append hpos hrest
          rw [Nat.toDigits_of_lt_base (digitValue_lt hc), digitChar_digitValue hc] at hall
          simpa [decimalValue] using hall.symm

theorem toString_indexValue {segment : String} (h : isIndex segment = true) :
    toString (indexValue segment) = segment := by
  apply String.toList_injective
  change (indexValue segment).repr.toList = segment.toList
  rw [Nat.toList_repr]
  exact toDigits_decimalValue h

theorem indexValue_toString (value : Nat) : indexValue (toString value) = value := by
  change Nat.ofDigitChars 10 value.repr.toList 0 = value
  simp

theorem isIndex_iff_exists_toString {segment : String} :
    isIndex segment = true ↔ ∃ value : Nat, segment = toString value := by
  constructor
  · intro h
    exact ⟨indexValue segment, (toString_indexValue h).symm⟩
  · rintro ⟨value, rfl⟩
    exact isIndex_toString value

end Path

end FormSchema
