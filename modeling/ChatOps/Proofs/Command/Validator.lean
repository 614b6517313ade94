/-
Decimal numerals, and the tests that read them. A numeral is a run of ASCII digits; a digit more at
its end makes ten times the number and the digit. A test for numbers takes just the numerals of the
numbers that 64 bits hold, for that number, and the digits a number is shown by are such a numeral.
-/
import ChatOps.Command.Validator
import Mathlib.Data.List.Induction

namespace ChatOps

namespace Text

/-! ## Digits -/

/-- The ASCII digits stand for the numbers below ten. -/
theorem exists_digitChar {c : Char} (h : c.isDigit = true) : ∃ d < 10, c = Nat.digitChar d := by
  obtain ⟨hlow, hhigh⟩ := isDigit_iff_toNat.1 h
  refine ⟨c.toNat - 48, by omega, ?_⟩
  rw [← Char.toNat_inj, Nat.toNat_digitChar_of_lt_ten (by omega)]
  omega

theorem isDigit_digitChar {d : Nat} (h : d < 10) : (Nat.digitChar d).isDigit = true := by
  rw [isDigit_iff_toNat, Nat.toNat_digitChar_of_lt_ten h]
  omega

theorem digitsValue_concat (cs : List Char) {d : Nat} (h : d < 10) :
    digitsValue (cs ++ [Nat.digitChar d]) = 10 * digitsValue cs + d := by
  rw [digitsValue, Nat.ofDigitChars_append]
  show 10 * digitsValue cs + ((Nat.digitChar d).toNat - 48) = _
  rw [Nat.toNat_digitChar_of_lt_ten h]
  omega

/-! ## Numerals -/

/-- A run of ASCII digits, and the number it writes. -/
inductive Numeral : List Char → Nat → Prop
  | digit {d : Nat} : d < 10 → Numeral [Nat.digitChar d] d
  | concat {cs : List Char} {n d : Nat} : Numeral cs n → d < 10 →
      Numeral (cs ++ [Nat.digitChar d]) (10 * n + d)

theorem Numeral.isDigits {cs : List Char} {n : Nat} (h : Numeral cs n) :
    Text.isDigits cs = true := by
  rw [isDigits_iff]
  induction h with
  | digit hd => simpa using isDigit_digitChar hd
  | concat _ hd ih =>
    refine ⟨by simp, List.forall_mem_append.2 ⟨ih.2, ?_⟩⟩
    simpa using isDigit_digitChar hd

theorem Numeral.digitsValue_eq {cs : List Char} {n : Nat} (h : Numeral cs n) :
    digitsValue cs = n := by
  induction h with
  | digit hd => simpa [digitsValue] using digitsValue_concat [] hd
  | concat _ hd ih => rw [digitsValue_concat _ hd, ih]

theorem numeral_digitsValue {cs : List Char} (h : isDigits cs = true) :
    Numeral cs (digitsValue cs) := by
  rw [isDigits_iff] at h
  induction cs using List.reverseRecOn with
  | nil => exact absurd rfl h.1
  | append_singleton cs c ih =>
    have hdigits := List.forall_mem_append.1 h.2
    obtain ⟨d, hd, rfl⟩ := exists_digitChar (hdigits.2 c (by simp))
    by_cases hcs : cs = []
    · subst hcs
      rw [digitsValue_concat [] hd, show digitsValue [] = 0 from rfl, Nat.mul_zero, Nat.zero_add]
      exact .digit hd
    · rw [digitsValue_concat cs hd]
      exact .concat (ih ⟨hcs, hdigits.1⟩) hd

/-- Reading from the left finds the number of a numeral. -/
theorem numeral_iff {cs : List Char} {n : Nat} :
    Numeral cs n ↔ isDigits cs = true ∧ digitsValue cs = n := by
  constructor
  · intro h
    exact ⟨h.isDigits, h.digitsValue_eq⟩
  · rintro ⟨h, rfl⟩
    exact numeral_digitsValue h

theorem exists_numeral_iff {cs : List Char} :
    (∃ n, Numeral cs n) ↔ cs ≠ [] ∧ ∀ c ∈ cs, '0' ≤ c ∧ c ≤ '9' := by
  simp only [numeral_iff, exists_and_left, exists_eq', and_true, isDigits_iff, isDigit_iff]

theorem Numeral.zero_cons {cs : List Char} {n : Nat} (h : Numeral cs n) :
    Numeral ('0' :: cs) n := by
  induction h with
  | @digit d hd =>
    have htwo : Numeral ([Nat.digitChar 0] ++ [Nat.digitChar d]) (10 * 0 + d) :=
      .concat (.digit (by decide)) hd
    rwa [Nat.mul_zero, Nat.zero_add] at htwo
  | concat _ hd ih => exact .concat ih hd

/-- Zeros in front do not count. -/
theorem Numeral.zeros_append {cs : List Char} {n : Nat} (h : Numeral cs n) (count : Nat) :
    Numeral (List.replicate count '0' ++ cs) n := by
  induction count with
  | zero => exact h
  | succ count ih => exact ih.zero_cons

/-- A text is read as the number that it is a numeral of, if 64 bits hold it. -/
theorem readUInt64?_eq_some_iff_numeral {s : String} {n : UInt64} :
    readUInt64? s = some n ↔ Numeral s.toList n.toNat := by
  rw [readUInt64?_eq_some_iff, numeral_iff]

end Text

open Text

namespace Validator

/-! ## Tests for numbers -/

/-- Integers are the numbers below the size of 64 bits, 2^64. -/
theorem exists_integer_iff {P : Nat → Prop} {v : Value} :
    (∃ n : UInt64, P n.toNat ∧ v = .integer n) ↔
      ∃ n < UInt64.size, P n ∧ v = .integer (UInt64.ofNat n) := by
  constructor
  · rintro ⟨n, hn, rfl⟩
    exact ⟨n.toNat, n.toNat_lt, hn, by rw [UInt64.ofNat_toNat]⟩
  · rintro ⟨n, hlt, hn, rfl⟩
    exact ⟨UInt64.ofNat n, by rwa [UInt64.toNat_ofNat_of_lt' hlt], rfl⟩

/-- The tests for numbers are exact. A token passes as a number from zero exactly if it is a numeral
of a number below 2^64, and is then that number; it passes as a number from one exactly if that
number is at least one. Numerals are the runs of ASCII digits, zeros in front make no difference,
and the text that a number is shown as passes as that number. -/
theorem validate?_numeral (token : String) :
    (∀ v, nonNegative.validate? token = some v ↔
      ∃ n < UInt64.size, Numeral token.toList n ∧ v = .integer (UInt64.ofNat n)) ∧
    (∀ v, positive.validate? token = some v ↔
      ∃ n < UInt64.size, (1 ≤ n ∧ Numeral token.toList n) ∧ v = .integer (UInt64.ofNat n)) ∧
    ((∃ n, Numeral token.toList n) ↔ token ≠ "" ∧ ∀ c ∈ token.toList, '0' ≤ c ∧ c ≤ '9') ∧
    (∀ count v, nonNegative.validate? token = some v →
      nonNegative.validate? (String.ofList (List.replicate count '0') ++ token) = some v) ∧
    ∀ n : UInt64,
      nonNegative.validate? (Value.integer n).display = some (.integer n) ∧
      (1 ≤ n → positive.validate? (Value.integer n).display = some (.integer n)) := by
  refine ⟨fun v => ?_, fun v => ?_, ?_, fun count v h => ?_, fun n => ⟨?_, fun hn => ?_⟩⟩
  · rw [validate?_nonNegative_eq_some_iff, ← exists_integer_iff]
    simp only [readUInt64?_eq_some_iff_numeral]
  · rw [validate?_positive_eq_some_iff, ← exists_integer_iff]
    constructor
    · rintro ⟨n, hn, hpos, rfl⟩
      exact ⟨n, ⟨UInt64.lt_iff_toNat_lt.1 hpos, readUInt64?_eq_some_iff_numeral.1 hn⟩, rfl⟩
    · rintro ⟨n, ⟨hpos, hn⟩, rfl⟩
      exact ⟨n, readUInt64?_eq_some_iff_numeral.2 hn, UInt64.lt_iff_toNat_lt.2 hpos, rfl⟩
  · rw [exists_numeral_iff, ne_eq, ne_eq, String.toList_eq_nil_iff]
  · obtain ⟨n, hn, rfl⟩ := validate?_nonNegative_eq_some_iff.1 h
    rw [readUInt64?_eq_some_iff_numeral] at hn
    refine validate?_nonNegative_eq_some_iff.2 ⟨n, readUInt64?_eq_some_iff_numeral.2 ?_, rfl⟩
    rw [String.toList_append, String.toList_ofList]
    exact hn.zeros_append count
  · exact validate?_nonNegative_eq_some_iff.2 ⟨n, readUInt64?_showUInt64 n, rfl⟩
  · exact validate?_positive_eq_some_iff.2 ⟨n, readUInt64?_showUInt64 n, hn, rfl⟩

/-- The greatest number of 64 bits with zeros in front, and the next one. -/
theorem validate?_numeral_greatest :
    nonNegative.validate? "0018446744073709551615" = some (.integer 18446744073709551615) ∧
      positive.validate? "18446744073709551615" = some (.integer 18446744073709551615) ∧
      nonNegative.validate? "18446744073709551616" = none ∧
      positive.validate? (Value.integer 7).display = some (.integer 7) := by
  have hgreatest : Numeral "18446744073709551615".toList 18446744073709551615 :=
    numeral_iff.2 ⟨by decide, by decide⟩
  have hnext : Numeral "18446744073709551616".toList 18446744073709551616 :=
    numeral_iff.2 ⟨by decide, by decide⟩
  obtain ⟨hfromZero, hfromOne, -, hzeros, hshown⟩ := validate?_numeral "18446744073709551615"
  obtain ⟨hfails, -⟩ := validate?_numeral "18446744073709551616"
  refine ⟨?_, ?_, ?_, (hshown 7).2 (by decide)⟩
  · exact hzeros 2 _ ((hfromZero _).2 ⟨_, by decide, hgreatest, rfl⟩)
  · exact (hfromOne _).2 ⟨_, by decide, ⟨by decide, hgreatest⟩, rfl⟩
  · rw [Option.eq_none_iff_forall_ne_some]
    intro v hv
    obtain ⟨n, hlt, hn, -⟩ := (hfails v).1 hv
    rw [← hn.digitsValue_eq, hnext.digitsValue_eq] at hlt
    exact absurd hlt (by decide)

end Validator

end ChatOps
