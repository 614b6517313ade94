/-
Unsigned decimal numbers of 64 bits: a non-empty run of ASCII digits, leading zeros allowed, no
sign, whose value is below 2^64.
-/
namespace ChatOps.Text

/-- The value of a run of digits, the most significant first. -/
def digitsValue (cs : List Char) : Nat := Nat.ofDigitChars 10 cs 0

/-- A non-empty run of ASCII digits. -/
def isDigits (cs : List Char) : Bool := !cs.isEmpty && cs.all Char.isDigit

theorem isDigit_iff_toNat {c : Char} : c.isDigit = true ↔ 48 ≤ c.toNat ∧ c.toNat ≤ 57 := by
  rw [Char.isDigit, Bool.and_eq_true, decide_eq_true_eq, decide_eq_true_eq]
  rfl

theorem isDigit_iff {c : Char} : c.isDigit = true ↔ '0' ≤ c ∧ c ≤ '9' := isDigit_iff_toNat

theorem isDigits_iff {cs : List Char} :
    isDigits cs = true ↔ cs ≠ [] ∧ ∀ c ∈ cs, c.isDigit = true := by
  rw [isDigits, Bool.and_eq_true, List.all_eq_true, Bool.not_eq_true', List.isEmpty_eq_false_iff]

/-- The number a text writes, if it is a number below 2^64. -/
def readUInt64? (s : String) : Option UInt64 :=
  let n := digitsValue s.toList
  if isDigits s.toList ∧ n < UInt64.size then some (UInt64.ofNat n) else none

/-- A text is read as a number exactly when it is a run of digits with that value. -/
theorem readUInt64?_eq_some_iff {s : String} {n : UInt64} :
    readUInt64? s = some n ↔ isDigits s.toList = true ∧ digitsValue s.toList = n.toNat := by
  unfold readUInt64?
  simp only
  constructor
  · intro h
    split at h
    · rename_i hd
      cases h
      exact ⟨hd.1, (UInt64.toNat_ofNat_of_lt' hd.2).symm⟩
    · cases h
  · rintro ⟨hd, hn⟩
    rw [hn, if_pos ⟨hd, n.toNat_lt_size⟩, UInt64.ofNat_toNat]

/-- The digits of a number. -/
def showUInt64 (n : UInt64) : String := String.ofList (Nat.toDigits 10 n.toNat)

/-- A number that is shown is read back. -/
theorem readUInt64?_showUInt64 (n : UInt64) : readUInt64? (showUInt64 n) = some n := by
  rw [readUInt64?_eq_some_iff, isDigits_iff, showUInt64, String.toList_ofList]
  refine ⟨⟨Nat.toDigits_ne_nil, fun c hc => ?_⟩, ?_⟩
  · exact Nat.isDigit_of_mem_toDigits (by decide : 0 < 10) (by decide) hc
  · rw [digitsValue, Nat.ofDigitChars_ten_toDigits]

end ChatOps.Text
