/-
Validators: the tests a token has to pass to be taken as the value of an optional argument.
-/
import ChatOps.Value

namespace ChatOps

/-- A test of a token. -/
inductive Validator where
  /-- A decimal number from 1. -/
  | positive
  /-- A decimal number from 0. -/
  | nonNegative
  /-- Any token, as text. -/
  | any
deriving DecidableEq, Repr

/-- The value of a token that passes. -/
def Validator.validate? (v : Validator) (token : String) : Option Value :=
  match v with
  | .positive => ((Text.readUInt64? token).filter (0 < ·)).map .integer
  | .nonNegative => (Text.readUInt64? token).map .integer
  | .any => some (.text token)

namespace Validator

variable {token : String} {v : Value}

theorem validate?_nonNegative_eq_some_iff :
    nonNegative.validate? token = some v ↔
      ∃ n, Text.readUInt64? token = some n ∧ v = .integer n := by
  simp only [validate?, Option.map_eq_some_iff, @eq_comm _ v]

theorem validate?_positive_eq_some_iff :
    positive.validate? token = some v ↔
      ∃ n, Text.readUInt64? token = some n ∧ 0 < n ∧ v = .integer n := by
  simp only [validate?, Option.map_eq_some_iff, Option.filter_eq_some_iff, decide_eq_true_eq,
    and_assoc, @eq_comm _ v]

end Validator

end ChatOps
