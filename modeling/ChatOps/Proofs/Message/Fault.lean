/-
Faults of binding. An argument that cannot own any of the free places says why: the places it would
have to own are there to be pointed at, or there are none. The binder fails exactly with the fault
of the first argument that cannot own anything, after the arguments before it own theirs.
-/
import ChatOps.Proofs.Message.Assignment

namespace ChatOps

variable {tokens : List Token}

/-- The keywords of a group among the free places. -/
def literalPlaces (g : KeywordGroup) (free : Places tokens) : Places tokens :=
  free.filter fun p => (tokens.get p).text ∈ g.literals

/-! ## One argument -/

namespace Argument

/-- The argument cannot own any of these places, for this reason. -/
def FaultAt (c : Command) (a : Argument) (free : Places tokens) (e : ParseError) : Prop :=
  match a.kind with
  | .positional => free = ∅ ∧ e = .missingArgument c.name a.name tokens.length
  | .query =>
    (free = ∅ ∧ e = .missingArgument c.name a.name tokens.length) ∨
    ∃ p source, IsLeast (free : Set (Fin tokens.length)) p ∧
      Query.parse (tokens.get p).text = .error source ∧ e = .invalidQuery (tokens.get p) source
  | .validated validator none =>
    (free = ∅ ∧ e = .missingArgument c.name a.name tokens.length) ∨
    ∃ p, IsLeast (free : Set (Fin tokens.length)) p ∧
      validator.validate? (tokens.get p).text = none ∧
      e = .missingArgument c.name a.name (tokens.get p).position
  | .validated _ (some _) => False
  | .keywords g =>
    ∃ p q, IsLeast (literalPlaces g free : Set (Fin tokens.length)) p ∧
      IsLeast (↑(literalPlaces g free \ {p}) : Set (Fin tokens.length)) q ∧
      e = .duplicateKeyword a.name (tokens.get p) (tokens.get q)
  | .list _ => False

variable {c : Command} {index : Nat} {free : Places tokens} {e : ParseError} {name : String}

theorem bindPositional_tokensAt_eq_error_iff {missing : ParseError} :
    bindPositional missing (tokensAt free) = .error e ↔ free = ∅ ∧ e = missing := by
  rcases eq_empty_or_isLeast free with rfl | ⟨p, hp⟩
  · rw [tokensAt_empty, bindPositional, Except.error.injEq, eq_comm]
    simp
  · rw [tokensAt_of_isLeast hp, bindPositional]
    constructor
    · rintro ⟨⟩
    · rintro ⟨rfl, -⟩
      exact absurd hp not_isLeast_empty

theorem bindQuery_tokensAt_eq_error_iff {missing : ParseError} :
    bindQuery missing (tokensAt free) = .error e ↔
      (free = ∅ ∧ e = missing) ∨ ∃ p source, IsLeast (free : Set (Fin tokens.length)) p ∧
        Query.parse (tokens.get p).text = .error source ∧
        e = .invalidQuery (tokens.get p) source := by
  rcases eq_empty_or_isLeast free with rfl | ⟨p, hp⟩
  · rw [tokensAt_empty, bindQuery, Except.error.injEq, eq_comm]
    constructor
    · rintro rfl
      exact .inl ⟨rfl, rfl⟩
    · rintro (⟨-, h⟩ | ⟨p, -, hp, -⟩)
      · exact h
      · exact absurd hp not_isLeast_empty
  · rw [tokensAt_of_isLeast hp, bindQuery]
    constructor
    · intro h
      cases hq : Query.parse (tokens.get p).text with
      | ok q =>
        rw [hq] at h
        cases h
      | error source =>
        rw [hq] at h
        cases h
        exact .inr ⟨p, source, hp, hq, rfl⟩
    · rintro (⟨rfl, -⟩ | ⟨p', source, hp', hq, rfl⟩)
      · exact absurd hp not_isLeast_empty
      · obtain rfl := hp.unique hp'
        rw [hq]

theorem bindValidated_tokensAt_eq_error_iff {missing : ParseError} {validator : Validator} :
    bindValidated missing validator none (tokensAt free) = .error e ↔
      e = missing ∧ ∀ p, IsLeast (free : Set (Fin tokens.length)) p →
        validator.validate? (tokens.get p).text = none := by
  unfold bindValidated
  rcases eq_empty_or_isLeast free with rfl | ⟨p, hp⟩
  · rw [tokensAt_empty, List.head?_nil, Option.bind_none, Except.error.injEq, eq_comm]
    exact (and_iff_left fun p hp => absurd hp not_isLeast_empty).symm
  · have hleast : (∀ p', IsLeast (free : Set (Fin tokens.length)) p' →
        validator.validate? (tokens.get p').text = none) ↔
        validator.validate? (tokens.get p).text = none := by
      constructor
      · intro h
        exact h p hp
      · intro h p' hp'
        rwa [hp'.unique hp]
    rw [hleast, tokensAt_of_isLeast hp, List.head?_cons, Option.bind_some]
    cases hv : validator.validate? (tokens.get p).text with
    | none => simp [eq_comm]
    | some v => simp

/-- An argument with a default always has a value. -/
theorem bindValidated_default_ne_error {missing : ParseError} {validator : Validator} {v : Value}
    {queue : List Token} : bindValidated missing validator (some v) queue ≠ .error e := by
  intro h
  unfold bindValidated at h
  split at h
  · cases h
  · cases h
  · rename_i hdefault
    cases hdefault

/-- Several keywords of a group are there when there are two first ones. -/
theorem bindKeyword_tokensAt_eq_error_iff {g : KeywordGroup} :
    bindKeyword name g (tokensAt free) = .error e ↔
      ∃ p q, IsLeast (literalPlaces g free : Set (Fin tokens.length)) p ∧
        IsLeast (↑(literalPlaces g free \ {p}) : Set (Fin tokens.length)) q ∧
        e = .duplicateKeyword name (tokens.get p) (tokens.get q) := by
  have hkey : (tokensAt free).filter (fun t => g.literals.contains t.text) =
      tokensAt (literalPlaces g free) := (tokensAt_keywords g free).1.symm
  unfold bindKeyword
  rw [hkey]
  rcases eq_empty_or_isLeast (literalPlaces g free) with hno | ⟨p, hp⟩
  · rw [hno, tokensAt_empty]
    constructor
    · rintro ⟨⟩
    · rintro ⟨p, -, hp, -⟩
      exact absurd hp not_isLeast_empty
  · rw [tokensAt_of_isLeast hp]
    rcases eq_empty_or_isLeast (literalPlaces g free \ {p}) with hno | ⟨q, hq⟩
    · rw [hno, tokensAt_empty]
      constructor
      · rintro ⟨⟩
      · rintro ⟨p', q, hp', hq, -⟩
        obtain rfl := hp.unique hp'
        rw [hno] at hq
        exact absurd hq not_isLeast_empty
    · rw [tokensAt_of_isLeast hq]
      constructor
      · rintro ⟨⟩
        exact ⟨p, q, hp, hq, rfl⟩
      · rintro ⟨p', q', hp', hq', rfl⟩
        obtain rfl := hp.unique hp'
        obtain rfl := hq.unique hq'
        rfl

/-- An argument fails on the tokens at the free places exactly when it cannot own any of them, and
says why. -/
theorem bind_tokensAt_eq_error_iff {a : Argument} :
    a.bind c index tokens.length (tokensAt free) = .error e ↔ a.FaultAt c free e := by
  obtain ⟨name, kind⟩ := a
  cases kind with
  | positional =>
    rw [bind, bindPositional_tokensAt_eq_error_iff, FaultAt]
    refine and_congr_right fun hfree => ?_
    rw [hfree, tokensAt_empty, nextPosition]
  | query =>
    rw [bind, bindQuery_tokensAt_eq_error_iff, FaultAt]
    refine or_congr_left (and_congr_right fun hfree => ?_)
    rw [hfree, tokensAt_empty, nextPosition]
  | validated validator default =>
    cases default with
    | none =>
      rw [bind, bindValidated_tokensAt_eq_error_iff, FaultAt]
      rcases eq_empty_or_isLeast free with rfl | ⟨p, hp⟩
      · rw [tokensAt_empty, nextPosition]
        constructor
        · rintro ⟨rfl, -⟩
          exact .inl ⟨rfl, rfl⟩
        · rintro (⟨-, rfl⟩ | ⟨p, hp, -⟩)
          · exact ⟨rfl, fun p hp => absurd hp not_isLeast_empty⟩
          · exact absurd hp not_isLeast_empty
      · rw [tokensAt_of_isLeast hp, nextPosition]
        constructor
        · rintro ⟨rfl, hv⟩
          exact .inr ⟨p, hp, hv p hp, rfl⟩
        · rintro (⟨rfl, -⟩ | ⟨p', hp', hv, rfl⟩)
          · exact absurd hp not_isLeast_empty
          · obtain rfl := hp.unique hp'
            exact ⟨rfl, fun p' hp' => by rwa [hp'.unique hp]⟩
    | some v =>
      rw [bind, FaultAt, iff_false]
      exact bindValidated_default_ne_error
  | keywords g => exact bindKeyword_tokensAt_eq_error_iff
  | list form =>
    rw [bind_list, FaultAt, iff_false]
    rintro ⟨⟩

/-- What is at fault with an argument keeps it from owning anything. -/
theorem FaultAt.not_owns {a : Argument} (h : a.FaultAt c free e) (index : Nat)
    (own : Places tokens) : ¬ a.Owns c index free own := by
  intro hown
  obtain ⟨v, hv⟩ := hown.exists_value
  have htakes := takes_tokensAt_iff.2 ⟨own, hown, rfl, hv⟩
  rw [← bind_eq_ok_iff tokens.length, bind_tokensAt_eq_error_iff.2 h] at htakes
  cases htakes

end Argument

/-! ## All arguments -/

namespace Command

variable {c : Command} {free left : Places tokens} {e : ParseError}

/-- The binder fails on arguments exactly at the first that is at fault. -/
theorem bindFrom_tokensAt_eq_error_iff {index : Nat} {as : List Argument} :
    c.bindFrom tokens.length index as (tokensAt free) = .error e ↔
      ∃ (i : Nat) (a : Argument) (owned : List (Places tokens)) (left : Places tokens),
        as[i]? = some a ∧ c.OwnsFrom index (as.take i) free owned left ∧ a.FaultAt c left e := by
  induction as generalizing index free with
  | nil =>
    constructor
    · rintro ⟨⟩
    · rintro ⟨i, a, owned, left, h, -⟩
      cases h
  | cons a as ih =>
    rw [bindFrom]
    simp only [Except.bind_eq_error_iff, Prod.exists, Argument.bind_eq_ok_iff,
      Argument.bind_tokensAt_eq_error_iff]
    constructor
    · rintro (h | ⟨v, passed, ha, h | ⟨vs, rest, -, ⟨⟩⟩⟩)
      · exact ⟨0, a, [], free, rfl, .nil, h⟩
      · obtain ⟨own, hown, rfl, -⟩ := Argument.takes_tokensAt_iff.1 ha
        obtain ⟨i, b, owned, left, hb, howned, hfault⟩ := ih.1 h
        exact ⟨i + 1, b, own :: owned, left, hb, .cons hown howned, hfault⟩
    · rintro ⟨i, b, owned, left, hb, howned, hfault⟩
      cases i with
      | zero =>
        cases hb
        cases howned
        exact .inl hfault
      | succ i =>
        cases howned with
        | cons hown howned =>
          obtain ⟨v, hv⟩ := hown.exists_value
          exact .inr ⟨v, _, Argument.takes_tokensAt_iff.2 ⟨_, hown, rfl, hv⟩,
            .inl (ih.2 ⟨i, b, _, left, hb, howned, hfault⟩)⟩

/-- A command fails to bind when an argument does, or when all own what they may and something is
left that the command rejects. -/
theorem bind_tokensAt_eq_error_iff :
    c.bind tokens.length (tokensAt free) = .error e ↔
      (∃ (i : Nat) (a : Argument) (owned : List (Places tokens)) (left : Places tokens),
        c.arguments[i]? = some a ∧ c.OwnsFrom 0 (c.arguments.take i) free owned left ∧
          a.FaultAt c left e) ∨
      ∃ (owned : List (Places tokens)) (left : Places tokens) (p : Fin tokens.length),
        c.OwnsFrom 0 c.arguments free owned left ∧ c.trailing = .reject ∧
          IsLeast (left : Set (Fin tokens.length)) p ∧ e = .unexpectedArgument (tokens.get p) := by
  rw [bind, bindValues]
  simp only [Except.bind_eq_error_iff, Prod.exists, bindFrom_tokensAt_eq_error_iff,
    bindFrom_eq_ok_iff, takesFrom_tokensAt_iff]
  constructor
  · rintro ((h | ⟨vs, rest, ⟨owned, left, howned, rfl, hvs⟩, h⟩) | ⟨vs, -, ⟨⟩⟩)
    · exact .inl h
    · cases hc : c.trailing with
      | ignore =>
        rw [hc] at h
        cases h
      | reject =>
        rcases eq_empty_or_isLeast left with rfl | ⟨p, hp⟩
        · rw [hc, tokensAt_empty] at h
          cases h
        · rw [hc, tokensAt_of_isLeast hp] at h
          cases h
          exact .inr ⟨owned, left, p, howned, rfl, hp, rfl⟩
  · rintro (h | ⟨owned, left, p, howned, hc, hp, rfl⟩)
    · exact .inl (.inl h)
    · obtain ⟨vs, hvs⟩ := howned.exists_values
      refine .inl (.inr ⟨vs, _, ⟨owned, left, howned, rfl, hvs⟩, ?_⟩)
      rw [hc, tokensAt_of_isLeast hp]

end Command

end ChatOps
