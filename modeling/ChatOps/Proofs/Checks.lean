/-
Computations that may fail. One that goes on after another fails when either does, and comes to a
result when both do. One that makes checks in an order fails with what the first of them that finds a
fault has found; the checks of two such computations, the one after the other, stand in that order.
-/
namespace ChatOps

theorem Except.bind_eq_ok_iff {ε α β : Type} {x : Except ε α} {f : α → Except ε β} {b : β} :
    (x >>= f) = .ok b ↔ ∃ a, x = .ok a ∧ f a = .ok b := by
  cases x with
  | error e =>
    constructor
    · rintro ⟨⟩
    · rintro ⟨_, ⟨⟩, _⟩
  | ok a =>
    constructor
    · intro h
      exact ⟨a, rfl, h⟩
    · rintro ⟨_, ⟨⟩, h⟩
      exact h

theorem Except.bind_eq_error_iff {ε α β : Type} {x : Except ε α} {f : α → Except ε β} {e : ε} :
    (x >>= f) = .error e ↔ x = .error e ∨ ∃ a, x = .ok a ∧ f a = .error e := by
  cases x with
  | error e' =>
    constructor
    · rintro ⟨⟩
      exact .inl rfl
    · rintro (⟨⟨⟩⟩ | ⟨_, ⟨⟩, -⟩)
      rfl
  | ok a =>
    constructor
    · intro h
      exact .inr ⟨a, rfl, h⟩
    · rintro (⟨⟨⟩⟩ | ⟨_, ⟨⟩, h⟩)
      exact h

/-! ## The first of several -/

/-- Of these, the first that is related to anything is related to `b`. -/
def IsFirst {α β : Type} (R : α → β → Prop) (as : List α) (b : β) : Prop :=
  ∃ before a after, as = before ++ a :: after ∧ R a b ∧ ∀ a' ∈ before, ∀ b', ¬ R a' b'

section First

variable {α β : Type} {R : α → β → Prop} {a : α} {as as' : List α} {b b' : β}

theorem not_isFirst_nil : ¬ IsFirst R [] b := by
  rintro ⟨before, a, after, h, -⟩
  exact List.append_ne_nil_of_right_ne_nil before (List.cons_ne_nil a after) h.symm

theorem isFirst_cons_iff :
    IsFirst R (a :: as) b ↔ R a b ∨ (∀ b', ¬ R a b') ∧ IsFirst R as b := by
  constructor
  · rintro ⟨before, x, after, h, hx, hbefore⟩
    cases before with
    | nil =>
      obtain ⟨rfl, rfl⟩ := List.cons.inj h
      exact .inl hx
    | cons y before =>
      obtain ⟨rfl, rfl⟩ := List.cons.inj h
      rw [List.forall_mem_cons] at hbefore
      exact .inr ⟨hbefore.1, before, x, after, rfl, hx, hbefore.2⟩
  · rintro (h | ⟨ha, before, x, after, rfl, hx, hbefore⟩)
    · exact ⟨[], a, as, rfl, h, fun _ h => nomatch h⟩
    · exact ⟨a :: before, x, after, rfl, hx, List.forall_mem_cons.2 ⟨ha, hbefore⟩⟩

theorem isFirst_append_iff :
    IsFirst R (as ++ as') b ↔ IsFirst R as b ∨ (∀ a ∈ as, ∀ b', ¬ R a b') ∧ IsFirst R as' b := by
  induction as with
  | nil => simp [not_isFirst_nil]
  | cons a as ih =>
    rw [List.cons_append, isFirst_cons_iff, isFirst_cons_iff, List.forall_mem_cons, ih, and_or_left,
      or_assoc, and_assoc]

theorem isFirst_singleton_iff : IsFirst R [a] b ↔ R a b := by
  rw [isFirst_cons_iff, or_iff_left]
  exact fun h => not_isFirst_nil h.2

theorem IsFirst.exists_mem (h : IsFirst R as b) : ∃ a ∈ as, R a b := by
  obtain ⟨before, a, after, rfl, ha, -⟩ := h
  exact ⟨a, List.mem_append_right _ List.mem_cons_self, ha⟩

theorem IsFirst.unique (hR : ∀ a b b', R a b → R a b' → b = b') (h : IsFirst R as b)
    (h' : IsFirst R as b') : b = b' := by
  induction as with
  | nil => exact absurd h not_isFirst_nil
  | cons a as ih =>
    rcases isFirst_cons_iff.1 h with ha | ⟨ha, has⟩
    · rcases isFirst_cons_iff.1 h' with ha' | ⟨ha', -⟩
      · exact hR a b b' ha ha'
      · exact absurd ha (ha' b)
    · rcases isFirst_cons_iff.1 h' with ha' | ⟨-, has'⟩
      · exact absurd ha' (ha b')
      · exact ih has has'

end First

/-- A computation makes these checks in order. It fails with what the first of them that finds a
fault has found, and comes to a result only if none of them finds any. -/
structure MakesChecks {κ ε α : Type} (Finds : κ → ε → Prop) (checks : List κ) (x : Except ε α) :
    Prop where
  first : ∀ e, x = .error e → IsFirst Finds checks e
  clear : ∀ a, x = .ok a → ∀ check ∈ checks, ∀ e, ¬ Finds check e

namespace MakesChecks

variable {κ ε α β : Type} {Finds : κ → ε → Prop} {checks checks' : List κ} {x : Except ε α}

theorem ok (a : α) : MakesChecks Finds [] (.ok a : Except ε α) :=
  ⟨nofun, fun _ _ _ h => nomatch h⟩

theorem single {check : κ} (h : ∀ e, x = .error e ↔ Finds check e) : MakesChecks Finds [check] x := by
  refine ⟨fun e he => isFirst_singleton_iff.2 ((h e).1 he), fun a ha check' hc e he => ?_⟩
  obtain rfl := List.mem_singleton.1 hc
  rw [(h e).2 he] at ha
  cases ha

/-- What comes after makes its checks after those before. -/
theorem bind {f : α → Except ε β} (hx : MakesChecks Finds checks x)
    (hf : ∀ a, x = .ok a → MakesChecks Finds checks' (f a)) :
    MakesChecks Finds (checks ++ checks') (x >>= f) := by
  cases x with
  | error e' =>
    constructor
    · rintro e ⟨⟩
      exact isFirst_append_iff.2 (.inl (hx.first e' rfl))
    · rintro b ⟨⟩
  | ok a =>
    have hclear := hx.clear a rfl
    constructor
    · intro e he
      exact isFirst_append_iff.2 (.inr ⟨hclear, (hf a rfl).first e he⟩)
    · intro b hb
      exact List.forall_mem_append.2 ⟨hclear, (hf a rfl).clear b hb⟩

theorem eq_error_iff (hx : MakesChecks Finds checks x)
    (hFinds : ∀ check e e', Finds check e → Finds check e' → e = e') {e : ε} :
    x = .error e ↔ IsFirst Finds checks e := by
  refine ⟨hx.first e, fun h => ?_⟩
  cases x with
  | ok a =>
    obtain ⟨check, hc, he⟩ := h.exists_mem
    exact absurd he (hx.clear a rfl check hc e)
  | error e' => rw [(hx.first e' rfl).unique hFinds h]

end MakesChecks

end ChatOps
