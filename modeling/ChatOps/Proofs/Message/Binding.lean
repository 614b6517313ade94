/-
Binding as a relation: what an argument may take of the tokens that are left, the value it gets
from them and the tokens it passes on, one rule for each way an argument takes tokens. The binder
succeeds exactly along these rules.
-/
import ChatOps.Message.Binding
import ChatOps.Proofs.Checks
import Mathlib.Data.List.TakeWhile

namespace ChatOps

/-! ## Keywords -/

namespace KeywordGroup

theorem canonical?_isSome_iff {g : KeywordGroup} {word : String} :
    (g.canonical? word).isSome ↔ word ∈ g.literals := by
  rw [canonical?, List.lookup_isSome_iff, literals, List.mem_map]
  constructor
  · rintro ⟨p, hp, h⟩
    exact ⟨p, hp, (beq_iff_eq.1 h).symm⟩
  · rintro ⟨p, hp, rfl⟩
    exact ⟨p, hp, beq_self_eq_true _⟩

theorem mem_literals_of_canonical? {g : KeywordGroup} {word canonical : String}
    (h : g.canonical? word = some canonical) : word ∈ g.literals :=
  canonical?_isSome_iff.1 (h ▸ rfl)

theorem exists_canonical? {g : KeywordGroup} {word : String} (h : word ∈ g.literals) :
    ∃ canonical, g.canonical? word = some canonical :=
  Option.isSome_iff_exists.1 (canonical?_isSome_iff.2 h)

end KeywordGroup

/-- A word is reserved at a place when an argument at another place has it as a keyword. -/
theorem Command.isReservedElsewhere_iff {c : Command} {word : String} {index : Nat} :
    c.isReservedElsewhere word index = true ↔
      ∃ i a, c.arguments[i]? = some a ∧ i ≠ index ∧ word ∈ a.reserved := by
  unfold isReservedElsewhere
  simp only [List.any_eq_true, Bool.and_eq_true, bne_iff_ne, List.contains_iff_mem, Prod.exists,
    List.mk_mem_zipIdx_iff_getElem?]
  constructor
  · rintro ⟨a, i, h, hi, hw⟩
    exact ⟨i, a, h, hi, hw⟩
  · rintro ⟨i, a, h, hi, hw⟩
    exact ⟨a, i, h, hi, hw⟩

/-! ## One argument -/

namespace Argument

/-- An argument takes some of these tokens, gets a value from them and passes on the rest. A list
argument leaves the words that `reserved` holds of. -/
inductive Takes (reserved : String → Bool) :
    Argument → List Token → Value → List Token → Prop
  | positional {name : String} {t : Token} {rest : List Token} :
      Takes reserved ⟨name, .positional⟩ (t :: rest) (.text t.text) rest
  | query {name : String} {t : Token} {rest : List Token} {q : Query} :
      Query.parse t.text = .ok q →
      Takes reserved ⟨name, .query⟩ (t :: rest) (.query q) rest
  | accepted {name : String} {validator : Validator} {default : Option Value} {t : Token}
      {rest : List Token} {v : Value} : validator.validate? t.text = some v →
      Takes reserved ⟨name, .validated validator default⟩ (t :: rest) v rest
  | defaulted {name : String} {validator : Validator} {v : Value} {tokens : List Token} :
      (∀ t ∈ tokens.head?, validator.validate? t.text = none) →
      Takes reserved ⟨name, .validated validator (some v)⟩ tokens v tokens
  | unchosen {name : String} {g : KeywordGroup} {tokens : List Token} :
      (∀ t ∈ tokens, t.text ∉ g.literals) →
      Takes reserved ⟨name, .keywords g⟩ tokens (.keyword g.fallback) tokens
  | chosen {name : String} {g : KeywordGroup} {before after : List Token} {t : Token}
      {canonical : String} : g.canonical? t.text = some canonical →
      (∀ u ∈ before ++ after, u.text ∉ g.literals) →
      Takes reserved ⟨name, .keywords g⟩ (before ++ t :: after) (.keyword canonical)
        (before ++ after)
  | items {name : String} {form : ItemForm} {run rest : List Token} {items : List String} :
      run.map (item? form reserved) = items.map some →
      (∀ t ∈ rest.head?, item? form reserved t = none) →
      Takes reserved ⟨name, .list form⟩ (run ++ rest) (.list items) rest

variable {tokens left : List Token} {v : Value}

theorem bindPositional_eq_ok_iff {missing : ParseError} :
    bindPositional missing tokens = .ok (v, left) ↔ ∃ t, tokens = t :: left ∧ v = .text t.text := by
  cases tokens with
  | nil => simp [bindPositional]
  | cons t rest =>
    simp only [bindPositional, Except.ok.injEq, Prod.mk.injEq, List.cons.injEq]
    constructor
    · rintro ⟨rfl, rfl⟩
      exact ⟨t, ⟨rfl, rfl⟩, rfl⟩
    · rintro ⟨_, ⟨rfl, rfl⟩, rfl⟩
      exact ⟨rfl, rfl⟩

theorem bindQuery_eq_ok_iff {missing : ParseError} :
    bindQuery missing tokens = .ok (v, left) ↔
      ∃ t q, tokens = t :: left ∧ Query.parse t.text = .ok q ∧ v = .query q := by
  cases tokens with
  | nil => simp [bindQuery]
  | cons t rest =>
    rw [bindQuery]
    cases hq : Query.parse t.text with
    | error e =>
      simp only [List.cons.injEq]
      constructor
      · rintro ⟨⟩
      · rintro ⟨_, q, ⟨rfl, rfl⟩, h, -⟩
        rw [hq] at h
        cases h
    | ok q =>
      simp only [Except.ok.injEq, Prod.mk.injEq, List.cons.injEq]
      constructor
      · rintro ⟨rfl, rfl⟩
        exact ⟨t, q, ⟨rfl, rfl⟩, hq, rfl⟩
      · rintro ⟨_, q', ⟨rfl, rfl⟩, h, rfl⟩
        rw [hq] at h
        cases h
        exact ⟨rfl, rfl⟩

theorem bindValidated_eq_ok_iff {missing : ParseError} {validator : Validator}
    {default : Option Value} :
    bindValidated missing validator default tokens = .ok (v, left) ↔
      (∃ t, tokens = t :: left ∧ validator.validate? t.text = some v) ∨
        ((∀ t ∈ tokens.head?, validator.validate? t.text = none) ∧ default = some v ∧
          left = tokens) := by
  unfold bindValidated
  cases tokens with
  | nil => cases default <;> simp [eq_comm]
  | cons t rest =>
    simp only [List.head?_cons, Option.bind_some, List.tail_cons, List.cons.injEq]
    cases hv : validator.validate? t.text with
    | none => cases default <;> simp [hv, eq_comm]
    | some w =>
      simp only [Except.ok.injEq, Prod.mk.injEq]
      constructor
      · rintro ⟨rfl, rfl⟩
        exact .inl ⟨t, ⟨rfl, rfl⟩, hv⟩
      · rintro (⟨_, ⟨rfl, rfl⟩, h⟩ | ⟨h, -, -⟩)
        · rw [hv] at h
          exact ⟨Option.some.inj h, rfl⟩
        · rw [h t rfl] at hv
          cases hv

/-- Around the only keyword of a group the other tokens close up. -/
theorem filter_keyword {g : KeywordGroup} {before after : List Token} {t : Token}
    (ht : t.text ∈ g.literals) (h : ∀ u ∈ before ++ after, u.text ∉ g.literals) :
    (before ++ t :: after).filter (fun u => g.literals.contains u.text) = [t] ∧
      (before ++ t :: after).filter (fun u => !g.literals.contains u.text) = before ++ after := by
  rw [List.forall_mem_append] at h
  obtain ⟨hb, ha⟩ := h
  constructor
  · rw [List.filter_append, List.filter_cons_of_pos (by simpa using ht),
      List.filter_eq_nil_iff.2 (by simpa using hb), List.filter_eq_nil_iff.2 (by simpa using ha)]
    rfl
  · rw [List.filter_append, List.filter_cons_of_neg (by simpa using ht),
      List.filter_eq_self.2 (by simpa using hb), List.filter_eq_self.2 (by simpa using ha)]

theorem bindKeyword_eq_ok_iff {name : String} {g : KeywordGroup} :
    bindKeyword name g tokens = .ok (v, left) ↔
      ((∀ t ∈ tokens, t.text ∉ g.literals) ∧ v = .keyword g.fallback ∧ left = tokens) ∨
        ∃ before after t canonical, tokens = before ++ t :: after ∧
          g.canonical? t.text = some canonical ∧ (∀ u ∈ before ++ after, u.text ∉ g.literals) ∧
          v = .keyword canonical ∧ left = before ++ after := by
  unfold bindKeyword
  constructor
  · intro h
    split at h
    · rename_i hf
      cases h
      exact .inl ⟨by simpa using hf, rfl, rfl⟩
    · rename_i t hf
      obtain ⟨before, after, rfl, hb, ht, ha⟩ := List.filter_eq_cons_iff.1 hf
      have hno : ∀ u ∈ before ++ after, u.text ∉ g.literals :=
        List.forall_mem_append.2 ⟨by simpa using hb, by simpa using ha⟩
      have ht : t.text ∈ g.literals := by simpa using ht
      obtain ⟨canonical, hc⟩ := g.exists_canonical? ht
      rw [(filter_keyword ht hno).2, hc] at h
      cases h
      exact .inr ⟨before, after, t, canonical, rfl, hc, hno, rfl, rfl⟩
    · cases h
  · rintro (⟨hno, rfl, rfl⟩ | ⟨before, after, t, canonical, rfl, hc, hno, rfl, rfl⟩)
    · rw [List.filter_eq_nil_iff.2 (by simpa using hno)]
    · obtain ⟨hone, hrest⟩ := filter_keyword (g.mem_literals_of_canonical? hc) hno
      simp only [hone, hrest, hc, Option.getD_some]

/-- Tokens are items throughout exactly when nothing is lost among them. -/
theorem map_eq_map_some_iff {α β : Type} {f : α → Option β} {as : List α} {bs : List β} :
    as.map f = bs.map some ↔ (∀ a ∈ as, (f a).isSome) ∧ as.filterMap f = bs := by
  induction as generalizing bs with
  | nil => cases bs <;> simp
  | cons a as ih =>
    cases ha : f a with
    | none =>
      simp only [List.map_cons, ha, List.forall_mem_cons, Option.isSome_none, Bool.false_eq_true,
        false_and, iff_false]
      cases bs <;> simp
    | some b =>
      rw [List.filterMap_cons_some ha, List.map_cons, ha, List.forall_mem_cons, ha]
      cases bs with
      | nil => simp
      | cons c cs => simp [ih, and_left_comm]

theorem bindList_eq_iff {form : ItemForm} {reserved : String → Bool} :
    bindList form reserved tokens = (v, left) ↔
      ∃ run items, tokens = run ++ left ∧ run.map (item? form reserved) = items.map some ∧
        (∀ t ∈ left.head?, item? form reserved t = none) ∧ v = .list items := by
  simp only [bindList, Prod.mk.injEq, map_eq_map_some_iff]
  constructor
  · rintro ⟨rfl, rfl⟩
    refine ⟨_, _, List.takeWhile_append_dropWhile.symm, ⟨fun t => List.mem_takeWhile_imp, rfl⟩,
      fun t ht => ?_, rfl⟩
    have := List.head?_dropWhile_not (fun t => (item? form reserved t).isSome) tokens
    rw [Option.mem_def.1 ht] at this
    simpa using this
  · rintro ⟨run, items, rfl, ⟨hrun, rfl⟩, hleft, rfl⟩
    rw [List.takeWhile_append_of_pos hrun, List.dropWhile_append_of_pos hrun]
    cases left with
    | nil => simp
    | cons t left => simp [hleft t rfl]

theorem bind_keywords (name : String) (g : KeywordGroup) (c : Command) (index stop : Nat)
    (tokens : List Token) :
    bind ⟨name, .keywords g⟩ c index stop tokens = bindKeyword name g tokens := rfl

theorem bind_list (name : String) (form : ItemForm) (c : Command) (index stop : Nat)
    (tokens : List Token) :
    bind ⟨name, .list form⟩ c index stop tokens =
      .ok (bindList form (c.isReservedElsewhere · index) tokens) := rfl

/-- An argument binds exactly along the rules. -/
theorem bind_eq_ok_iff {a : Argument} {c : Command} {index : Nat} (stop : Nat) :
    a.bind c index stop tokens = .ok (v, left) ↔
      a.Takes (c.isReservedElsewhere · index) tokens v left := by
  obtain ⟨name, kind⟩ := a
  cases kind with
  | positional =>
    rw [bind, bindPositional_eq_ok_iff]
    constructor
    · rintro ⟨t, rfl, rfl⟩
      exact .positional
    · rintro ⟨⟩
      exact ⟨_, rfl, rfl⟩
  | query =>
    rw [bind, bindQuery_eq_ok_iff]
    constructor
    · rintro ⟨t, q, rfl, hq, rfl⟩
      exact .query hq
    · rintro ⟨⟩
      exact ⟨_, _, rfl, ‹_›, rfl⟩
  | validated validator default =>
    rw [bind, bindValidated_eq_ok_iff]
    constructor
    · rintro (⟨t, rfl, hv⟩ | ⟨hv, rfl, rfl⟩)
      · exact .accepted hv
      · exact .defaulted hv
    · intro h
      cases h with
      | accepted hv => exact .inl ⟨_, rfl, hv⟩
      | defaulted hv => exact .inr ⟨hv, rfl, rfl⟩
  | keywords g =>
    rw [bind_keywords, bindKeyword_eq_ok_iff]
    constructor
    · rintro (⟨hno, rfl, rfl⟩ | ⟨before, after, t, canonical, rfl, ht, hno, rfl, rfl⟩)
      · exact .unchosen hno
      · exact .chosen ht hno
    · intro h
      cases h with
      | unchosen hno => exact .inl ⟨hno, rfl, rfl⟩
      | chosen ht hno => exact .inr ⟨_, _, _, _, rfl, ht, hno, rfl, rfl⟩
  | list form =>
    rw [bind_list, Except.ok.injEq, bindList_eq_iff]
    constructor
    · rintro ⟨run, items, rfl, hrun, hrest, rfl⟩
      exact .items hrun hrest
    · intro h
      cases h with
      | items hrun hrest => exact ⟨_, _, rfl, hrun, hrest, rfl⟩

/-- Where no token is left an argument gets its default. -/
theorem takes_noTokens_iff {a : Argument} {reserved : String → Bool} :
    a.Takes reserved [] v left ↔ a.default? = some v ∧ left = [] := by
  constructor
  · intro h
    generalize hnone : ([] : List Token) = tokens at h
    cases h with
    | positional => cases hnone
    | query => cases hnone
    | accepted => cases hnone
    | defaulted => exact ⟨rfl, rfl⟩
    | unchosen => exact ⟨rfl, rfl⟩
    | chosen => exact absurd hnone.symm (by simp)
    | items hrun =>
      obtain ⟨rfl, rfl⟩ := List.append_eq_nil_iff.1 hnone.symm
      rw [List.map_eq_nil_iff.1 hrun.symm]
      exact ⟨rfl, rfl⟩
  · obtain ⟨name, kind⟩ := a
    rintro ⟨h, rfl⟩
    cases kind with
    | positional => cases h
    | query => cases h
    | validated validator default =>
      obtain rfl : default = some v := h
      exact .defaulted nofun
    | keywords g =>
      cases h
      exact .unchosen nofun
    | list form =>
      cases h
      exact @Takes.items _ _ _ [] [] [] rfl nofun

end Argument

/-! ## All arguments -/

namespace Command

/-- Arguments from place `index` on take their values in turn, and leave some tokens. -/
inductive TakesFrom (c : Command) :
    Nat → List Argument → List Token → List Value → List Token → Prop
  | nil {index : Nat} {tokens : List Token} : TakesFrom c index [] tokens [] tokens
  | cons {index : Nat} {a : Argument} {as : List Argument} {tokens passed left : List Token}
      {v : Value} {vs : List Value} : a.Takes (c.isReservedElsewhere · index) tokens v passed →
      TakesFrom c (index + 1) as passed vs left → TakesFrom c index (a :: as) tokens (v :: vs) left

variable {c : Command} {stop : Nat} {tokens left : List Token}

theorem bindFrom_eq_ok_iff {index : Nat} {as : List Argument} {vs : List Value} :
    c.bindFrom stop index as tokens = .ok (vs, left) ↔ c.TakesFrom index as tokens vs left := by
  induction as generalizing index tokens left vs with
  | nil =>
    rw [bindFrom, Except.ok.injEq, Prod.mk.injEq]
    constructor
    · rintro ⟨rfl, rfl⟩
      exact .nil
    · rintro ⟨⟩
      exact ⟨rfl, rfl⟩
  | cons a as ih =>
    rw [bindFrom]
    simp only [Except.bind_eq_ok_iff, Prod.exists, Argument.bind_eq_ok_iff, ih]
    constructor
    · rintro ⟨v, passed, ha, ws, rest, has, h⟩
      cases h
      exact .cons ha has
    · intro h
      cases h with
      | cons ha has => exact ⟨_, _, ha, _, _, has, rfl⟩

theorem takesFrom_nil_iff {index : Nat} {vs : List Value} :
    c.TakesFrom index [] tokens vs left ↔ vs = [] ∧ left = tokens := by
  constructor
  · rintro ⟨⟩
    exact ⟨rfl, rfl⟩
  · rintro ⟨rfl, rfl⟩
    exact .nil

theorem takesFrom_cons_iff {index : Nat} {a : Argument} {as : List Argument} {vs : List Value} :
    c.TakesFrom index (a :: as) tokens vs left ↔
      ∃ v passed ws, vs = v :: ws ∧ a.Takes (c.isReservedElsewhere · index) tokens v passed ∧
        c.TakesFrom (index + 1) as passed ws left := by
  constructor
  · intro h
    cases h with
    | cons ha has => exact ⟨_, _, _, rfl, ha, has⟩
  · rintro ⟨v, passed, ws, rfl, ha, has⟩
    exact .cons ha has

theorem TakesFrom.length_eq {index : Nat} {as : List Argument} {vs : List Value}
    (h : c.TakesFrom index as tokens vs left) : as.length = vs.length := by
  induction h with
  | nil => rfl
  | cons _ _ ih => rw [List.length_cons, List.length_cons, ih]

/-- Where no token is left, arguments take their values exactly if each has a default. -/
theorem takesFrom_noTokens_iff {index : Nat} {as : List Argument} {vs : List Value} :
    c.TakesFrom index as [] vs left ↔ as.map Argument.default? = vs.map some ∧ left = [] := by
  induction as generalizing index vs with
  | nil => rw [takesFrom_nil_iff, List.map_nil, List.nil_eq, List.map_eq_nil_iff]
  | cons a as ih =>
    simp only [takesFrom_cons_iff, Argument.takes_noTokens_iff, List.map_cons]
    constructor
    · rintro ⟨v, _, ws, rfl, ⟨ha, rfl⟩, has⟩
      obtain ⟨hdefaults, rfl⟩ := ih.1 has
      exact ⟨by rw [ha, hdefaults, List.map_cons], rfl⟩
    · rintro ⟨h, rfl⟩
      cases vs with
      | nil => cases h
      | cons v vs =>
        obtain ⟨ha, has⟩ := List.cons.inj h
        exact ⟨v, [], vs, rfl, ⟨ha, rfl⟩, ih.2 ⟨has, rfl⟩⟩

/-- Arguments in front of others bind first. -/
theorem takesFrom_append_iff {index : Nat} {as bs : List Argument} {vs : List Value} :
    c.TakesFrom index (as ++ bs) tokens vs left ↔
      ∃ us passed ws, vs = us ++ ws ∧ c.TakesFrom index as tokens us passed ∧
        c.TakesFrom (index + as.length) bs passed ws left := by
  induction as generalizing index tokens vs with
  | nil =>
    constructor
    · intro h
      exact ⟨[], tokens, vs, rfl, .nil, h⟩
    · rintro ⟨us, passed, ws, rfl, h, h'⟩
      cases h
      exact h'
  | cons a as ih =>
    simp only [List.cons_append, takesFrom_cons_iff, ih]
    constructor
    · rintro ⟨v, passed, _, rfl, ha, us, passed', ws, rfl, has, hbs⟩
      refine ⟨v :: us, passed', ws, rfl, ⟨v, passed, us, rfl, ha, has⟩, ?_⟩
      rwa [List.length_cons, Nat.add_comm as.length, ← Nat.add_assoc]
    · rintro ⟨_, passed', ws, rfl, ⟨v, passed, us, rfl, ha, has⟩, hbs⟩
      refine ⟨v, passed, us ++ ws, rfl, ha, us, passed', ws, rfl, has, ?_⟩
      rwa [List.length_cons, Nat.add_comm as.length, ← Nat.add_assoc] at hbs

/-- A command binds when its arguments take their values in turn and nothing is left that it
rejects. -/
theorem bind_eq_ok_iff {m : NameMap Value} :
    c.bind stop tokens = .ok m ↔
      ∃ vs left, c.TakesFrom 0 c.arguments tokens vs left ∧ (c.trailing = .reject → left = []) ∧
        m = NameMap.ofList ((c.arguments.map Argument.name).zip vs) := by
  rw [bind, bindValues]
  simp only [Except.bind_eq_ok_iff, Prod.exists, bindFrom_eq_ok_iff]
  constructor
  · rintro ⟨_, ⟨vs, left, h, ht⟩, hm⟩
    cases hm
    cases hc : c.trailing with
    | ignore =>
      rw [hc] at ht
      cases ht
      exact ⟨_, left, h, nofun, rfl⟩
    | reject =>
      cases left with
      | nil =>
        rw [hc] at ht
        cases ht
        exact ⟨_, [], h, fun _ => rfl, rfl⟩
      | cons t left =>
        rw [hc] at ht
        cases ht
  · rintro ⟨vs, left, h, ht, rfl⟩
    refine ⟨vs, ⟨vs, left, h, ?_⟩, rfl⟩
    cases hc : c.trailing with
    | ignore => rfl
    | reject => rw [ht hc]

/-- A command binds without any token exactly if each of its arguments has a default, and the
arguments have these values then. -/
theorem bind_noTokens_iff {m : NameMap Value} :
    c.bind stop [] = .ok m ↔
      ∃ vs, c.arguments.map Argument.default? = vs.map some ∧
        m = NameMap.ofList ((c.arguments.map Argument.name).zip vs) := by
  simp only [bind_eq_ok_iff, takesFrom_noTokens_iff]
  constructor
  · rintro ⟨vs, left, ⟨h, -⟩, -, hm⟩
    exact ⟨vs, h, hm⟩
  · rintro ⟨vs, h, hm⟩
    exact ⟨vs, [], ⟨h, rfl⟩, fun _ => rfl, hm⟩

end Command

end ChatOps
