/-
What an argument owns. Tokens keep their places in the message, an argument owns a set of them, and
what it may own depends only on the places that are free. Taking tokens out of a queue is owning
places among the free ones.
-/
import ChatOps.Proofs.Message.Binding
import ChatOps.Proofs.Message.Places

namespace ChatOps

/-! ## What an argument owns -/

/-- Another argument than the one at place `index` has the word as a keyword. -/
def Command.Reserves (c : Command) (index : Nat) (word : String) : Prop :=
  ∃ i a, c.arguments[i]? = some a ∧ i ≠ index ∧ word ∈ a.reserved

namespace Argument

variable {tokens : List Token}

/-- Some free places are a run of items: they begin with the first free place, none between them is
left out, and each token is an item that no other argument has as a keyword. -/
def IsRun (c : Command) (index : Nat) (form : ItemForm) (free run : Places tokens) : Prop :=
  run ⊆ free ∧ (∀ p ∈ run, ∀ q ∈ free, q ≤ p → q ∈ run) ∧
    ∀ p ∈ run, (form.accept? (tokens.get p).text).isSome ∧ ¬ c.Reserves index (tokens.get p).text

/-- What the argument at place `index` owns when these places are free. -/
def Owns (c : Command) (index : Nat) (a : Argument) (free own : Places tokens) : Prop :=
  match a.kind with
  | .positional => ∃ p, IsLeast (free : Set (Fin tokens.length)) p ∧ own = {p}
  | .query =>
    ∃ p, IsLeast (free : Set (Fin tokens.length)) p ∧ own = {p} ∧
      ∃ q, Query.parse (tokens.get p).text = .ok q
  | .validated validator default =>
    (∃ p, IsLeast (free : Set (Fin tokens.length)) p ∧ own = {p} ∧
      (validator.validate? (tokens.get p).text).isSome) ∨
    ((∀ p, IsLeast (free : Set (Fin tokens.length)) p →
      validator.validate? (tokens.get p).text = none) ∧ own = ∅ ∧ default.isSome)
  | .keywords g => own = free.filter (fun p => (tokens.get p).text ∈ g.literals) ∧ own.card ≤ 1
  | .list form => IsGreatest {run | IsRun c index form free run} own

/-- The value that the texts of its tokens give an argument. -/
def valueOf? : Argument → List String → Option Value
  | ⟨_, .positional⟩, [text] => some (.text text)
  | ⟨_, .query⟩, [text] => (Query.parse text).toOption.map .query
  | ⟨_, .validated validator _⟩, [text] => validator.validate? text
  | ⟨_, .validated _ default⟩, [] => default
  | ⟨_, .keywords g⟩, [text] => (g.canonical? text).map .keyword
  | ⟨_, .keywords g⟩, [] => some (.keyword g.fallback)
  | ⟨_, .list form⟩, texts => some (.list (texts.filterMap form.accept?))
  | _, _ => none

variable {c : Command} {index : Nat} {name : String} {free own : Places tokens}

theorem Owns.subset {a : Argument} (h : a.Owns c index free own) : own ⊆ free := by
  obtain ⟨name, kind⟩ := a
  cases kind with
  | positional =>
    obtain ⟨p, hp, rfl⟩ := h
    exact Finset.singleton_subset_iff.2 hp.1
  | query =>
    obtain ⟨p, hp, rfl, -⟩ := h
    exact Finset.singleton_subset_iff.2 hp.1
  | validated validator default =>
    obtain ⟨p, hp, rfl, -⟩ | ⟨-, rfl, -⟩ := h
    · exact Finset.singleton_subset_iff.2 hp.1
    · exact Finset.empty_subset _
  | keywords g =>
    obtain ⟨rfl, -⟩ := h
    exact Finset.filter_subset _ _
  | list form => exact h.1.1

/-- The free places leave an argument no choice. -/
theorem Owns.unique {a : Argument} {own' : Places tokens} (h : a.Owns c index free own)
    (h' : a.Owns c index free own') : own = own' := by
  obtain ⟨name, kind⟩ := a
  cases kind with
  | positional =>
    obtain ⟨p, hp, rfl⟩ := h
    obtain ⟨p', hp', rfl⟩ := h'
    rw [hp.unique hp']
  | query =>
    obtain ⟨p, hp, rfl, -⟩ := h
    obtain ⟨p', hp', rfl, -⟩ := h'
    rw [hp.unique hp']
  | validated validator default =>
    obtain ⟨p, hp, rfl, hv⟩ | ⟨hv, rfl, -⟩ := h
    · obtain ⟨p', hp', rfl, -⟩ | ⟨hv', -, -⟩ := h'
      · rw [hp.unique hp']
      · rw [hv' p hp] at hv
        cases hv
    · obtain ⟨p', hp', rfl, hv'⟩ | ⟨-, rfl, -⟩ := h'
      · rw [hv p' hp'] at hv'
        cases hv'
      · rfl
  | keywords g =>
    obtain ⟨rfl, -⟩ := h
    exact h'.1.symm
  | list form => exact IsGreatest.unique h h'

/-! ## One argument -/

variable {v : Value} {left : List Token} {reserved : String → Bool}

theorem takes_positional_iff :
    Takes reserved ⟨name, .positional⟩ (tokensAt free) v left ↔
      ∃ own, Owns c index ⟨name, .positional⟩ free own ∧ left = tokensAt (free \ own) ∧
        valueOf? ⟨name, .positional⟩ (textsAt own) = some v := by
  constructor
  · intro h
    rcases eq_empty_or_isLeast free with rfl | ⟨p, hp⟩
    · rw [tokensAt_empty] at h
      cases h
    · rw [tokensAt_of_isLeast hp] at h
      cases h
      refine ⟨_, ⟨p, hp, rfl⟩, rfl, ?_⟩
      rw [textsAt_singleton, valueOf?]
  · rintro ⟨own, ⟨p, hp, rfl⟩, rfl, hv⟩
    rw [textsAt_singleton, valueOf?, Option.some.injEq] at hv
    rw [tokensAt_of_isLeast hp, ← hv]
    exact .positional

theorem takes_query_iff :
    Takes reserved ⟨name, .query⟩ (tokensAt free) v left ↔
      ∃ own, Owns c index ⟨name, .query⟩ free own ∧ left = tokensAt (free \ own) ∧
        valueOf? ⟨name, .query⟩ (textsAt own) = some v := by
  constructor
  · intro h
    rcases eq_empty_or_isLeast free with rfl | ⟨p, hp⟩
    · rw [tokensAt_empty] at h
      cases h
    · rw [tokensAt_of_isLeast hp] at h
      cases h with
      | query hq =>
        refine ⟨_, ⟨p, hp, rfl, _, hq⟩, rfl, ?_⟩
        rw [textsAt_singleton, valueOf?, hq]
        rfl
  · rintro ⟨own, ⟨p, hp, rfl, q, hq⟩, rfl, hv⟩
    rw [textsAt_singleton, valueOf?, hq] at hv
    cases hv
    rw [tokensAt_of_isLeast hp]
    exact .query hq

theorem takes_validated_iff {validator : Validator} {default : Option Value} :
    Takes reserved ⟨name, .validated validator default⟩ (tokensAt free) v left ↔
      ∃ own, Owns c index ⟨name, .validated validator default⟩ free own ∧
        left = tokensAt (free \ own) ∧
        valueOf? ⟨name, .validated validator default⟩ (textsAt own) = some v := by
  constructor
  · intro h
    rcases eq_empty_or_isLeast free with rfl | ⟨p, hp⟩
    · rw [tokensAt_empty] at h
      cases h with
      | defaulted _ =>
        refine ⟨∅, .inr ⟨fun p hp => absurd hp not_isLeast_empty, rfl, rfl⟩, by simp, ?_⟩
        rw [textsAt_empty, valueOf?]
    · rw [tokensAt_of_isLeast hp] at h
      cases h with
      | accepted hv =>
        refine ⟨_, .inl ⟨p, hp, rfl, by rw [hv]; rfl⟩, rfl, ?_⟩
        rw [textsAt_singleton, valueOf?, hv]
      | defaulted hv =>
        refine ⟨∅, .inr ⟨fun p' hp' => ?_, rfl, rfl⟩, ?_, ?_⟩
        · rw [hp'.unique hp]
          exact hv _ rfl
        · rw [Finset.sdiff_empty, tokensAt_of_isLeast hp]
        · rw [textsAt_empty, valueOf?]
  · rintro ⟨own, ⟨p, hp, rfl, -⟩ | ⟨hno, rfl, -⟩, rfl, hv⟩
    · rw [textsAt_singleton, valueOf?] at hv
      rw [tokensAt_of_isLeast hp]
      exact .accepted hv
    · rw [textsAt_empty, valueOf?] at hv
      subst hv
      rw [Finset.sdiff_empty]
      refine .defaulted fun t ht => ?_
      rcases eq_empty_or_isLeast free with rfl | ⟨p, hp⟩
      · rw [tokensAt_empty] at ht
        cases ht
      · rw [tokensAt_of_isLeast hp] at ht
        cases ht
        exact hno p hp

theorem tokensAt_keywords (g : KeywordGroup) (free : Places tokens) :
    tokensAt (free.filter fun p => (tokens.get p).text ∈ g.literals) =
        (tokensAt free).filter (fun t => g.literals.contains t.text) ∧
      tokensAt (free \ free.filter fun p => (tokens.get p).text ∈ g.literals) =
        (tokensAt free).filter (fun t => !g.literals.contains t.text) := by
  constructor
  · rw [← tokensAt_filter]
    simp only [List.contains_iff_mem]
  · rw [← tokensAt_filter, ← Finset.filter_not]
    simp only [Bool.not_eq_true', ← Bool.not_eq_true, List.contains_iff_mem]

theorem mem_literals_of_tokensAt {g : KeywordGroup} {t : Token}
    (h : tokensAt (free.filter fun p => (tokens.get p).text ∈ g.literals) = [t]) :
    t.text ∈ g.literals := by
  have hmem : t ∈ tokensAt (free.filter fun p => (tokens.get p).text ∈ g.literals) := by
    rw [h]
    exact List.mem_singleton_self t
  obtain ⟨p, hp, rfl⟩ := mem_tokensAt.1 hmem
  exact (Finset.mem_filter.1 hp).2

theorem takes_keywords_iff {g : KeywordGroup} :
    Takes (c.isReservedElsewhere · index) ⟨name, .keywords g⟩ (tokensAt free) v left ↔
      ∃ own, Owns c index ⟨name, .keywords g⟩ free own ∧ left = tokensAt (free \ own) ∧
        valueOf? ⟨name, .keywords g⟩ (textsAt own) = some v := by
  obtain ⟨hkey, hrest⟩ := tokensAt_keywords g free
  -- both sides look at the keywords among the free places: none, one or too many
  rw [← bind_eq_ok_iff 0, bind_keywords, bindKeyword, ← hkey, ← hrest]
  have hcard := length_tokensAt (free.filter fun p => (tokens.get p).text ∈ g.literals)
  constructor
  · intro h
    refine ⟨_, ⟨rfl, ?_⟩, ?_⟩
    · split at h
      · rename_i hn
        rw [hn] at hcard
        exact hcard ▸ Nat.zero_le _
      · rename_i t ht
        rw [ht] at hcard
        exact hcard ▸ le_refl _
      · cases h
    · split at h
      · rename_i hn
        cases h
        rw [textsAt, hn, tokensAt_eq_nil_iff.1 hn, Finset.sdiff_empty]
        exact ⟨rfl, rfl⟩
      · rename_i t ht
        cases h
        obtain ⟨canonical, hc⟩ := g.exists_canonical? (mem_literals_of_tokensAt ht)
        rw [textsAt, ht, List.map_singleton, valueOf?, hc]
        exact ⟨rfl, rfl⟩
      · cases h
  · rintro ⟨own, ⟨rfl, hone⟩, rfl, hv⟩
    split
    · rename_i hn
      rw [textsAt, hn] at hv
      cases hv
      rw [tokensAt_eq_nil_iff.1 hn, Finset.sdiff_empty]
    · rename_i t ht
      rw [textsAt, ht, List.map_singleton, valueOf?] at hv
      obtain ⟨canonical, hc, rfl⟩ := Option.map_eq_some_iff.1 hv
      rw [hc]
      rfl
    · rename_i first duplicate others h
      rw [h, List.length_cons, List.length_cons] at hcard
      omega

/-- The tokens a list argument goes on over. -/
def isItem (c : Command) (index : Nat) (form : ItemForm) (t : Token) : Bool :=
  (item? form (c.isReservedElsewhere · index) t).isSome

theorem isItem_iff {form : ItemForm} {t : Token} :
    isItem c index form t = true ↔
      (form.accept? t.text).isSome ∧ ¬ c.Reserves index t.text := by
  rw [Command.Reserves, ← Command.isReservedElsewhere_iff, isItem, item?]
  split
  · rename_i h
    simp [h]
  · rename_i h
    simp [h]

/-- The run at the front is the longest. -/
theorem isGreatest_frontRun (c : Command) (index : Nat) (form : ItemForm) (free : Places tokens) :
    IsGreatest {run | IsRun c index form free run} (frontRun free (isItem c index form)) := by
  constructor
  · refine ⟨Finset.filter_subset _ _, fun p hp q hq hqp => ?_, fun p hp => ?_⟩
    · rw [frontRun, Finset.mem_filter] at hp ⊢
      exact ⟨hq, fun r hr hrq => hp.2 r hr (hrq.trans hqp)⟩
    · rw [frontRun, Finset.mem_filter] at hp
      exact isItem_iff.1 (hp.2 p hp.1 (le_refl _))
  · rintro run ⟨hsub, hfront, hitems⟩ p hp
    rw [frontRun, Finset.mem_filter]
    exact ⟨hsub hp, fun q hq hqp => isItem_iff.2 (hitems q (hfront p hp q hq hqp))⟩

theorem isGreatest_run_iff {form : ItemForm} :
    IsGreatest {run | IsRun c index form free run} own ↔
      own = frontRun free (isItem c index form) := by
  constructor
  · intro h
    exact h.unique (isGreatest_frontRun c index form free)
  · rintro rfl
    exact isGreatest_frontRun c index form free

theorem takes_list_iff {form : ItemForm} :
    Takes (c.isReservedElsewhere · index) ⟨name, .list form⟩ (tokensAt free) v left ↔
      ∃ own, Owns c index ⟨name, .list form⟩ free own ∧ left = tokensAt (free \ own) ∧
        valueOf? ⟨name, .list form⟩ (textsAt own) = some v := by
  obtain ⟨hrun, hrest⟩ := tokensAt_frontRun free (isItem c index form)
  -- within the run no word is reserved, so its items are those of the texts alone
  have hitems : (textsAt (frontRun free (isItem c index form))).filterMap form.accept? =
      (tokensAt (frontRun free (isItem c index form))).filterMap
        (item? form (c.isReservedElsewhere · index)) := by
    rw [textsAt, List.filterMap_map]
    refine List.filterMap_congr fun t ht => ?_
    rw [hrun] at ht
    have := (isItem_iff.1 (List.mem_takeWhile_imp ht)).2
    rw [Command.Reserves, ← Command.isReservedElsewhere_iff] at this
    rw [item?, if_neg this]
    rfl
  have howns : ∀ own, Owns c index ⟨name, .list form⟩ free own ↔
      own = frontRun free (isItem c index form) := fun own => isGreatest_run_iff
  simp only [howns, exists_eq_left, valueOf?, hitems, hrun, hrest, Option.some.injEq]
  rw [← bind_eq_ok_iff 0, bind_list, bindList, Except.ok.injEq, Prod.mk.injEq, and_comm,
    eq_comm (a := left)]
  rfl

/-- Taking tokens off those at the free places is owning some of the free places. -/
theorem takes_tokensAt_iff {a : Argument} :
    a.Takes (c.isReservedElsewhere · index) (tokensAt free) v left ↔
      ∃ own, a.Owns c index free own ∧ left = tokensAt (free \ own) ∧
        a.valueOf? (textsAt own) = some v := by
  obtain ⟨name, kind⟩ := a
  cases kind with
  | positional => exact takes_positional_iff
  | query => exact takes_query_iff
  | validated validator default => exact takes_validated_iff
  | keywords g => exact takes_keywords_iff
  | list form => exact takes_list_iff

/-- What an argument owns gives it a value. -/
theorem Owns.exists_value {a : Argument} (h : a.Owns c index free own) :
    ∃ v, a.valueOf? (textsAt own) = some v := by
  obtain ⟨name, kind⟩ := a
  cases kind with
  | positional =>
    obtain ⟨p, hp, rfl⟩ := h
    exact ⟨_, by rw [textsAt_singleton, valueOf?]⟩
  | query =>
    obtain ⟨p, hp, rfl, q, hq⟩ := h
    exact ⟨.query q, by rw [textsAt_singleton, valueOf?, hq]; rfl⟩
  | validated validator default =>
    obtain ⟨p, hp, rfl, hv⟩ | ⟨-, rfl, hv⟩ := h
    · rw [textsAt_singleton, valueOf?]
      exact Option.isSome_iff_exists.1 hv
    · rw [textsAt_empty, valueOf?]
      exact Option.isSome_iff_exists.1 hv
  | keywords g =>
    obtain ⟨rfl, hone⟩ := h
    rcases Nat.le_one_iff_eq_zero_or_eq_one.1 hone with h0 | h1
    · rw [Finset.card_eq_zero.1 h0, textsAt_empty, valueOf?]
      exact ⟨_, rfl⟩
    · obtain ⟨p, hp⟩ := Finset.card_eq_one.1 h1
      have hmem : (tokens.get p).text ∈ g.literals := by
        have : p ∈ ({p} : Places tokens) := Finset.mem_singleton_self p
        rw [← hp, Finset.mem_filter] at this
        exact this.2
      obtain ⟨canonical, hc⟩ := g.exists_canonical? hmem
      rw [hp, textsAt_singleton, valueOf?, hc]
      exact ⟨_, rfl⟩
  | list form =>
    rw [valueOf?]
    exact ⟨_, rfl⟩

end Argument

end ChatOps
