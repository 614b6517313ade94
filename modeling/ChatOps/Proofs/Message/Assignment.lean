/-
The grammar of arguments by position. The places of the tokens are shared out among the arguments
of a command: each owns what it may own of the places that no earlier argument owns. The binder,
which takes tokens out of a queue, succeeds exactly when the places can be shared out in this way;
there is then one way to do so, and it says what every value is.
-/
import ChatOps.Builtin
import ChatOps.Proofs.Message.Ownership

namespace ChatOps

namespace Command

variable {c : Command} {tokens : List Token}

/-- The places that none of these sets holds. -/
def freeOf (owned : List (Places tokens)) : Places tokens :=
  Finset.univ.filter fun p => owned.all (p ∉ ·) = true

theorem mem_freeOf {owned : List (Places tokens)} {p : Fin tokens.length} :
    p ∈ freeOf owned ↔ ∀ own ∈ owned, p ∉ own := by
  simp [freeOf]

/-- Sets of places, one for each argument. No two of them share a place, each is what its argument
owns when the sets before it are taken, and a command that rejects what is left over owns every
place. -/
structure Assignment (c : Command) (tokens : List Token) (owned : List (Places tokens)) : Prop where
  length : owned.length = c.arguments.length
  disjoint : owned.Pairwise Disjoint
  owns : ∀ (i : Nat) (a : Argument) (own : Places tokens), c.arguments[i]? = some a →
    owned[i]? = some own → a.Owns c i (freeOf (owned.take i)) own
  complete : c.trailing = .reject → freeOf owned = ∅

/-- Arguments from place `index` on own some of the free places in turn, and leave others. -/
inductive OwnsFrom (c : Command) : Nat → List Argument → Places tokens → List (Places tokens) →
    Places tokens → Prop
  | nil {index : Nat} {free : Places tokens} : OwnsFrom c index [] free [] free
  | cons {index : Nat} {a : Argument} {as : List Argument} {free own left : Places tokens}
      {owned : List (Places tokens)} : a.Owns c index free own →
      OwnsFrom c (index + 1) as (free \ own) owned left →
      OwnsFrom c index (a :: as) free (own :: owned) left

/-- What each argument makes of the texts at the places it owns. -/
def valuesOf (as : List Argument) (owned : List (Places tokens)) : List (Option Value) :=
  List.zipWith (fun a own => a.valueOf? (textsAt own)) as owned

theorem takesFrom_tokensAt_iff {index : Nat} {as : List Argument} {free : Places tokens}
    {vs : List Value} {left : List Token} :
    c.TakesFrom index as (tokensAt free) vs left ↔
      ∃ owned rest, c.OwnsFrom index as free owned rest ∧ left = tokensAt rest ∧
        valuesOf as owned = vs.map some := by
  induction as generalizing index free vs with
  | nil =>
    constructor
    · rintro ⟨⟩
      exact ⟨[], free, .nil, rfl, rfl⟩
    · rintro ⟨owned, rest, ⟨⟩, rfl, hvs⟩
      cases vs with
      | nil => exact .nil
      | cons v vs => cases hvs
  | cons a as ih =>
    constructor
    · intro h
      cases h with
      | cons ha has =>
        obtain ⟨own, hown, rfl, hv⟩ := Argument.takes_tokensAt_iff.1 ha
        obtain ⟨owned, rest, howned, rfl, hvs⟩ := ih.1 has
        refine ⟨own :: owned, rest, .cons hown howned, rfl, ?_⟩
        rw [valuesOf, List.zipWith_cons_cons, hv, List.map_cons, ← hvs, valuesOf]
    · rintro ⟨owned, rest, h, rfl, hvs⟩
      cases h with
      | cons hown howned =>
        cases vs with
        | nil => cases hvs
        | cons v vs =>
          rw [valuesOf, List.zipWith_cons_cons, List.map_cons, List.cons.injEq] at hvs
          exact .cons (Argument.takes_tokensAt_iff.2 ⟨_, hown, rfl, hvs.1⟩)
            (ih.2 ⟨_, _, howned, rfl, hvs.2⟩)

theorem OwnsFrom.unique {index : Nat} {as : List Argument} {free left left' : Places tokens}
    {owned owned' : List (Places tokens)} (h : c.OwnsFrom index as free owned left)
    (h' : c.OwnsFrom index as free owned' left') : owned = owned' := by
  induction h generalizing owned' with
  | nil =>
    cases h'
    rfl
  | cons hown _ ih =>
    cases h' with
    | cons hown' howned' =>
      obtain rfl := hown.unique hown'
      rw [ih howned']

/-- What arguments own in turn lies among the free places, without overlap, and what is left is
the rest. -/
theorem OwnsFrom.disjoint {index : Nat} {as : List Argument} {free left : Places tokens}
    {owned : List (Places tokens)} (h : c.OwnsFrom index as free owned left) :
    owned.Pairwise Disjoint ∧ ∀ own ∈ owned, own ⊆ free := by
  induction h with
  | nil => exact ⟨.nil, by simp⟩
  | cons hown _ ih =>
    obtain ⟨hpair, hsub⟩ := ih
    refine ⟨List.pairwise_cons.2 ⟨fun o ho => ?_, hpair⟩, List.forall_mem_cons.2 ⟨hown.subset, ?_⟩⟩
    · exact (Finset.disjoint_sdiff).mono_right (hsub o ho)
    · exact fun o ho => (hsub o ho).trans Finset.sdiff_subset

theorem OwnsFrom.exists_values {index : Nat} {as : List Argument} {free left : Places tokens}
    {owned : List (Places tokens)} (h : c.OwnsFrom index as free owned left) :
    ∃ vs : List Value, valuesOf as owned = vs.map some := by
  induction h with
  | nil => exact ⟨[], rfl⟩
  | cons hown _ ih =>
    obtain ⟨v, hv⟩ := hown.exists_value
    obtain ⟨vs, hvs⟩ := ih
    refine ⟨v :: vs, ?_⟩
    rw [valuesOf, List.zipWith_cons_cons, hv, List.map_cons, ← hvs, valuesOf]

@[simp] theorem freeOf_nil : freeOf ([] : List (Places tokens)) = Finset.univ := by
  simp [freeOf]

theorem inter_freeOf_cons (free own : Places tokens) (owned : List (Places tokens)) :
    free ∩ freeOf (own :: owned) = (free \ own) ∩ freeOf owned := by
  ext p
  simp [mem_freeOf, and_assoc]

/-- Owning in turn, said for each argument by itself. -/
theorem ownsFrom_iff {index : Nat} {as : List Argument} {free left : Places tokens}
    {owned : List (Places tokens)} :
    c.OwnsFrom index as free owned left ↔
      owned.length = as.length ∧
        (∀ (i : Nat) (a : Argument) (own : Places tokens), as[i]? = some a → owned[i]? = some own →
          a.Owns c (index + i) (free ∩ freeOf (owned.take i)) own) ∧
        left = free ∩ freeOf owned := by
  induction as generalizing index free owned with
  | nil =>
    constructor
    · rintro ⟨⟩
      exact ⟨rfl, by simp, by simp⟩
    · rintro ⟨hlen, -, rfl⟩
      obtain rfl := List.length_eq_zero_iff.1 hlen
      rw [freeOf_nil, Finset.inter_univ]
      exact .nil
  | cons a as ih =>
    constructor
    · intro h
      cases h with
      | @cons _ _ _ _ own _ owned hown howned =>
        obtain ⟨hlen, hall, rfl⟩ := ih.1 howned
        refine ⟨by rw [List.length_cons, List.length_cons, hlen], fun i b o hb ho => ?_, ?_⟩
        -- the first argument sees all free places, the others what it leaves
        · cases i with
          | zero =>
            cases hb
            cases ho
            rw [List.take_zero, freeOf_nil, Finset.inter_univ]
            exact hown
          | succ i =>
            rw [List.take_succ_cons, inter_freeOf_cons, ← Nat.add_assoc, Nat.add_right_comm]
            exact hall i b o hb ho
        · rw [inter_freeOf_cons]
    · rintro ⟨hlen, hall, rfl⟩
      cases owned with
      | nil => cases hlen
      | cons own owned =>
        refine .cons ?_ (ih.2 ⟨Nat.succ.inj hlen, fun i b o hb ho => ?_, ?_⟩)
        · have h := hall 0 a own rfl rfl
          rw [List.take_zero, freeOf_nil, Finset.inter_univ] at h
          exact h
        · have h := hall (i + 1) b o hb ho
          rw [List.take_succ_cons, inter_freeOf_cons, ← Nat.add_assoc, Nat.add_right_comm] at h
          exact h
        · rw [inter_freeOf_cons]

theorem assignment_iff {owned : List (Places tokens)} :
    c.Assignment tokens owned ↔
      c.OwnsFrom 0 c.arguments Finset.univ owned (freeOf owned) ∧
        (c.trailing = .reject → freeOf owned = ∅) := by
  constructor
  · rintro ⟨hlen, -, howns, hcomplete⟩
    refine ⟨ownsFrom_iff.2 ⟨hlen, fun i a own ha ho => ?_, ?_⟩, hcomplete⟩
    · rw [Nat.zero_add, Finset.univ_inter]
      exact howns i a own ha ho
    · rw [Finset.univ_inter]
  · rintro ⟨h, hcomplete⟩
    obtain ⟨hlen, howns, -⟩ := ownsFrom_iff.1 h
    refine ⟨hlen, h.disjoint.1, fun i a own ha ho => ?_, hcomplete⟩
    have := howns i a own ha ho
    rw [Nat.zero_add, Finset.univ_inter] at this
    exact this

theorem Assignment.not_mem_of_lt {owned : List (Places tokens)} (h : c.Assignment tokens owned)
    {i j : Nat} {own own' : Places tokens} (hij : i < j) (hi : owned[i]? = some own)
    (hj : owned[j]? = some own') {p : Fin tokens.length} (hp : p ∈ own) : p ∉ own' := by
  obtain ⟨hli, rfl⟩ := List.getElem?_eq_some_iff.1 hi
  obtain ⟨hlj, rfl⟩ := List.getElem?_eq_some_iff.1 hj
  exact Finset.disjoint_left.1 (List.pairwise_iff_getElem.1 h.disjoint i j hli hlj hij) hp

/-- Every place is owned by one argument or by none. -/
theorem Assignment.place {owned : List (Places tokens)} (h : c.Assignment tokens owned)
    (p : Fin tokens.length) :
    (∃! i : Nat, ∃ own, owned[i]? = some own ∧ p ∈ own) ∨ p ∈ freeOf owned := by
  by_cases hp : ∃ own ∈ owned, p ∈ own
  · obtain ⟨own, hown, hp⟩ := hp
    obtain ⟨i, hi⟩ := List.mem_iff_getElem?.1 hown
    refine .inl ⟨i, ⟨own, hi, hp⟩, ?_⟩
    rintro j ⟨own', hj, hp'⟩
    rcases Nat.lt_trichotomy i j with hij | rfl | hij
    · exact absurd hp' (h.not_mem_of_lt hij hi hj hp)
    · rfl
    · exact absurd hp (h.not_mem_of_lt hij hj hi hp')
  · exact .inr (mem_freeOf.2 fun own hown hmem => hp ⟨own, hown, hmem⟩)

/-- Places that are shared out are taken in turn, and what each argument makes of its own is its
value. -/
theorem Assignment.exists_takesFrom {owned : List (Places tokens)} (h : c.Assignment tokens owned) :
    ∃ values, valuesOf c.arguments owned = values.map some ∧
      c.TakesFrom 0 c.arguments tokens values (tokensAt (freeOf owned)) := by
  obtain ⟨howns, -⟩ := assignment_iff.1 h
  obtain ⟨values, hv⟩ := howns.exists_values
  have htakes := takesFrom_tokensAt_iff.2 ⟨owned, _, howns, rfl, hv⟩
  rw [tokensAt_univ] at htakes
  exact ⟨values, hv, htakes⟩

/-- Tokens that are taken in turn, so that nothing is left that the command rejects, are shared
out. -/
theorem TakesFrom.exists_assignment {vs : List Value} {left : List Token}
    (h : c.TakesFrom 0 c.arguments tokens vs left) (hleft : c.trailing = .reject → left = []) :
    ∃ owned, c.Assignment tokens owned := by
  rw [← tokensAt_univ tokens] at h
  obtain ⟨owned, rest, howns, rfl, -⟩ := takesFrom_tokensAt_iff.1 h
  obtain ⟨-, -, hrest⟩ := ownsFrom_iff.1 howns
  rw [Finset.univ_inter] at hrest
  subst hrest
  exact ⟨owned, assignment_iff.2 ⟨howns, fun hc => tokensAt_eq_nil_iff.1 (hleft hc)⟩⟩

/-- The binder succeeds exactly when the places can be shared out among the arguments. There is then
one way to do so: it says what every value is and which tokens are left over, and every place is
owned by one argument or left over. -/
theorem bind_iff_assignment (c : Command) (stop : Nat) (tokens : List Token) :
    ((∃ augments, c.bind stop tokens = .ok augments) ↔ ∃ owned, c.Assignment tokens owned) ∧
    ∀ owned, c.Assignment tokens owned →
      (∀ owned', c.Assignment tokens owned' → owned' = owned) ∧
      (∀ p, (∃! i : Nat, ∃ own, owned[i]? = some own ∧ p ∈ own) ∨ p ∈ freeOf owned) ∧
      ∃ values, valuesOf c.arguments owned = values.map some ∧
        c.bindFrom stop 0 c.arguments tokens = .ok (values, tokensAt (freeOf owned)) ∧
        c.bind stop tokens = .ok (NameMap.ofList ((c.arguments.map Argument.name).zip values)) := by
  have hvalues : ∀ owned, c.Assignment tokens owned →
      ∃ values, valuesOf c.arguments owned = values.map some ∧
        c.bindFrom stop 0 c.arguments tokens = .ok (values, tokensAt (freeOf owned)) ∧
        c.bind stop tokens =
          .ok (NameMap.ofList ((c.arguments.map Argument.name).zip values)) := by
    intro owned h
    obtain ⟨values, hv, htakes⟩ := h.exists_takesFrom
    refine ⟨values, hv, bindFrom_eq_ok_iff.2 htakes, bind_eq_ok_iff.2 ⟨_, _, htakes, ?_, rfl⟩⟩
    exact fun hc => tokensAt_eq_nil_iff.2 (h.complete hc)
  refine ⟨⟨?_, fun ⟨owned, h⟩ => ?_⟩, fun owned h => ⟨fun owned' h' => ?_, h.place, hvalues owned h⟩⟩
  · rintro ⟨augments, h⟩
    obtain ⟨vs, left, htakes, hleft, -⟩ := bind_eq_ok_iff.1 h
    exact htakes.exists_assignment hleft
  · obtain ⟨values, -, -, hb⟩ := hvalues owned h
    exact ⟨_, hb⟩
  · exact (assignment_iff.1 h').1.unique (assignment_iff.1 h).1

/-- A keyword that stands last, and a number that stands before it. -/
theorem bind_iff_assignment_logs :
    ∃ owned : List (Places [⟨"pod/web", 1⟩, ⟨"5", 2⟩, ⟨"top", 3⟩]),
      Builtin.logs.Assignment _ owned ∧
      (∀ owned', Builtin.logs.Assignment _ owned' → owned' = owned) ∧
      valuesOf Builtin.logs.arguments owned =
        [some (.query ⟨"pod", "web", none⟩), some (.keyword "top"), some (.integer 5)] := by
  have hb : Builtin.logs.bindFrom 4 0 Builtin.logs.arguments
      [⟨"pod/web", 1⟩, ⟨"5", 2⟩, ⟨"top", 3⟩] =
        .ok ([.query ⟨"pod", "web", none⟩, .keyword "top", .integer 5], []) := by
    decide +kernel
  obtain ⟨hiff, hall⟩ :=
    bind_iff_assignment Builtin.logs 4 [⟨"pod/web", 1⟩, ⟨"5", 2⟩, ⟨"top", 3⟩]
  obtain ⟨owned, h⟩ := hiff.1 ⟨_, by rw [bind, bindValues, hb]; rfl⟩
  obtain ⟨hunique, -, values, hvalues, hbind, -⟩ := hall owned h
  rw [hb, Except.ok.injEq, Prod.mk.injEq] at hbind
  obtain ⟨rfl, -⟩ := hbind
  exact ⟨owned, h, hunique, hvalues⟩

end Command

end ChatOps
