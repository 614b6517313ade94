/-
Places among the tokens of a message. A set of places is read from left to right, and what is said
of tokens in a queue (the first one, those that pass a test, the run at the front) is said of sets
of places.
-/
import ChatOps.Message.Token
import Mathlib.Data.Finset.Max
import Mathlib.Data.Fintype.Basic
import Mathlib.Data.List.FinRange
import Mathlib.Data.List.Sort
import Mathlib.Order.Bounds.Basic

namespace ChatOps

/-- A set of places among tokens. -/
abbrev Places (tokens : List Token) := Finset (Fin tokens.length)

variable {tokens : List Token}

/-! ## From left to right -/

/-- Some places, from left to right. -/
def inOrder (s : Places tokens) : List (Fin tokens.length) :=
  (List.finRange tokens.length).filter (· ∈ s)

/-- The tokens at some places, from left to right. -/
def tokensAt (s : Places tokens) : List Token := (inOrder s).map tokens.get

/-- The texts of the tokens at some places, from left to right. -/
def textsAt (s : Places tokens) : List String := (tokensAt s).map Token.text

@[simp] theorem mem_inOrder {s : Places tokens} {p : Fin tokens.length} :
    p ∈ inOrder s ↔ p ∈ s := by
  simp [inOrder]

theorem pairwise_inOrder (s : Places tokens) : (inOrder s).Pairwise (· < ·) :=
  (List.pairwise_lt_finRange _).filter _

/-- An increasing list is the one of its members. -/
theorem eq_inOrder {l : List (Fin tokens.length)} {s : Places tokens}
    (hl : l.Pairwise (· < ·)) (h : ∀ p, p ∈ l ↔ p ∈ s) : l = inOrder s :=
  hl.eq_of_mem_iff (pairwise_inOrder s) fun p => (h p).trans mem_inOrder.symm

theorem inOrder_filter (s : Places tokens) (P : Fin tokens.length → Prop) [DecidablePred P] :
    inOrder (s.filter P) = (inOrder s).filter (P ·) :=
  (eq_inOrder ((pairwise_inOrder s).filter _) (by simp)).symm

@[simp] theorem inOrder_empty : inOrder (∅ : Places tokens) = [] :=
  (eq_inOrder .nil (by simp)).symm

@[simp] theorem inOrder_singleton (p : Fin tokens.length) :
    inOrder ({p} : Places tokens) = [p] :=
  (eq_inOrder (List.pairwise_singleton _ _) (by simp)).symm

@[simp] theorem tokensAt_empty : tokensAt (∅ : Places tokens) = [] := by simp [tokensAt]

@[simp] theorem tokensAt_singleton (p : Fin tokens.length) :
    tokensAt ({p} : Places tokens) = [tokens.get p] := by simp [tokensAt]

@[simp] theorem tokensAt_univ (tokens : List Token) :
    tokensAt (Finset.univ : Places tokens) = tokens := by
  simp [tokensAt, inOrder]

@[simp] theorem textsAt_empty : textsAt (∅ : Places tokens) = [] := by simp [textsAt]

@[simp] theorem textsAt_singleton (p : Fin tokens.length) :
    textsAt ({p} : Places tokens) = [(tokens.get p).text] := by simp [textsAt]

theorem tokensAt_eq_nil_iff {s : Places tokens} : tokensAt s = [] ↔ s = ∅ := by
  rw [tokensAt, List.map_eq_nil_iff, List.eq_nil_iff_forall_not_mem, Finset.eq_empty_iff_forall_notMem]
  simp only [mem_inOrder]

theorem length_tokensAt (s : Places tokens) : (tokensAt s).length = s.card := by
  rw [tokensAt, List.length_map, ← List.toFinset_card_of_nodup ((pairwise_inOrder s).imp ne_of_lt)]
  congr 1
  ext p
  rw [List.mem_toFinset, mem_inOrder]

theorem mem_tokensAt {s : Places tokens} {t : Token} :
    t ∈ tokensAt s ↔ ∃ p ∈ s, tokens.get p = t := by
  simp [tokensAt]

/-- The first of some places comes first. -/
theorem tokensAt_of_isLeast {s : Places tokens} {p : Fin tokens.length} (h : IsLeast ↑s p) :
    tokensAt s = tokens.get p :: tokensAt (s \ {p}) := by
  have : p :: inOrder (s \ {p}) = inOrder s := by
    refine eq_inOrder (List.pairwise_cons.2 ⟨fun q hq => ?_, pairwise_inOrder _⟩) fun q => ?_
    · rw [mem_inOrder, Finset.mem_sdiff, Finset.mem_singleton] at hq
      exact lt_of_le_of_ne (h.2 hq.1) (Ne.symm hq.2)
    · rw [List.mem_cons, mem_inOrder, Finset.mem_sdiff, Finset.mem_singleton]
      constructor
      · rintro (rfl | hq)
        · exact h.1
        · exact hq.1
      · intro hq
        by_cases hqp : q = p
        · exact .inl hqp
        · exact .inr ⟨hq, hqp⟩
  rw [tokensAt, ← this]
  rfl

theorem not_isLeast_empty {p : Fin tokens.length} :
    ¬ IsLeast (↑(∅ : Places tokens) : Set (Fin tokens.length)) p := by
  intro h
  simpa using h.1

theorem eq_empty_or_isLeast (s : Places tokens) :
    s = ∅ ∨ ∃ p, IsLeast (↑s : Set (Fin tokens.length)) p := by
  rcases s.eq_empty_or_nonempty with rfl | h
  · exact .inl rfl
  · exact .inr ⟨_, s.isLeast_min' h⟩

theorem tokensAt_filter (s : Places tokens) (P : Token → Bool) :
    tokensAt (s.filter fun p => P (tokens.get p) = true) = (tokensAt s).filter P := by
  rw [tokensAt, inOrder_filter, tokensAt, List.filter_map]
  simp [Function.comp_def]

/-- The run of places at the front whose tokens satisfy `P`. -/
def frontRun (s : Places tokens) (P : Token → Bool) : Places tokens :=
  s.filter fun p => ∀ q ∈ s, q ≤ p → P (tokens.get q) = true

/-- In an increasing list the run at the front reaches as far as nothing before fails. -/
theorem mem_takeWhile_iff {α : Type} [LinearOrder α] {l : List α} (h : l.Pairwise (· < ·))
    {P : α → Bool} {a : α} : a ∈ l.takeWhile P ↔ a ∈ l ∧ ∀ b ∈ l, b ≤ a → P b = true := by
  induction l with
  | nil => simp
  | cons c l ih =>
    obtain ⟨hc, hl⟩ := List.pairwise_cons.1 h
    by_cases hp : P c = true
    · rw [List.takeWhile_cons_of_pos hp, List.mem_cons, List.mem_cons, List.forall_mem_cons, ih hl]
      constructor
      · rintro (rfl | ⟨ha, hall⟩)
        · exact ⟨.inl rfl, fun _ => hp, fun b hb hba => absurd (hc b hb) (not_lt_of_ge hba)⟩
        · exact ⟨.inr ha, fun _ => hp, hall⟩
      · rintro ⟨rfl | ha, -, hall⟩
        · exact .inl rfl
        · exact .inr ⟨ha, hall⟩
    · rw [List.takeWhile_cons_of_neg hp, List.forall_mem_cons, List.mem_cons]
      constructor
      · intro ha
        cases ha
      -- nothing lies before the first member, and it fails
      · rintro ⟨rfl | ha, hca, -⟩
        · exact absurd (hca (le_refl _)) hp
        · exact absurd (hca (hc a ha).le) hp

theorem mem_dropWhile_iff {α : Type} {l : List α} (h : l.Nodup) {P : α → Bool} {a : α} :
    a ∈ l.dropWhile P ↔ a ∈ l ∧ a ∉ l.takeWhile P := by
  have hl : l.takeWhile P ++ l.dropWhile P = l := List.takeWhile_append_dropWhile
  have ha : a ∈ l ↔ a ∈ l.takeWhile P ∨ a ∈ l.dropWhile P := by rw [← List.mem_append, hl]
  rw [← hl] at h
  have hdisjoint := List.disjoint_of_nodup_append h
  constructor
  · intro h
    exact ⟨ha.2 (.inr h), fun h' => hdisjoint h' h⟩
  · rintro ⟨h, hno⟩
    exact (ha.1 h).resolve_left hno

theorem tokensAt_frontRun (s : Places tokens) (P : Token → Bool) :
    tokensAt (frontRun s P) = (tokensAt s).takeWhile P ∧
      tokensAt (s \ frontRun s P) = (tokensAt s).dropWhile P := by
  have hs := pairwise_inOrder s
  -- both lists increase, so it is enough to know their members
  have ht : ∀ p, p ∈ (inOrder s).takeWhile (fun p => P (tokens.get p)) ↔ p ∈ frontRun s P := by
    intro p
    rw [mem_takeWhile_iff hs, frontRun, Finset.mem_filter]
    simp only [mem_inOrder]
  have hd : ∀ p, p ∈ (inOrder s).dropWhile (fun p => P (tokens.get p)) ↔ p ∈ s \ frontRun s P := by
    intro p
    rw [mem_dropWhile_iff (hs.imp ne_of_lt), ht, Finset.mem_sdiff, mem_inOrder]
  constructor
  · rw [tokensAt, tokensAt, List.takeWhile_map,
      ← eq_inOrder (hs.sublist (List.takeWhile_sublist _)) ht]
    rfl
  · rw [tokensAt, tokensAt, List.dropWhile_map,
      ← eq_inOrder (hs.sublist (List.dropWhile_sublist _)) hd]
    rfl

end ChatOps
