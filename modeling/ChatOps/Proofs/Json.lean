/-
The compact form of JSON can be read in one way. A string ends at the first quote that is not
escaped, brackets end where they are closed, and a number ends at the sign that ends an item. So a
value in front of such a sign, or of nothing, is told from every other value there.
-/
import ChatOps.Json
import Mathlib.Tactic.SplitIfs

namespace ChatOps

namespace Json

/-- Every JSON value is built from its items and fields. -/
@[induction_eliminator]
theorem induct {motive : Json → Prop} (null : motive .null) (bool : ∀ b, motive (.bool b))
    (number : ∀ mantissa scale, motive (.number mantissa scale))
    (string : ∀ s, motive (.string s))
    (array : ∀ items, (∀ j ∈ items, motive j) → motive (.array items))
    (object : ∀ fields, (∀ f ∈ fields, motive f.2) → motive (.object fields)) : ∀ j, motive j
  | .null => null
  | .bool b => bool b
  | .number mantissa scale => number mantissa scale
  | .string s => string s
  | .array items => array items fun j _ => induct null bool number string array object j
  | .object fields => object fields fun f hf =>
    have : sizeOf f.2 < sizeOf fields := by
      have := List.sizeOf_lt_of_mem hf
      cases f
      simp at this ⊢
      omega
    induct null bool number string array object f.2

theorem append_ne_cons {cs ds x y : List Char} {c d : Char} (hcs : cs = c :: ds) (hne : c ≠ d) :
    cs ++ x ≠ d :: y := by
  intro h
  rw [hcs, List.cons_append, List.cons.injEq] at h
  exact hne h.1

/-! ## Strings -/

/-- The number that a hexadecimal digit in lowercase stands for. -/
def hexValue (c : Char) : Nat := if c.isDigit then c.toNat - '0'.toNat else c.toNat - 'a'.toNat + 10

/-- The character whose escape stands here, and what follows it. -/
def unescape? : List Char → Option (Char × List Char)
  | '\\' :: 'n' :: r => some ('\n', r)
  | '\\' :: 'r' :: r => some ('\r', r)
  | '\\' :: 't' :: r => some ('\t', r)
  | '\\' :: 'b' :: r => some ('\x08', r)
  | '\\' :: 'f' :: r => some ('\x0c', r)
  | '\\' :: 'u' :: '0' :: '0' :: a :: b :: r =>
    some (Char.ofNat (hexValue a * 16 + hexValue b), r)
  | '\\' :: c :: r => some (c, r)
  | c :: r => some (c, r)
  | [] => none

/-- An escape is read as its character, whatever follows. -/
theorem unescape?_escape (c : Char) (r : List Char) : unescape? (escape c ++ r) = some (c, r) := by
  unfold escape
  split_ifs with h1 h2 h3 h4 h5 h6 h7 hcontrol
  · rw [h1]; rfl
  · rw [h2]; rfl
  · rw [h3]; rfl
  · rw [h4]; rfl
  · rw [h5]; rfl
  · rw [h6]; rfl
  · rw [h7]; rfl
  · have hhex : ∀ n < 0x20, Char.ofNat (hexValue (Nat.digitChar (n / 16)) * 16 +
        hexValue (Nat.digitChar (n % 16))) = Char.ofNat n := by
      decide
    have hc := hhex c.toNat hcontrol
    rw [Char.ofNat_toNat] at hc
    exact congrArg (fun d => some (d, r)) hc
  -- any other character stands for itself, as it is no backslash
  · simp [unescape?, h2]

/-- An escape begins with no quote. -/
theorem exists_escape_eq_cons (c : Char) : ∃ d ds, escape c = d :: ds ∧ d ≠ '"' := by
  unfold escape
  split_ifs with h1
  all_goals refine ⟨_, _, rfl, ?_⟩
  all_goals first
    | exact h1
    | decide

/-- Escapes up to a quote spell one text. -/
theorem flatMap_escape_inj {cs cs' r r' : List Char}
    (h : cs.flatMap escape ++ '"' :: r = cs'.flatMap escape ++ '"' :: r') : cs = cs' ∧ r = r' := by
  have hquote : ∀ (c : Char) (x y : List Char), escape c ++ x ≠ '"' :: y := by
    intro c x y
    obtain ⟨d, ds, hescape, hd⟩ := exists_escape_eq_cons c
    exact append_ne_cons hescape hd
  induction cs generalizing cs' with
  | nil =>
    cases cs' with
    | nil => exact ⟨rfl, (List.cons.inj h).2⟩
    | cons c cs' =>
      rw [List.flatMap_cons, List.append_assoc] at h
      exact absurd h.symm (hquote _ _ _)
  | cons c cs ih =>
    cases cs' with
    | nil =>
      rw [List.flatMap_cons, List.append_assoc] at h
      exact absurd h (hquote _ _ _)
    | cons c' cs' =>
      rw [List.flatMap_cons, List.append_assoc, List.flatMap_cons, List.append_assoc] at h
      have hread := congrArg unescape? h
      rw [unescape?_escape, unescape?_escape, Option.some.injEq, Prod.mk.injEq] at hread
      obtain ⟨rfl, hread⟩ := hread
      obtain ⟨rfl, rfl⟩ := ih hread
      exact ⟨rfl, rfl⟩

/-- A string ends at its closing quote. -/
theorem quote_inj {s s' : String} {r r' : List Char} (h : quote s ++ r = quote s' ++ r') :
    s = s' ∧ r = r' := by
  simp only [quote, List.cons_append, List.append_assoc, List.nil_append, List.cons.injEq,
    true_and] at h
  obtain ⟨hs, hr⟩ := flatMap_escape_inj h
  exact ⟨String.toList_inj.1 hs, hr⟩

/-! ## Numbers -/

/-- A text of signs of one class, up to a sign of another, is the longest of this class. -/
theorem append_inj_of_head {p : Char → Prop} {cs cs' r r' : List Char}
    (hcs : ∀ c ∈ cs, p c) (hcs' : ∀ c ∈ cs', p c) (hr : ∀ c ∈ r.head?, ¬ p c)
    (hr' : ∀ c ∈ r'.head?, ¬ p c) (h : cs ++ r = cs' ++ r') : cs = cs' ∧ r = r' := by
  induction cs generalizing cs' with
  | nil =>
    cases cs' with
    | nil => exact ⟨rfl, h⟩
    | cons c' cs' =>
      rw [List.nil_append] at h
      rw [h] at hr
      exact absurd (hcs' c' List.mem_cons_self) (hr c' rfl)
  | cons c cs ih =>
    cases cs' with
    | nil =>
      rw [List.nil_append] at h
      rw [← h] at hr'
      exact absurd (hcs c List.mem_cons_self) (hr' c rfl)
    | cons c' cs' =>
      obtain ⟨rfl, htail⟩ := List.cons.inj h
      obtain ⟨rfl, rfl⟩ := ih (List.forall_mem_cons.1 hcs).2 (List.forall_mem_cons.1 hcs').2 htail
      exact ⟨rfl, rfl⟩

/-- A sign of a whole number. -/
def IsWholeSign (c : Char) : Prop := c.isDigit = true ∨ c = '-'

instance : DecidablePred IsWholeSign := fun c =>
  inferInstanceAs (Decidable (c.isDigit = true ∨ c = '-'))

theorem isWholeSign_of_mem_repr {n : Nat} {c : Char} (h : c ∈ n.repr.toList) : IsWholeSign c := by
  rw [Nat.toList_repr] at h
  exact .inl (Nat.isDigit_of_mem_toDigits (by decide) (by decide) h)

theorem isWholeSign_of_mem_toString {m : Int} {c : Char} (h : c ∈ (toString m).toList) :
    IsWholeSign c := by
  rw [Int.toString_eq_repr, Int.repr_eq_if] at h
  split at h
  · exact isWholeSign_of_mem_repr h
  · rw [String.toList_append, List.mem_append] at h
    rcases h with h | h
    · exact .inr (List.mem_singleton.1 h)
    · exact isWholeSign_of_mem_repr h

/-- A sign of a number. -/
def IsNumberSign (c : Char) : Prop := IsWholeSign c ∨ c = 'e'

instance : DecidablePred IsNumberSign := fun c =>
  inferInstanceAs (Decidable (IsWholeSign c ∨ c = 'e'))

theorem isNumberSign_of_mem_numeral {m : Int} {k : Nat} {c : Char} (h : c ∈ numeral m k) :
    IsNumberSign c := by
  rw [numeral, List.mem_append] at h
  rcases h with h | h
  · exact .inl (isWholeSign_of_mem_toString h)
  · split at h
    · cases h
    · rw [List.mem_append, List.mem_cons, List.mem_singleton] at h
      rcases h with (rfl | rfl) | h
      · exact .inr rfl
      · exact .inl (.inr rfl)
      · exact .inl (isWholeSign_of_mem_repr h)

theorem toString_toList_ne_nil (m : Int) : (toString m).toList ≠ [] := by
  rw [ne_eq, String.toList_eq_nil_iff, Int.toString_eq_repr, Int.repr_eq_if]
  split
  · exact Nat.repr_ne_empty
  · intro h
    exact absurd (String.append_eq_empty_iff.1 h).1 (by decide)

theorem repr_inj {n n' : Nat} (h : n.repr.toList = n'.repr.toList) : n = n' := by
  rw [Nat.toList_repr, Nat.toList_repr] at h
  rw [← Nat.ofDigitChars_ten_toDigits (n := n), h, Nat.ofDigitChars_ten_toDigits]

theorem toString_inj {m m' : Int} (h : (toString m).toList = (toString m').toList) : m = m' := by
  have hsign : ∀ n k : Nat, n.repr.toList ≠ ("-" ++ k.repr).toList := by
    intro n k h
    have hminus : '-' ∈ n.repr.toList := by
      rw [h, String.toList_append]
      exact List.mem_cons_self
    rw [Nat.toList_repr] at hminus
    exact absurd (Nat.isDigit_of_mem_toDigits (by decide) (by decide) hminus) (by decide)
  simp only [Int.toString_eq_repr, Int.repr_eq_if] at h
  split at h <;> split at h
  · have hnat := repr_inj h
    omega
  · exact absurd h (hsign _ _)
  · exact absurd h.symm (hsign _ _)
  · rw [String.toList_append, String.toList_append] at h
    have hnat := repr_inj (List.append_cancel_left h)
    omega

/-- A number tells its mantissa, which ends where the scale begins, and its scale. -/
theorem numeral_inj {m m' : Int} {k k' : Nat} (h : numeral m k = numeral m' k') :
    m = m' ∧ k = k' := by
  have hscale : ∀ n : Nat, ∀ c ∈
      (if n = 0 then [] else ['e', '-'] ++ (toString n).toList).head?, ¬ IsWholeSign c := by
    intro n c hc
    split at hc
    · cases hc
    · cases hc
      decide
  obtain ⟨hm, hk⟩ := append_inj_of_head (fun _ => isWholeSign_of_mem_toString)
    (fun _ => isWholeSign_of_mem_toString) (hscale k) (hscale k') h
  refine ⟨toString_inj hm, ?_⟩
  split at hk <;> split at hk
  · rename_i h0 h0'
    rw [h0, h0']
  · cases hk
  · cases hk
  · exact repr_inj (List.append_cancel_left hk)

/-! ## Values -/

/-- A sign that ends a value inside brackets. -/
def IsStop (c : Char) : Prop := c = ',' ∨ c = ']' ∨ c = '\x7d'

instance : DecidablePred IsStop := fun c =>
  inferInstanceAs (Decidable (c = ',' ∨ c = ']' ∨ c = '\x7d'))

/-- Nothing, or a text that begins with a sign that ends a value. -/
def Stops (r : List Char) : Prop := ∀ c ∈ r.head?, IsStop c

/-- What is written for this is written for nothing else, and ends where it stops. -/
def ReadsAlone {α : Type} (write : α → List Char) (a : α) : Prop :=
  ∀ {b : α} {r r' : List Char}, Stops r → Stops r' → write a ++ r = write b ++ r' → a = b ∧ r = r'

/-- The kinds of values. -/
inductive Kind
  | null
  | bool
  | number
  | string
  | array
  | object

def kind : Json → Kind
  | .null => .null
  | .bool _ => .bool
  | .number _ _ => .number
  | .string _ => .string
  | .array _ => .array
  | .object _ => .object

/-- The kind of value that is written with this sign first. -/
def kindOfLead (c : Char) : Kind :=
  if c = 'n' then .null
  else if c = 't' ∨ c = 'f' then .bool
  else if c = '"' then .string
  else if c = '[' then .array
  else if c = '\x7b' then .object
  else .number

theorem IsNumberSign.not_isStop {c : Char} (h : IsNumberSign c) : ¬ IsStop c := by
  rintro (rfl | rfl | rfl)
  all_goals exact absurd h (by decide)

theorem IsWholeSign.kindOfLead_eq {c : Char} (h : IsWholeSign c) : kindOfLead c = .number := by
  have hne : ∀ d, ¬ IsWholeSign d → c ≠ d := by
    rintro _ hd rfl
    exact hd h
  rw [kindOfLead, if_neg (hne 'n' (by decide)),
    if_neg (not_or.2 ⟨hne 't' (by decide), hne 'f' (by decide)⟩), if_neg (hne '"' (by decide)),
    if_neg (hne '[' (by decide)), if_neg (hne '\x7b' (by decide))]

/-- The first sign of a value tells its kind, and ends no value. -/
theorem exists_compact_eq_cons (j : Json) :
    ∃ c cs, compact j = c :: cs ∧ kindOfLead c = j.kind ∧ ¬ IsStop c := by
  cases j with
  | null => exact ⟨_, _, rfl, rfl, by decide⟩
  | bool b =>
    cases b
    · exact ⟨_, _, rfl, rfl, by decide⟩
    · exact ⟨_, _, rfl, rfl, by decide⟩
  | number m k =>
    obtain ⟨c, cs, hcs⟩ := List.exists_cons_of_ne_nil (toString_toList_ne_nil m)
    have hc : IsWholeSign c := isWholeSign_of_mem_toString (hcs ▸ List.mem_cons_self)
    have hcompact : ∃ ds, compact (.number m k) = c :: ds :=
      ⟨_, by rw [compact, numeral, hcs, List.cons_append]⟩
    obtain ⟨ds, hds⟩ := hcompact
    exact ⟨c, ds, hds, hc.kindOfLead_eq, IsNumberSign.not_isStop (.inl hc)⟩
  | string s => exact ⟨_, _, rfl, rfl, by decide⟩
  | array items => exact ⟨_, _, rfl, rfl, by decide⟩
  | object fields => exact ⟨_, _, rfl, rfl, by decide⟩

/-! ## Items and fields -/

section Sequences

variable {α : Type} (write : α → List Char) (stop : Char)

/-- Values with commas between them, and a closing bracket. -/
def closed (as : List α) (r : List Char) : List Char := [','].intercalate (as.map write) ++ stop :: r

/-- What follows the first of these values. -/
def closedAfter : List α → List Char → List Char
  | [], r => stop :: r
  | a :: as, r => ',' :: closed write stop (a :: as) r

theorem closed_cons (a : α) (as : List α) (r : List Char) :
    closed write stop (a :: as) r = write a ++ closedAfter write stop as r := by
  cases as with
  | nil => simp [closed, closedAfter]
  | cons b as =>
    simp only [closed, closedAfter, List.map_cons, List.intercalate_cons_cons, List.append_assoc,
      List.cons_append, List.nil_append]

variable {write stop} {r r' : List Char}

theorem stops_closedAfter (hstop : IsStop stop) (as : List α) :
    Stops (closedAfter write stop as r) := by
  cases as with
  | nil =>
    intro c hc
    cases hc
    exact hstop
  | cons a as =>
    intro c hc
    cases hc
    exact .inl rfl

/-- Values between brackets are written for these values alone. -/
theorem closed_inj (hlead : ∀ a, ∃ c cs, write a = c :: cs ∧ ¬ IsStop c) (hstop : IsStop stop)
    (hcomma : stop ≠ ',') {as bs : List α} (has : ∀ a ∈ as, ReadsAlone write a)
    (h : closed write stop as r = closed write stop bs r') : as = bs ∧ r = r' := by
  -- a value begins with no stop, so a closing bracket does not stand for one
  have hopen : ∀ (a : α) (x y : List Char), write a ++ x ≠ stop :: y := by
    intro a x y
    obtain ⟨c, cs, hwrite, hc⟩ := hlead a
    refine append_ne_cons hwrite ?_
    rintro rfl
    exact hc hstop
  induction as generalizing bs with
  | nil =>
    cases bs with
    | nil => exact ⟨rfl, (List.cons.inj h).2⟩
    | cons b bs =>
      rw [closed_cons] at h
      exact absurd h.symm (hopen _ _ _)
  | cons a as ih =>
    cases bs with
    | nil =>
      rw [closed_cons] at h
      exact absurd h (hopen _ _ _)
    | cons b bs =>
      rw [closed_cons, closed_cons] at h
      obtain ⟨ha, has⟩ := List.forall_mem_cons.1 has
      obtain ⟨rfl, hafter⟩ := ha (stops_closedAfter hstop as) (stops_closedAfter hstop bs) h
      cases as with
      | nil =>
        cases bs with
        | nil => exact ⟨rfl, (List.cons.inj hafter).2⟩
        | cons b bs => exact absurd (List.cons.inj hafter).1 hcomma
      | cons a' as =>
        cases bs with
        | nil => exact absurd (List.cons.inj hafter).1.symm hcomma
        | cons b bs =>
          obtain ⟨hbs, hr⟩ := ih has (List.cons.inj hafter).2
          exact ⟨by rw [hbs], hr⟩

end Sequences

/-- A field with its name. -/
def compactField (f : String × Json) : List Char := quote f.1 ++ ':' :: compact f.2

theorem compactItems_eq (js : List Json) : compactItems js = [','].intercalate (js.map compact) := by
  induction js with
  | nil => rfl
  | cons j js ih =>
    cases js with
    | nil => simp [compactItems]
    | cons k js =>
      rw [compactItems, ih, List.map_cons, List.map_cons, List.map_cons, List.intercalate_cons_cons]
      · simp
      · simp

theorem compactFields_eq (fs : List (String × Json)) :
    compactFields fs = [','].intercalate (fs.map compactField) := by
  induction fs with
  | nil => rfl
  | cons f fs ih =>
    cases fs with
    | nil => simp [compactFields, compactField]
    | cons g fs =>
      rw [compactFields, ih, List.map_cons, List.map_cons, List.map_cons, List.intercalate_cons_cons]
      · simp [compactField]
      · simp

theorem compact_array_append (items : List Json) (r : List Char) :
    compact (.array items) ++ r = '[' :: closed compact ']' items r := by
  simp [compact, closed, compactItems_eq]

theorem compact_object_append (fields : List (String × Json)) (r : List Char) :
    compact (.object fields) ++ r = '\x7b' :: closed compactField '\x7d' fields r := by
  simp [compact, closed, compactFields_eq]

theorem readsAlone_compactField {f : String × Json} (h : ReadsAlone compact f.2) :
    ReadsAlone compactField f := by
  intro g r r' hr hr' heq
  rw [compactField, compactField, List.append_assoc, List.append_assoc] at heq
  obtain ⟨hname, hvalue⟩ := quote_inj heq
  obtain ⟨hvalue, hrest⟩ := h hr hr' (List.cons.inj hvalue).2
  exact ⟨Prod.ext hname hvalue, hrest⟩

/-- The first sign of a compact form tells the kind of its value. -/
theorem kind_eq_of_compact_append {j j' : Json} {r r' : List Char}
    (h : compact j ++ r = compact j' ++ r') : j.kind = j'.kind := by
  obtain ⟨c, cs, hj, hc, -⟩ := exists_compact_eq_cons j
  obtain ⟨c', cs', hj', hc', -⟩ := exists_compact_eq_cons j'
  rw [hj, hj'] at h
  rw [← hc, ← hc', (List.cons.inj h).1]

/-- The compact form of a value is told from every other, up to where it stops. -/
theorem readsAlone_compact (j : Json) : ReadsAlone compact j := by
  induction j with
  | null =>
    intro j' r r' _ _ h
    cases j' with
    | null => exact ⟨rfl, List.append_cancel_left h⟩
    | _ => cases kind_eq_of_compact_append h
  | bool b =>
    intro j' r r' _ _ h
    cases j' with
    | bool b' =>
      cases b <;> cases b'
      · exact ⟨rfl, List.append_cancel_left h⟩
      · exact absurd (List.cons.inj h).1 (by decide)
      · exact absurd (List.cons.inj h).1 (by decide)
      · exact ⟨rfl, List.append_cancel_left h⟩
    | _ => cases kind_eq_of_compact_append h
  | number m k =>
    intro j' r r' hr hr' h
    cases j' with
    | number m' k' =>
      obtain ⟨hnumeral, hrest⟩ := append_inj_of_head (fun _ => isNumberSign_of_mem_numeral)
        (fun _ => isNumberSign_of_mem_numeral) (fun c hc hsign => hsign.not_isStop (hr c hc))
        (fun c hc hsign => hsign.not_isStop (hr' c hc)) h
      obtain ⟨rfl, rfl⟩ := numeral_inj hnumeral
      exact ⟨rfl, hrest⟩
    | _ => cases kind_eq_of_compact_append h
  | string s =>
    intro j' r r' _ _ h
    cases j' with
    | string s' =>
      obtain ⟨rfl, hrest⟩ := quote_inj h
      exact ⟨rfl, hrest⟩
    | _ => cases kind_eq_of_compact_append h
  | array items ih =>
    intro j' r r' _ _ h
    cases j' with
    | array items' =>
      rw [compact_array_append, compact_array_append] at h
      have hlead : ∀ j, ∃ c cs, compact j = c :: cs ∧ ¬ IsStop c := by
        intro j
        obtain ⟨c, cs, hj, -, hc⟩ := exists_compact_eq_cons j
        exact ⟨c, cs, hj, hc⟩
      obtain ⟨rfl, hrest⟩ := closed_inj hlead (by decide) (by decide) ih (List.cons.inj h).2
      exact ⟨rfl, hrest⟩
    | _ => cases kind_eq_of_compact_append h
  | object fields ih =>
    intro j' r r' _ _ h
    cases j' with
    | object fields' =>
      rw [compact_object_append, compact_object_append] at h
      obtain ⟨rfl, hrest⟩ := closed_inj (fun f => ⟨'"', _, rfl, by decide⟩) (by decide) (by decide)
        (fun f hf => readsAlone_compactField (ih f hf)) (List.cons.inj h).2
      exact ⟨rfl, hrest⟩
    | _ => cases kind_eq_of_compact_append h

/-- The compact text of a value is the text of no other. -/
theorem render_inj {j j' : Json} : j.render = j'.render ↔ j = j' := by
  constructor
  · intro h
    have hstops : Stops [] := by
      intro c hc
      cases hc
    have hcompact : compact j ++ [] = compact j' ++ [] := by
      rw [String.ofList_inj.1 h]
    exact (readsAlone_compact j hstops hstops hcompact).1
  · rintro rfl
    rfl

end Json

end ChatOps
