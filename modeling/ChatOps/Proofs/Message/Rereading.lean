/-
Reading back what is written out. An argument is read back from the words its value is written as
unless these words do not give the value, or the argument takes words of later arguments too. Both
can be seen from the argument, its value and the words after it, and they are all that can go wrong.
-/
import ChatOps.Proofs.Message.Canonical
import ChatOps.Proofs.Message.Ownership

namespace ChatOps

open Text

/-- The words of a message that the value of an argument is written as. -/
def Request.writtenWords (p : Argument × Value) : List String :=
  (canonicalWords p).flatMap fun s => (tokenize s).map Token.text

namespace Argument

open Request

/-! ## One argument -/

/-- Behind words of its own an argument would take some of these words too. -/
def TakesMore (reserved : String → Bool) (a : Argument) (own after : List String) : Prop :=
  match a.kind with
  | .positional => False
  | .query => False
  -- a default that is written as nothing leaves room for another value
  | .validated validator _ => own = [] ∧ ∃ word ∈ after.head?, (validator.validate? word).isSome
  | .keywords g => ∃ word ∈ after, word ∈ g.literals
  | .list form => ∃ word ∈ after.head?, (form.accept? word).isSome ∧ reserved word = false

/-- In front of these words an argument is not read back from the words that its value is written
as: they do not give the value, or it takes more than them. -/
def Misread (reserved : String → Bool) (a : Argument) (v : Value) (after : List String) : Prop :=
  a.valueOf? (writtenWords (a, v)) ≠ some v ∨ a.TakesMore reserved (writtenWords (a, v)) after

instance (reserved : String → Bool) :
    ∀ a own after, Decidable (TakesMore reserved a own after)
  | ⟨_, .positional⟩, _, _ | ⟨_, .query⟩, _, _ => isFalse id
  | ⟨_, .validated validator _⟩, own, after =>
    inferInstanceAs (Decidable (own = [] ∧ ∃ word ∈ after.head?, (validator.validate? word).isSome))
  | ⟨_, .keywords g⟩, _, after => inferInstanceAs (Decidable (∃ word ∈ after, word ∈ g.literals))
  | ⟨_, .list form⟩, _, after =>
    inferInstanceAs
      (Decidable (∃ word ∈ after.head?, (form.accept? word).isSome ∧ reserved word = false))

instance (reserved : String → Bool) (a : Argument) (v : Value) (after : List String) :
    Decidable (a.Misread reserved v after) :=
  inferInstanceAs (Decidable (_ ∨ _))

variable {reserved : String → Bool} {a : Argument} {name : String}
  {own rest tokens left : List Token} {v : Value}

theorem takesMore_validated_iff {validator : Validator} {default : Option Value} :
    TakesMore reserved ⟨name, .validated validator default⟩ (own.map Token.text)
        (rest.map Token.text) ↔
      own = [] ∧ ¬ ∀ t ∈ rest.head?, validator.validate? t.text = none := by
  show (own.map Token.text = [] ∧ ∃ word ∈ (rest.map Token.text).head?, _) ↔ _
  rw [List.map_eq_nil_iff]
  cases rest with
  | nil => simp
  | cons t rest => simp [Option.isSome_iff_ne_none]

theorem takesMore_keywords_iff {g : KeywordGroup} :
    TakesMore reserved ⟨name, .keywords g⟩ (own.map Token.text) (rest.map Token.text) ↔
      ¬ ∀ t ∈ rest, t.text ∉ g.literals := by
  simp [TakesMore]

theorem takesMore_list_iff {form : ItemForm} :
    TakesMore reserved ⟨name, .list form⟩ (own.map Token.text) (rest.map Token.text) ↔
      ¬ ∀ t ∈ rest.head?, item? form reserved t = none := by
  cases rest with
  | nil => simp [TakesMore]
  | cons t rest => simp [TakesMore, item?, Option.isSome_iff_ne_none, and_comm]

theorem takes_append_validated_iff {validator : Validator} {default : Option Value} :
    Takes reserved ⟨name, .validated validator default⟩ (own ++ rest) v rest ↔
      valueOf? ⟨name, .validated validator default⟩ (own.map Token.text) = some v ∧
        ¬ TakesMore reserved ⟨name, .validated validator default⟩ (own.map Token.text)
          (rest.map Token.text) := by
  rw [takesMore_validated_iff]
  constructor
  · intro h
    generalize htokens : own ++ rest = tokens at h
    cases h with
    | @accepted _ _ _ t _ _ hv =>
      have hown : own = [t] := List.append_cancel_right htokens
      subst hown
      refine ⟨hv, ?_⟩
      rintro ⟨⟨⟩, -⟩
    | defaulted hv =>
      obtain rfl := List.append_left_eq_self.1 htokens
      exact ⟨rfl, fun h => h.2 hv⟩
  · rintro ⟨hv, hmore⟩
    cases own with
    | nil =>
      obtain rfl : default = some v := hv
      exact .defaulted (not_not.1 fun h => hmore ⟨rfl, h⟩)
    | cons t own =>
      cases own with
      | nil => exact .accepted hv
      | cons _ _ => cases hv

theorem takes_append_keywords_iff {g : KeywordGroup} :
    Takes reserved ⟨name, .keywords g⟩ (own ++ rest) v rest ↔
      valueOf? ⟨name, .keywords g⟩ (own.map Token.text) = some v ∧
        ¬ TakesMore reserved ⟨name, .keywords g⟩ (own.map Token.text) (rest.map Token.text) := by
  rw [takesMore_keywords_iff, not_not]
  constructor
  · intro h
    generalize htokens : own ++ rest = tokens at h
    cases h with
    | unchosen hno =>
      obtain rfl := List.append_left_eq_self.1 htokens
      exact ⟨rfl, hno⟩
    | @chosen _ _ before after t canonical hc hno =>
      have hlen := congrArg List.length htokens
      rw [List.length_append, List.length_append, List.length_append, List.length_cons] at hlen
      obtain ⟨u, rfl⟩ := List.length_eq_one_iff.1 (show own.length = 1 by omega)
      refine ⟨?_, hno⟩
      -- the keyword is the first token, since it is not among the others
      cases before with
      | nil =>
        obtain rfl := (List.cons.inj htokens).1
        rw [List.map_singleton, valueOf?, hc]
        rfl
      | cons b before =>
        have htail : b :: before ++ after = before ++ t :: after := (List.cons.inj htokens).2
        have hmem : t ∈ b :: before ++ after := by
          rw [htail]
          exact List.mem_append_right _ List.mem_cons_self
        exact absurd (g.mem_literals_of_canonical? hc) (hno t hmem)
  · rintro ⟨hv, hno⟩
    cases own with
    | nil =>
      cases hv
      exact .unchosen hno
    | cons t own =>
      cases own with
      | nil =>
        obtain ⟨canonical, hc, rfl⟩ := Option.map_eq_some_iff.1 hv
        exact @Takes.chosen _ _ _ [] _ _ _ hc hno
      | cons _ _ => cases hv

theorem takes_append_list_iff {form : ItemForm} {items : List String} :
    Takes reserved ⟨name, .list form⟩ (own ++ rest) (.list items) rest ↔
      own.map (item? form reserved) = items.map some ∧
        ¬ TakesMore reserved ⟨name, .list form⟩ (own.map Token.text) (rest.map Token.text) := by
  rw [takesMore_list_iff, not_not]
  constructor
  · intro h
    generalize htokens : own ++ rest = tokens at h
    cases h with
    | items hrun hrest =>
      obtain rfl := List.append_cancel_right htokens
      exact ⟨hrun, hrest⟩
  · rintro ⟨hrun, hrest⟩
    exact .items hrun hrest

theorem writtenWords_of_isWord (h : ∀ word ∈ canonicalWords (a, v), IsWord word.toList) :
    writtenWords (a, v) = canonicalWords (a, v) :=
  flatMap_tokenize_of_isWord h

theorem writtenWords_of_word {word : String} (hword : IsWord word.toList)
    (h : canonicalWords (a, v) = [word]) : writtenWords (a, v) = [word] := by
  rw [writtenWords_of_isWord, h]
  rw [h]
  exact List.forall_mem_singleton.2 hword

/-- An argument that has taken a value takes it again from the words it is written as, and leaves
what stands behind them, exactly if it is not misread there. -/
theorem Takes.reread_iff (h : a.Takes reserved tokens v left)
    (hwords : ∀ t ∈ tokens, IsWord t.text.toList)
    (hown : own.map Token.text = writtenWords (a, v)) :
    a.Takes reserved (own ++ rest) v rest ↔ ¬ a.Misread reserved v (rest.map Token.text) := by
  rw [Misread, not_or, not_not, ← hown]
  cases h with
  | @positional name t =>
    have hword : IsWord t.text.toList := hwords t List.mem_cons_self
    rw [writtenWords_of_word hword rfl] at hown
    obtain ⟨u, rfl, hu⟩ := List.map_eq_singleton_iff.1 hown
    refine iff_of_true ?_ ⟨by rw [hown, valueOf?], id⟩
    rw [← hu]
    exact .positional
  | @query _ t _ q hq =>
    obtain ⟨hdisplay, hwell⟩ := Query.parse_eq_ok_iff.1 hq
    have hword : IsWord q.display.toList := hdisplay ▸ hwords t List.mem_cons_self
    rw [writtenWords_of_word hword rfl] at hown
    obtain ⟨u, rfl, hu⟩ := List.map_eq_singleton_iff.1 hown
    refine iff_of_true (.query ?_) ⟨?_, id⟩
    · rw [hu]
      exact hwell.parse_display
    · rw [hown, valueOf?, hwell.parse_display]
      rfl
  | accepted => exact takes_append_validated_iff
  | defaulted => exact takes_append_validated_iff
  | unchosen => exact takes_append_keywords_iff
  | chosen => exact takes_append_keywords_iff
  | @items name form run _ items hrun _ =>
    obtain ⟨htexts, hitems⟩ := map_item?_eq_iff.1 hrun
    have hwritten : writtenWords (⟨name, .list form⟩, .list items) = items.map form.render := by
      refine writtenWords_of_isWord fun word hword => ?_
      rw [canonicalWords_list, ← htexts] at hword
      obtain ⟨t, ht, rfl⟩ := List.mem_map.1 hword
      exact hwords t (List.mem_append_left _ ht)
    rw [hwritten] at hown
    rw [takes_append_list_iff]
    refine and_congr_left fun _ => iff_of_true (map_item?_eq_iff.2 ⟨hown, hitems⟩) ?_
    have haccept : items.filterMap (form.accept? ∘ form.render) = items.filterMap some :=
      List.filterMap_congr fun item hitem => (hitems item hitem).1
    rw [hown, valueOf?, List.filterMap_map, haccept, List.filterMap_some]

end Argument

/-! ## All arguments -/

namespace Command

open Request

/-- One of the arguments from place `index` on is misread in front of the words of those after it. -/
def MisreadFrom (c : Command) : Nat → List (Argument × Value) → Prop
  | _, [] => False
  | index, (a, v) :: after =>
    a.Misread (c.isReservedElsewhere · index) v (after.flatMap writtenWords) ∨
      c.MisreadFrom (index + 1) after

instance (c : Command) : ∀ index entries, Decidable (c.MisreadFrom index entries) :=
  let rec dec : (index : Nat) → (entries : List (Argument × Value)) →
      Decidable (c.MisreadFrom index entries)
    | _, [] => isFalse id
    | index, (a, v) :: after =>
      have := dec (index + 1) after
      inferInstanceAs (Decidable (a.Misread _ v (after.flatMap writtenWords) ∨ _))
  dec

/-- Arguments from place `index` on take all of some tokens, each of them exactly the words that its
value is written as. -/
inductive RereadsFrom (c : Command) : Nat → List (Argument × Value) → List Token → Prop
  | nil {index : Nat} : RereadsFrom c index [] []
  | cons {index : Nat} {a : Argument} {v : Value} {after : List (Argument × Value)}
      {own rest : List Token} : own.map Token.text = writtenWords (a, v) →
      a.Takes (c.isReservedElsewhere · index) (own ++ rest) v rest →
      RereadsFrom c (index + 1) after rest → RereadsFrom c index ((a, v) :: after) (own ++ rest)

variable {c : Command} {index : Nat} {as : List Argument} {tokens left own : List Token}
  {vs : List Value}

theorem RereadsFrom.takesFrom {entries : List (Argument × Value)}
    (h : c.RereadsFrom index entries own) :
    c.TakesFrom index (entries.map Prod.fst) own (entries.map Prod.snd) [] := by
  induction h with
  | nil => exact .nil
  | cons _ ha _ ih => exact .cons ha ih

/-- Arguments take the words again that their values are written as, each its own, exactly if none
of them is misread. -/
theorem TakesFrom.rereadsFrom_iff (h : c.TakesFrom index as tokens vs left)
    (hwords : ∀ t ∈ tokens, IsWord t.text.toList)
    (hown : own.map Token.text = (as.zip vs).flatMap writtenWords) :
    c.RereadsFrom index (as.zip vs) own ↔ ¬ c.MisreadFrom index (as.zip vs) := by
  induction h generalizing own with
  | nil =>
    obtain rfl := List.map_eq_nil_iff.1 hown
    exact iff_of_true .nil id
  | @cons index a as tokens passed left v vs ha _ ih =>
    rw [List.zip_cons_cons, List.flatMap_cons] at hown
    obtain ⟨own, rest, rfl, hown, hrest⟩ := List.map_eq_append_iff.1 hown
    have hpassed : ∀ t ∈ passed, IsWord t.text.toList :=
      fun t ht => hwords t (ha.left_subset t ht).1
    rw [List.zip_cons_cons, MisreadFrom, not_or, ← ih hpassed hrest, ← hrest,
      ← ha.reread_iff hwords hown]
    constructor
    · intro h
      generalize htokens : own ++ rest = tokens' at h
      cases h with
      | @cons _ _ _ _ own' rest' hown' ha' hafter =>
        -- the words of the first argument are told by their number
        have hlen : own.length = own'.length := by
          rw [← List.length_map Token.text, hown, ← hown', List.length_map]
        obtain ⟨rfl, rfl⟩ := List.append_inj htokens hlen
        exact ⟨ha', hafter⟩
    · rintro ⟨ha', hafter⟩
      exact .cons hown ha' hafter

theorem flatMap_writtenWords (h : ∀ word ∈ wordsOf as vs, IsWord word.toList) :
    (as.zip vs).flatMap writtenWords = wordsOf as vs := by
  show (as.zip vs).flatMap (fun p => (canonicalWords p).flatMap _) = wordsOf as vs
  rw [← List.flatMap_assoc]
  exact flatMap_tokenize_of_isWord h

theorem exists_tokens (texts : List String) : ∃ ts : List Token, ts.map Token.text = texts :=
  ⟨texts.map (⟨·, 0⟩), by simp [Function.comp_def]⟩

/-- Of arguments that can be written out none is misread. -/
theorem TakesFrom.not_misreadFrom (h : c.TakesFrom index as tokens vs left)
    (hindex : c.arguments.drop index = as) (has : Argument.AllWritable as)
    (hkeys : Argument.Unambiguous as) (hwords : ∀ t ∈ tokens, IsWord t.text.toList) :
    ¬ c.MisreadFrom index (as.zip vs) := by
  induction h with
  | nil => exact id
  | @cons index a as tokens passed left v vs ha hvs ih =>
    obtain ⟨hclash, hkeys⟩ := List.pairwise_cons.1 hkeys
    have hindex' := drop_succ_arguments hindex
    have hpassed : ∀ t ∈ passed, IsWord t.text.toList :=
      fun t ht => hwords t (ha.left_subset t ht).1
    have hall := (TakesFrom.cons ha hvs).isWord_wordsOf has hwords
    rw [wordsOf_cons, List.forall_mem_append] at hall
    obtain ⟨own, hown⟩ := exists_tokens (canonicalWords (a, v))
    obtain ⟨rest, hrest⟩ := exists_tokens (wordsOf as vs)
    have htakes := TakesFrom.reread_head ha hvs hindex' has hclash hown hrest
    rw [List.zip_cons_cons, MisreadFrom, not_or, flatMap_writtenWords hall.2, ← hrest]
    rw [← Argument.writtenWords_of_isWord hall.1] at hown
    exact ⟨(ha.reread_iff hwords hown).1 htakes, ih hindex' has.2 hkeys hpassed⟩

end Command

/-- From the canonical text of a request every argument takes exactly the words that its value is
written as. -/
def Request.IsReread (r : Request) : Prop :=
  r.command.RereadsFrom 0 r.entries
    ((tokenize r.canonicalText).drop (r.subcommand.toList.length + 1))

/-- In the canonical text of a request one of the arguments is misread. -/
def Request.IsMisread (r : Request) : Prop := r.command.MisreadFrom 0 r.entries

instance (r : Request) : Decidable r.IsMisread :=
  inferInstanceAs (Decidable (r.command.MisreadFrom 0 r.entries))

end ChatOps
