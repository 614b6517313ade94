/-
Canonical text, argument by argument. An argument that is written out with its value takes exactly
its own words again, whatever stands after them: the words of later arguments are no keywords of
it, and they do not prolong a list.
-/
import ChatOps.Proofs.Message.Binding
import ChatOps.Proofs.Query
import ChatOps.Proofs.Registry.Reachable
import ChatOps.Proofs.Text.Words
import Mathlib.Data.List.Basic

namespace ChatOps

open Text

/-! ## Commands that can be written out -/

/-- The validator reads numbers and passes this one. -/
def Validator.Admits : Validator → UInt64 → Prop
  | .positive, n => 0 < n
  | .nonNegative, _ => True
  | .any, _ => False

instance : ∀ validator n, Decidable (Validator.Admits validator n)
  | .positive, n => inferInstanceAs (Decidable (0 < n))
  | .nonNegative, _ => isTrue trivial
  | .any, _ => isFalse id

/-- The keywords are distinct words, none of them a number, and one stands for the value that holds
when none is given. -/
structure KeywordGroup.IsWritable (g : KeywordGroup) : Prop where
  nodup : g.literals.Nodup
  word : ∀ literal ∈ g.literals, IsWord literal.toList ∧ isDigits literal.toList = false
  fallback : g.fallback ∈ g.keywords.map Prod.snd

instance (g : KeywordGroup) : Decidable g.IsWritable :=
  decidable_of_iff (g.literals.Nodup ∧
      (∀ literal ∈ g.literals, IsWord literal.toList ∧ isDigits literal.toList = false) ∧
      g.fallback ∈ g.keywords.map Prod.snd)
    ⟨fun h => ⟨h.1, h.2.1, h.2.2⟩, fun h => ⟨h.nodup, h.word, h.fallback⟩⟩

namespace Argument

/-- Any one token, or nothing. -/
def IsOptional (a : Argument) : Prop := a.kind = .validated .any (some .unset)

/-- One keyword of a group. -/
def IsChoice (a : Argument) : Prop :=
  match a.kind with
  | .keywords _ => True
  | _ => False

/-- An argument can be written out in front of these others. A default is a number that passes, or
nothing with nothing after it; a list stands last or in front of keywords. -/
def IsWritable (a : Argument) (after : List Argument) : Prop :=
  match a.kind with
  | .positional => True
  | .query => True
  | .validated _ none => True
  | .validated validator (some (.integer n)) => validator.Admits n
  | .validated validator (some .unset) => validator = .any ∧ ∀ b ∈ after, b.IsOptional
  | .validated _ (some _) => False
  | .keywords g => g.IsWritable
  | .list _ => ∀ b ∈ after.head?, b.IsChoice

instance : DecidablePred IsOptional := fun a =>
  inferInstanceAs (Decidable (a.kind = .validated .any (some .unset)))

instance : DecidablePred IsChoice
  | ⟨_, .keywords _⟩ => isTrue trivial
  | ⟨_, .positional⟩ | ⟨_, .query⟩ | ⟨_, .validated _ _⟩ | ⟨_, .list _⟩ => isFalse id

instance : ∀ a after, Decidable (IsWritable a after)
  | ⟨_, .positional⟩, _ | ⟨_, .query⟩, _ | ⟨_, .validated _ none⟩, _ => isTrue trivial
  | ⟨_, .validated validator (some (.integer n))⟩, _ =>
    inferInstanceAs (Decidable (validator.Admits n))
  | ⟨_, .validated validator (some .unset)⟩, after =>
    inferInstanceAs (Decidable (validator = .any ∧ ∀ b ∈ after, b.IsOptional))
  | ⟨_, .validated _ (some (.text _))⟩, _ | ⟨_, .validated _ (some (.keyword _))⟩, _
  | ⟨_, .validated _ (some (.list _))⟩, _ | ⟨_, .validated _ (some (.query _))⟩, _ => isFalse id
  | ⟨_, .keywords g⟩, _ => inferInstanceAs (Decidable g.IsWritable)
  | ⟨_, .list _⟩, after => inferInstanceAs (Decidable (∀ b ∈ after.head?, b.IsChoice))

/-- Each of these arguments can be written out in front of those after it. -/
def AllWritable : List Argument → Prop
  | [] => True
  | a :: as => a.IsWritable as ∧ AllWritable as

instance : DecidablePred AllWritable :=
  let rec dec : (as : List Argument) → Decidable (AllWritable as)
    | [] => isTrue trivial
    | a :: as =>
      have := dec as
      inferInstanceAs (Decidable (a.IsWritable as ∧ AllWritable as))
  dec

end Argument

/-- A command whose requests can be written out. -/
structure Command.IsWritable (c : Command) : Prop where
  name : IsWord c.name.toList
  subcommands : ∀ word ∈ c.subcommands, IsWord word.toList
  names : (c.arguments.map Argument.name).Nodup
  arguments : Argument.AllWritable c.arguments

instance (c : Command) : Decidable c.IsWritable :=
  decidable_of_iff (IsWord c.name.toList ∧ (∀ word ∈ c.subcommands, IsWord word.toList) ∧
      (c.arguments.map Argument.name).Nodup ∧ Argument.AllWritable c.arguments)
    ⟨fun h => ⟨h.1, h.2.1, h.2.2.1, h.2.2.2⟩, fun h => ⟨h.name, h.subcommands, h.names, h.arguments⟩⟩

/-! ## One argument -/

theorem Validator.validate?_show {validator : Validator} {n : UInt64} (h : validator.Admits n) :
    validator.validate? (showUInt64 n) = some (.integer n) := by
  cases validator with
  | positive => exact validate?_positive_eq_some_iff.2 ⟨n, readUInt64?_showUInt64 n, h, rfl⟩
  | nonNegative => exact validate?_nonNegative_eq_some_iff.2 ⟨n, readUInt64?_showUInt64 n, rfl⟩
  | any => cases h

/-- What passes as a number is a number that passes; what passes as text is that text. -/
theorem Validator.of_validate? {validator : Validator} {word : String} {v : Value}
    (h : validator.validate? word = some v) :
    v = .text word ∨ ∃ n, v = .integer n ∧ validator.Admits n := by
  cases validator with
  | positive =>
    obtain ⟨n, -, hpos, rfl⟩ := validate?_positive_eq_some_iff.1 h
    exact .inr ⟨n, rfl, hpos⟩
  | nonNegative =>
    obtain ⟨n, -, rfl⟩ := validate?_nonNegative_eq_some_iff.1 h
    exact .inr ⟨n, rfl, trivial⟩
  | any =>
    cases h
    exact .inl rfl

theorem ItemForm.render_of_accept? {form : ItemForm} {word item : String}
    (h : form.accept? word = some item) : form.render item = word := by
  cases form with
  | marked mark =>
    rw [accept?] at h
    split at h
    · rename_i c cs hp
      cases h
      rw [List.isPrefixOf?_eq_some_iff_append_eq] at hp
      rw [render, ← String.toList_inj, String.toList_append, String.toList_ofList, hp]
    · cases h
  | bareword =>
    rw [accept?] at h
    split at h
    · cases h
    · exact (Option.some.inj h).symm

theorem ItemForm.accept?_marked_eq_some_iff {mark word item : String} :
    (ItemForm.marked mark).accept? word = some item ↔ word = mark ++ item ∧ item ≠ "" := by
  constructor
  · intro h
    refine ⟨(render_of_accept? h).symm, ?_⟩
    rw [accept?] at h
    split at h
    · cases h
      rw [ne_eq, String.ofList_eq_empty_iff]
      exact List.cons_ne_nil _ _
    · cases h
  · rintro ⟨rfl, hne⟩
    have hp : List.isPrefixOf? mark.toList (mark ++ item).toList = some item.toList := by
      rw [List.isPrefixOf?_eq_some_iff_append_eq, String.toList_append]
    rw [accept?, hp]
    cases hi : item.toList with
    | nil => exact absurd (String.toList_eq_nil_iff.1 hi) hne
    | cons c cs => exact congrArg some (by rw [← hi, String.ofList_toList])

theorem ItemForm.accept?_bareword_eq_some_iff {word item : String} :
    ItemForm.bareword.accept? word = some item ↔ word = item ∧ word.toList.head? ≠ some '#' := by
  rw [accept?]
  split
  · rename_i h
    simp [h]
  · rename_i h
    simp [h]

theorem lookup_of_mem {es : List (String × String)} (h : (es.map Prod.fst).Nodup)
    {key value : String} (he : (key, value) ∈ es) : es.lookup key = some value := by
  obtain ⟨before, after, rfl⟩ := List.append_of_mem he
  refine List.lookup_eq_some_iff.2 ⟨before, after, rfl, fun p hp => ?_⟩
  rw [List.map_append, List.map_cons, List.nodup_append] at h
  rw [bne_iff_ne]
  exact (h.2.2 p.1 (List.mem_map_of_mem hp) key List.mem_cons_self).symm

/-- What a group means is written as one of its keywords, and this keyword means it. -/
theorem KeywordGroup.IsWritable.exists_literal {g : KeywordGroup} (hg : g.IsWritable)
    {canonical : String} (h : canonical ∈ g.keywords.map Prod.snd) :
    ∃ literal, g.literal? canonical = some literal ∧ g.canonical? literal = some canonical := by
  obtain ⟨p, hp, rfl⟩ := List.mem_map.1 h
  cases hf : g.keywords.find? (fun q : String × String => q.2 == p.2) with
  | none =>
    rw [List.find?_eq_none] at hf
    exact absurd (beq_self_eq_true _) (hf p hp)
  | some q =>
    refine ⟨q.1, by rw [literal?, hf]; rfl, ?_⟩
    have hq := List.find?_some hf
    rw [beq_iff_eq] at hq
    rw [← hq]
    exact lookup_of_mem hg.nodup (List.mem_of_find?_eq_some hf)

theorem KeywordGroup.mem_of_canonical? {g : KeywordGroup} {literal canonical : String}
    (h : g.canonical? literal = some canonical) : canonical ∈ g.keywords.map Prod.snd := by
  obtain ⟨before, after, hk, -⟩ := List.lookup_eq_some_iff.1 h
  rw [hk]
  simp

namespace Argument

open Request

variable {reserved : String → Bool} {a : Argument} {tokens left : List Token} {v : Value}
  {after : List Argument}

theorem canonicalWords_keyword (name : String) (g : KeywordGroup) (canonical : String) :
    canonicalWords (⟨name, .keywords g⟩, .keyword canonical) = (g.literal? canonical).toList := rfl

theorem canonicalWords_list (name : String) (form : ItemForm) (items : List String) :
    canonicalWords (⟨name, .list form⟩, .list items) = items.map form.render := rfl

theorem IsChoice.exists_group (h : a.IsChoice) : ∃ g, a.kind = .keywords g := by
  obtain ⟨name, kind⟩ := a
  cases kind with
  | keywords g => exact ⟨g, rfl⟩
  | _ => exact h.elim

/-- An argument passes on some of its tokens, and none of its own keywords among them. -/
theorem Takes.left_subset (h : a.Takes reserved tokens v left) :
    ∀ t ∈ left, t ∈ tokens ∧ t.text ∉ a.reserved := by
  cases h with
  | positional => exact fun t ht => ⟨List.mem_cons_of_mem _ ht, List.not_mem_nil⟩
  | query => exact fun t ht => ⟨List.mem_cons_of_mem _ ht, List.not_mem_nil⟩
  | accepted => exact fun t ht => ⟨List.mem_cons_of_mem _ ht, List.not_mem_nil⟩
  | defaulted => exact fun t ht => ⟨ht, List.not_mem_nil⟩
  | unchosen hno => exact fun t ht => ⟨ht, hno t ht⟩
  | chosen _ hno =>
    intro t ht
    refine ⟨?_, hno t ht⟩
    rw [List.mem_append] at ht
    rw [List.mem_append, List.mem_cons]
    exact ht.imp_right .inr
  | items => exact fun t ht => ⟨List.mem_append_right _ ht, List.not_mem_nil⟩

theorem IsWritable.not_isDigits (ha : a.IsWritable after) {word : String}
    (h : word ∈ a.reserved) : isDigits word.toList = false := by
  obtain ⟨name, kind⟩ := a
  cases kind with
  | keywords g => exact (KeywordGroup.IsWritable.word ha word h).2
  | _ => cases h

theorem AllWritable.isWord_reserved {as : List Argument} (h : AllWritable as)
    {a : Argument} (ha : a ∈ as) {word : String} (hword : word ∈ a.reserved) :
    IsWord word.toList := by
  induction as with
  | nil => cases ha
  | cons b as ih =>
    rcases List.mem_cons.1 ha with rfl | ha
    · obtain ⟨name, kind⟩ := a
      cases kind with
      | keywords g => exact (KeywordGroup.IsWritable.word h.1 word hword).1
      | _ => cases hword
    · exact ih h.2 ha

/-- An optional argument has no value only when no tokens are left. -/
theorem Takes.left_eq_nil (h : a.Takes reserved tokens .unset left) (ha : a.IsOptional) :
    left = [] := by
  obtain ⟨name, kind⟩ := a
  obtain rfl : kind = .validated .any (some .unset) := ha
  cases h with
  | accepted hv => cases hv
  | defaulted hv =>
    cases tokens with
    | nil => rfl
    | cons t tokens => cases hv t rfl

/-- The keyword of a group that is written out. -/
theorem Takes.canonicalWords_keywords {name : String} {g : KeywordGroup} (hg : g.IsWritable)
    (h : Takes reserved ⟨name, .keywords g⟩ tokens v left) :
    ∃ literal canonical, canonicalWords (⟨name, .keywords g⟩, v) = [literal] ∧
      v = .keyword canonical ∧ g.canonical? literal = some canonical := by
  have hv : ∃ canonical, v = .keyword canonical ∧ canonical ∈ g.keywords.map Prod.snd := by
    cases h with
    | unchosen => exact ⟨_, rfl, hg.fallback⟩
    | chosen hc => exact ⟨_, rfl, g.mem_of_canonical? hc⟩
  obtain ⟨canonical, rfl, hc⟩ := hv
  obtain ⟨literal, hl, hlc⟩ := hg.exists_literal hc
  refine ⟨literal, canonical, ?_, rfl, hlc⟩
  rw [canonicalWords_keyword, hl]
  rfl

/-- An item is a token that writes it and is not reserved. -/
theorem item?_eq_some_iff {form : ItemForm} {t : Token} {item : String} :
    item? form reserved t = some item ↔
      t.text = form.render item ∧ form.accept? (form.render item) = some item ∧
        reserved (form.render item) = false := by
  rw [item?]
  constructor
  · intro h
    split at h
    · cases h
    · rename_i hr
      rw [form.render_of_accept? h]
      exact ⟨rfl, h, by simpa using hr⟩
  · rintro ⟨ht, ha, hr⟩
    rw [ht, hr]
    exact ha

/-- Items are the tokens that write them, as far as these are not reserved. -/
theorem map_item?_eq_iff {form : ItemForm} {run : List Token} {items : List String} :
    run.map (item? form reserved) = items.map some ↔
      run.map Token.text = items.map form.render ∧
        ∀ item ∈ items, form.accept? (form.render item) = some item ∧
          reserved (form.render item) = false := by
  induction run generalizing items with
  | nil => cases items <;> simp
  | cons t run ih =>
    cases items with
    | nil => simp
    | cons item items =>
      rw [List.map_cons, List.map_cons, List.map_cons, List.map_cons, List.cons.injEq,
        List.cons.injEq, List.forall_mem_cons, ih, item?_eq_some_iff]
      constructor
      · rintro ⟨⟨ht, hitem⟩, hrun, hitems⟩
        exact ⟨⟨ht, hrun⟩, hitem, hitems⟩
      · rintro ⟨⟨ht, hrun⟩, hitem, hitems⟩
        exact ⟨⟨ht, hitem⟩, hrun, hitems⟩

/-- A word that is written out was a word of the message, or it is a number or a keyword. -/
theorem Takes.canonicalWords_subset (h : a.Takes reserved tokens v left)
    (ha : a.IsWritable after) {word : String} (hword : word ∈ canonicalWords (a, v)) :
    (∃ t ∈ tokens, t.text = word) ∨ isDigits word.toList = true ∨ word ∈ a.reserved := by
  have htakes := h
  cases h with
  | @positional _ t =>
    obtain rfl := List.mem_singleton.1 hword
    exact .inl ⟨t, List.mem_cons_self, rfl⟩
  | @query _ t _ q hq =>
    obtain rfl := List.mem_singleton.1 hword
    exact .inl ⟨t, List.mem_cons_self, (Query.parse_eq_ok_iff.1 hq).1⟩
  | @accepted _ validator _ t _ _ hv =>
    rcases validator.of_validate? hv with rfl | ⟨n, rfl, -⟩
    · obtain rfl := List.mem_singleton.1 hword
      exact .inl ⟨t, List.mem_cons_self, rfl⟩
    · obtain rfl := List.mem_singleton.1 hword
      exact .inr (.inl (isDigits_showUInt64 n))
  | defaulted =>
    cases v with
    | integer n =>
      obtain rfl := List.mem_singleton.1 hword
      exact .inr (.inl (isDigits_showUInt64 n))
    | unset => cases hword
    | _ => exact ha.elim
  | unchosen =>
    obtain ⟨literal, canonical, hw, -, hc⟩ := Takes.canonicalWords_keywords ha htakes
    rw [hw] at hword
    obtain rfl := List.mem_singleton.1 hword
    exact .inr (.inr (KeywordGroup.mem_literals_of_canonical? hc))
  | chosen =>
    obtain ⟨literal, canonical, hw, -, hc⟩ := Takes.canonicalWords_keywords ha htakes
    rw [hw] at hword
    obtain rfl := List.mem_singleton.1 hword
    exact .inr (.inr (KeywordGroup.mem_literals_of_canonical? hc))
  | items hrun hrest =>
    rw [canonicalWords_list, ← (map_item?_eq_iff.1 hrun).1] at hword
    obtain ⟨t, ht, rfl⟩ := List.mem_map.1 hword
    exact .inl ⟨t, List.mem_append_left _ ht, rfl⟩

/-- An argument that is written out takes its own words again and no others. -/
theorem Takes.reread (h : a.Takes reserved tokens v left) (ha : a.IsWritable after)
    {own rest : List Token} (hown : own.map Token.text = canonicalWords (a, v))
    (hkey : ∀ t ∈ rest, t.text ∉ a.reserved)
    (hlist : ∀ form, a.kind = .list form → ∀ t ∈ rest.head?, reserved t.text = true)
    (hoptional : a.IsOptional → v = .unset → rest = []) :
    a.Takes reserved (own ++ rest) v rest := by
  have htakes := h
  -- along the rule by which the value came, since that says how it is written
  cases h with
  | @positional _ t =>
    obtain ⟨u, rfl, hu⟩ := List.map_eq_singleton_iff.1 hown
    have ht : u.text = t.text := hu
    rw [← ht]
    exact .positional
  | query hq =>
    obtain ⟨u, rfl, hu⟩ := List.map_eq_singleton_iff.1 hown
    refine .query ?_
    rw [hu]
    exact (Query.parse_eq_ok_iff.1 hq).2.parse_display
  | @accepted _ validator _ t _ _ hv =>
    rcases validator.of_validate? hv with rfl | ⟨n, rfl, hn⟩
    · obtain ⟨u, rfl, hu⟩ := List.map_eq_singleton_iff.1 hown
      refine .accepted ?_
      rw [hu]
      exact hv
    · obtain ⟨u, rfl, hu⟩ := List.map_eq_singleton_iff.1 hown
      refine .accepted ?_
      rw [hu]
      exact validator.validate?_show hn
  | @defaulted _ validator =>
    cases v with
    | integer n =>
      obtain ⟨u, rfl, hu⟩ := List.map_eq_singleton_iff.1 hown
      refine .accepted ?_
      rw [hu]
      exact validator.validate?_show ha
    | unset =>
      obtain rfl := List.map_eq_nil_iff.1 hown
      obtain ⟨rfl, -⟩ := ha
      obtain rfl := hoptional rfl rfl
      exact .defaulted (by simp)
    | _ => exact ha.elim
  | unchosen =>
    obtain ⟨literal, canonical, hw, hc, hl⟩ := Takes.canonicalWords_keywords ha htakes
    rw [hw] at hown
    obtain ⟨u, rfl, rfl⟩ := List.map_eq_singleton_iff.1 hown
    rw [hc]
    exact @Takes.chosen _ _ _ [] _ _ _ hl hkey
  | chosen =>
    obtain ⟨literal, canonical, hw, hc, hl⟩ := Takes.canonicalWords_keywords ha htakes
    rw [hw] at hown
    obtain ⟨u, rfl, rfl⟩ := List.map_eq_singleton_iff.1 hown
    rw [hc]
    exact @Takes.chosen _ _ _ [] _ _ _ hl hkey
  | @items _ form run _ items hrun _ =>
    rw [canonicalWords_list] at hown
    refine .items (map_item?_eq_iff.2 ⟨hown, (map_item?_eq_iff.1 hrun).2⟩) fun t ht => ?_
    rw [item?, if_pos (hlist form rfl t ht)]

end Argument

/-! ## All arguments -/

namespace Command

open Request

variable {c : Command} {index : Nat} {as : List Argument} {tokens left : List Token}
  {vs : List Value}

/-- The words of arguments with their values. -/
def wordsOf (as : List Argument) (vs : List Value) : List String :=
  (as.zip vs).flatMap canonicalWords

theorem wordsOf_cons (a : Argument) (as : List Argument) (v : Value) (vs : List Value) :
    wordsOf (a :: as) (v :: vs) = canonicalWords (a, v) ++ wordsOf as vs := rfl

theorem TakesFrom.wordsOf_subset (h : c.TakesFrom index as tokens vs left)
    (has : Argument.AllWritable as) :
    ∀ word ∈ wordsOf as vs, (∃ t ∈ tokens, t.text = word) ∨ isDigits word.toList = true ∨
      ∃ a ∈ as, word ∈ a.reserved := by
  induction h with
  | nil => exact fun word hword => nomatch hword
  | @cons _ a as tokens passed _ v vs ha _ ih =>
    intro word hword
    rw [wordsOf_cons, List.mem_append] at hword
    rcases hword with hword | hword
    · rcases ha.canonicalWords_subset has.1 hword with ht | hd | hk
      · exact .inl ht
      · exact .inr (.inl hd)
      · exact .inr (.inr ⟨a, List.mem_cons_self, hk⟩)
    · rcases ih has.2 word hword with ⟨t, ht, rfl⟩ | hd | ⟨b, hb, hk⟩
      · exact .inl ⟨t, (ha.left_subset t ht).1, rfl⟩
      · exact .inr (.inl hd)
      · exact .inr (.inr ⟨b, List.mem_cons_of_mem _ hb, hk⟩)

/-- What is written out are words. -/
theorem TakesFrom.isWord_wordsOf (h : c.TakesFrom index as tokens vs left)
    (has : Argument.AllWritable as) (hwords : ∀ t ∈ tokens, IsWord t.text.toList) :
    ∀ word ∈ wordsOf as vs, IsWord word.toList := by
  intro word hword
  rcases h.wordsOf_subset has word hword with ⟨t, ht, rfl⟩ | hd | ⟨a, ha, hk⟩
  · exact hwords t ht
  · exact isWord_of_isDigits hd
  · exact has.isWord_reserved ha hk

/-- Optional arguments that find nothing write nothing. -/
theorem TakesFrom.wordsOf_optional (h : c.TakesFrom index as [] vs left)
    (has : ∀ a ∈ as, a.IsOptional) : wordsOf as vs = [] := by
  induction as generalizing index vs with
  | nil =>
    cases h
    rfl
  | cons a as ih =>
    obtain ⟨ha, hoptional⟩ := List.forall_mem_cons.1 has
    obtain ⟨name, kind⟩ := a
    obtain rfl : kind = .validated .any (some .unset) := ha
    cases h with
    | cons hv hvs =>
      cases hv with
      | defaulted =>
        rw [wordsOf_cons, ih hvs hoptional]
        rfl

/-- The first word after a list is a keyword of the next argument. -/
theorem TakesFrom.head_wordsOf {b : Argument} {g : KeywordGroup}
    (h : c.TakesFrom index (b :: as) tokens vs left) (hb : b.kind = .keywords g)
    (hg : g.IsWritable) : ∃ word, (wordsOf (b :: as) vs).head? = some word ∧ word ∈ b.reserved := by
  obtain ⟨name, kind⟩ := b
  obtain rfl : kind = .keywords g := hb
  cases h with
  | cons hv _ =>
    obtain ⟨literal, canonical, hw, -, hc⟩ := hv.canonicalWords_keywords hg
    refine ⟨literal, ?_, g.mem_literals_of_canonical? hc⟩
    rw [wordsOf_cons, hw]
    rfl

/-- Words in front of which a list stands begin with a keyword, which the list leaves alone. -/
theorem TakesFrom.isReservedElsewhere_head (h : c.TakesFrom index as tokens vs left)
    (hindex : c.arguments.drop index = as) (has : Argument.AllWritable as)
    (hnext : ∀ b ∈ as.head?, b.IsChoice) {rest : List Token}
    (hrest : rest.map Token.text = wordsOf as vs) {t : Token} (ht : t ∈ rest.head?) {place : Nat}
    (hplace : index ≠ place) : c.isReservedElsewhere t.text place = true := by
  cases as with
  | nil =>
    rw [List.map_eq_nil_iff.1 hrest] at ht
    cases ht
  | cons b as =>
    obtain ⟨g, hb⟩ := (hnext b rfl).exists_group
    have hg : g.IsWritable := by
      have := has.1
      rw [Argument.IsWritable, hb] at this
      exact this
    obtain ⟨word, hword, hreserved⟩ := h.head_wordsOf hb hg
    rw [← hrest, List.head?_map, Option.mem_def.1 ht] at hword
    cases hword
    refine isReservedElsewhere_iff.2 ⟨index, b, ?_, hplace, hreserved⟩
    rw [← List.head?_drop, hindex]
    rfl

/-- In front of the words of the arguments after it an argument takes its own words again. -/
theorem TakesFrom.reread_head {a : Argument} {passed own rest : List Token} {v : Value}
    (ha : a.Takes (c.isReservedElsewhere · index) tokens v passed)
    (hvs : c.TakesFrom (index + 1) as passed vs left)
    (hindex : c.arguments.drop (index + 1) = as) (has : Argument.AllWritable (a :: as))
    (hclash : ∀ b ∈ as, ∀ word ∈ a.reserved, word ∉ b.reserved)
    (hown : own.map Token.text = canonicalWords (a, v))
    (hrest : rest.map Token.text = wordsOf as vs) :
    a.Takes (c.isReservedElsewhere · index) (own ++ rest) v rest := by
  refine ha.reread has.1 hown ?_ ?_ ?_
  · -- none of the later words is a keyword of this argument
    intro t ht hkey
    have hword : t.text ∈ wordsOf as vs := hrest ▸ List.mem_map_of_mem ht
    rcases hvs.wordsOf_subset has.2 _ hword with ⟨u, hu, hut⟩ | hd | ⟨b, hb, hk⟩
    · exact (ha.left_subset u hu).2 (hut ▸ hkey)
    · exact absurd hd (by rw [has.1.not_isDigits hkey]; exact Bool.false_ne_true)
    · exact hclash b hb _ hkey hk
  · -- a list stops in front of the keyword that comes next
    intro form hform t ht
    have hnext : ∀ b ∈ as.head?, b.IsChoice := by
      have := has.1
      rw [Argument.IsWritable, hform] at this
      exact this
    exact hvs.isReservedElsewhere_head hindex has.2 hnext hrest ht (by omega)
  · -- an optional argument without a value has found no tokens
    intro hoptional hv
    subst hv
    have hlater : ∀ b ∈ as, b.IsOptional := by
      have := has.1
      rw [Argument.IsWritable, show a.kind = _ from hoptional] at this
      exact this.2
    rw [ha.left_eq_nil hoptional] at hvs
    rw [hvs.wordsOf_optional hlater] at hrest
    exact List.map_eq_nil_iff.1 hrest

theorem drop_succ_arguments {a : Argument} (h : c.arguments.drop index = a :: as) :
    c.arguments.drop (index + 1) = as := by
  rw [← List.drop_drop, h]
  rfl

end Command

end ChatOps
