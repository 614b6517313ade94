/-
What arguments may be bound to. A value fits an argument when it is of the argument's kind and comes
from words of the message, or is the value for a message that gives none. Whatever an argument takes
fits it, so every value of a request is of the kind that its command declares.
-/
import ChatOps.Proofs.Message.Canonical
import ChatOps.Proofs.Message.Ownership

namespace ChatOps

open Text

/-- A word gives no empty item. -/
theorem ItemForm.ne_empty_of_accept? {form : ItemForm} {word item : String}
    (h : form.accept? word = some item) (hword : word ≠ "") : item ≠ "" := by
  cases form with
  | marked mark => exact (accept?_marked_eq_some_iff.1 h).2
  | bareword => exact (accept?_bareword_eq_some_iff.1 h).1 ▸ hword

namespace Argument

/-- A value fits an argument of this kind, which stands at place `index` of the command: words of the
message give it to such an argument, or it is the argument's default. -/
inductive Fits (c : Command) (index : Nat) (words : List String) : ArgumentKind → Value → Prop
  | positional {word : String} : word ∈ words → Fits c index words .positional (.text word)
  | query {q : Query} : q.WellFormed → q.display ∈ words → Fits c index words .query (.query q)
  | positive {default : Option Value} {word : String} {n : UInt64} : word ∈ words →
      isDigits word.toList = true → n.toNat = digitsValue word.toList → 0 < n →
      Fits c index words (.validated .positive default) (.integer n)
  | nonNegative {default : Option Value} {word : String} {n : UInt64} : word ∈ words →
      isDigits word.toList = true → n.toNat = digitsValue word.toList →
      Fits c index words (.validated .nonNegative default) (.integer n)
  | any {default : Option Value} {word : String} : word ∈ words →
      Fits c index words (.validated .any default) (.text word)
  | default {validator : Validator} {v : Value} :
      Fits c index words (.validated validator (some v)) v
  | chosen {g : KeywordGroup} {word canonical : String} : word ∈ words →
      g.canonical? word = some canonical → Fits c index words (.keywords g) (.keyword canonical)
  | unchosen {g : KeywordGroup} : Fits c index words (.keywords g) (.keyword g.fallback)
  | list {form : ItemForm} {items : List String} :
      (∀ item ∈ items, item ≠ "" ∧ form.render item ∈ words ∧
        ¬ c.Reserves index (form.render item)) →
      Fits c index words (.list form) (.list items)

variable {c : Command} {index : Nat} {words words' : List String} {kind : ArgumentKind} {v : Value}

/-- What fits among some words fits among more of them. -/
theorem Fits.mono (h : Fits c index words kind v) (hsub : words ⊆ words') :
    Fits c index words' kind v := by
  cases h with
  | positional hw => exact .positional (hsub hw)
  | query hq hw => exact .query hq (hsub hw)
  | positive hw hd hn hpos => exact .positive (hsub hw) hd hn hpos
  | nonNegative hw hd hn => exact .nonNegative (hsub hw) hd hn
  | any hw => exact .any (hsub hw)
  | default => exact .default
  | chosen hw hc => exact .chosen (hsub hw) hc
  | unchosen => exact .unchosen
  | list hitems => exact .list fun item hi => ⟨(hitems item hi).1, hsub (hitems item hi).2.1,
      (hitems item hi).2.2⟩

/-- A word that passes gives a value that fits. -/
theorem fits_of_validate? {validator : Validator} {default : Option Value} {word : String}
    (hword : word ∈ words) (h : validator.validate? word = some v) :
    Fits c index words (.validated validator default) v := by
  cases validator with
  | positive =>
    obtain ⟨n, hread, hpos, rfl⟩ := Validator.validate?_positive_eq_some_iff.1 h
    obtain ⟨hdigits, hvalue⟩ := readUInt64?_eq_some_iff.1 hread
    exact .positive hword hdigits hvalue.symm hpos
  | nonNegative =>
    obtain ⟨n, hread, rfl⟩ := Validator.validate?_nonNegative_eq_some_iff.1 h
    obtain ⟨hdigits, hvalue⟩ := readUInt64?_eq_some_iff.1 hread
    exact .nonNegative hword hdigits hvalue.symm
  | any =>
    cases h
    exact .any hword

/-- What an argument takes fits it. -/
theorem Takes.fits {a : Argument} {tokens left : List Token}
    (h : a.Takes (c.isReservedElsewhere · index) tokens v left)
    (hwords : ∀ t ∈ tokens, IsWord t.text.toList) :
    Fits c index (tokens.map Token.text) a.kind v := by
  cases h with
  | positional => exact .positional List.mem_cons_self
  | query hq =>
    obtain ⟨hdisplay, hwell⟩ := Query.parse_eq_ok_iff.1 hq
    refine .query hwell ?_
    rw [← hdisplay]
    exact List.mem_cons_self
  | accepted hv => exact fits_of_validate? List.mem_cons_self hv
  | defaulted => exact .default
  | chosen hc =>
    refine .chosen ?_ hc
    rw [List.map_append, List.map_cons]
    exact List.mem_append_right _ List.mem_cons_self
  | unchosen => exact .unchosen
  | @items _ form run rest items hrun _ =>
    obtain ⟨htexts, hitems⟩ := map_item?_eq_iff.1 hrun
    refine .list fun item hitem => ?_
    obtain ⟨haccept, hfree⟩ := hitems item hitem
    have hmem : form.render item ∈ run.map Token.text := htexts ▸ List.mem_map_of_mem hitem
    obtain ⟨t, ht, htext⟩ := List.mem_map.1 hmem
    have hword : form.render item ≠ "" := by
      rw [← htext]
      exact fun h => (hwords t (List.mem_append_left _ ht)).1 (String.toList_eq_nil_iff.2 h)
    refine ⟨ItemForm.ne_empty_of_accept? haccept hword, ?_, ?_⟩
    · rw [List.map_append]
      exact List.mem_append_left _ hmem
    · rw [Command.Reserves, ← Command.isReservedElsewhere_iff, hfree]
      exact Bool.false_ne_true

/-! ## Sorts -/

/-- The sort of value that goes with a kind of argument, whatever words it comes from. An optional
word is a text or nothing. -/
inductive HasSort : ArgumentKind → Value → Prop
  | positional {s : String} : HasSort .positional (.text s)
  | query {q : Query} : HasSort .query (.query q)
  | number {validator : Validator} {default : Option Value} {n : UInt64} : validator ≠ .any →
      HasSort (.validated validator default) (.integer n)
  | word {default : Option Value} {s : String} : HasSort (.validated .any default) (.text s)
  | unset : HasSort (.validated .any (some .unset)) .unset
  | keyword {g : KeywordGroup} {s : String} : s ∈ g.keywords.map Prod.snd →
      HasSort (.keywords g) (.keyword s)
  | list {form : ItemForm} {items : List String} : HasSort (.list form) (.list items)

theorem AllWritable.isWritable {before after : List Argument} {a : Argument}
    (h : AllWritable (before ++ a :: after)) : a.IsWritable after := by
  induction before with
  | nil => exact h.1
  | cons _ _ ih => exact ih h.2

/-- An argument that can be written out has a default of its own sort, if any. -/
theorem Fits.hasSort {a : Argument} {after : List Argument} (h : Fits c index words a.kind v)
    (ha : a.IsWritable after) : HasSort a.kind v := by
  obtain ⟨name, kind⟩ := a
  cases h with
  | positional => exact .positional
  | query => exact .query
  | positive => exact .number (by decide)
  | nonNegative => exact .number (by decide)
  | any => exact .word
  | default =>
    cases v with
    | integer n =>
      refine .number ?_
      rintro rfl
      exact ha
    | unset =>
      obtain ⟨rfl, -⟩ := ha
      exact .unset
    | _ => exact ha.elim
  | chosen _ hc => exact .keyword (KeywordGroup.mem_of_canonical? hc)
  | unchosen => exact .keyword (KeywordGroup.IsWritable.fallback ha)
  | list => exact .list

end Argument

namespace Command

variable {c : Command} {index : Nat} {tokens left : List Token} {vs : List Value}

/-- Arguments leave some of the tokens. -/
theorem TakesFrom.left_subset {as : List Argument} (h : c.TakesFrom index as tokens vs left) :
    left ⊆ tokens := by
  induction h with
  | nil => exact List.Subset.refl _
  | cons ha _ ih => exact List.Subset.trans ih fun t ht => (ha.left_subset t ht).1

/-- The value of an argument among others fits it. -/
theorem TakesFrom.fits {before after : List Argument} {a : Argument}
    (h : c.TakesFrom index (before ++ a :: after) tokens vs left)
    (hwords : ∀ t ∈ tokens, IsWord t.text.toList) :
    ∃ us v ws, vs = us ++ v :: ws ∧ before.length = us.length ∧ after.length = ws.length ∧
      Argument.Fits c (index + before.length) (tokens.map Token.text) a.kind v := by
  obtain ⟨us, passed, _, rfl, hbefore, hrest⟩ := takesFrom_append_iff.1 h
  obtain ⟨v, _, ws, rfl, ha, hafter⟩ := takesFrom_cons_iff.1 hrest
  have hpassed := hbefore.left_subset
  refine ⟨us, v, ws, rfl, hbefore.length_eq, hafter.length_eq, ?_⟩
  exact (ha.fits fun t ht => hwords t (hpassed ht)).mono (List.map_subset _ hpassed)

end Command

end ChatOps
