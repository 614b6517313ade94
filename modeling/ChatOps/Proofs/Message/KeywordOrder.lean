/-
The order of keywords. Arguments that take keywords and stand side by side take what they take from
any order of their keywords in the message, and in any order of the arguments. Both rest on what
registration checks: no word is a keyword of two arguments, so taking the keywords of one of them
leaves those of the others where they are.
-/
import ChatOps.Proofs.Message.Canonical
import ChatOps.Proofs.Message.Ownership
import ChatOps.Proofs.NameMap

namespace ChatOps

namespace Argument

/-! ## Keywords and other words -/

/-- The tokens that are keywords of an argument. -/
def keywordsAmong (a : Argument) (tokens : List Token) : List Token :=
  tokens.filter fun t => a.reserved.contains t.text

/-- The tokens that are no keywords of any of these arguments. -/
def othersAmong (as : List Argument) (tokens : List Token) : List Token :=
  tokens.filter fun t => as.all fun a => !a.reserved.contains t.text

/-- Two lists of tokens that differ in where the keywords of these arguments stand, and in what
order: the other words are the same in the same order, and each argument has its keywords equally
often in both. -/
structure Rearranged (as : List Argument) (tokens tokens' : List Token) : Prop where
  others : (othersAmong as tokens).map Token.text = (othersAmong as tokens').map Token.text
  keywords : ∀ a ∈ as,
    ((a.keywordsAmong tokens).map Token.text).Perm ((a.keywordsAmong tokens').map Token.text)

/-- Two keywords of an argument among the tokens, the first two, are one too many. -/
def Clash (a : Argument) (tokens : List Token) (e : ParseError) : Prop :=
  ∃ first duplicate more, a.keywordsAmong tokens = first :: duplicate :: more ∧
    e = .duplicateKeyword a.name first duplicate

variable {a b : Argument} {as : List Argument} {tokens tokens' left left' : List Token} {v w : Value}

theorem othersAmong_nil (tokens : List Token) : othersAmong [] tokens = tokens := by
  rw [othersAmong, List.filter_eq_self]
  exact fun t _ => rfl

theorem othersAmong_cons (a : Argument) (as : List Argument) (tokens : List Token) :
    othersAmong (a :: as) tokens = othersAmong as (othersAmong [a] tokens) := by
  rw [othersAmong, othersAmong, othersAmong, List.filter_filter]
  congr 1
  funext t
  rw [List.all_cons, List.all_cons, List.all_nil, Bool.and_true, Bool.and_comm]

theorem othersAmong_comm (a b : Argument) (tokens : List Token) :
    othersAmong [a] (othersAmong [b] tokens) = othersAmong [b] (othersAmong [a] tokens) :=
  List.filter_comm ..

/-- An argument's keywords are other words to an argument that shares none of them. -/
theorem keywordsAmong_othersAmong (h : ∀ word ∈ a.reserved, word ∉ b.reserved)
    (tokens : List Token) : b.keywordsAmong (othersAmong [a] tokens) = b.keywordsAmong tokens := by
  rw [keywordsAmong, othersAmong, List.filter_filter, keywordsAmong]
  refine List.filter_congr fun t _ => ?_
  rw [List.all_cons, List.all_nil, Bool.and_true, Bool.eq_iff_iff, Bool.and_eq_true,
    Bool.not_eq_true', ← Bool.not_eq_true, List.contains_iff_mem, List.contains_iff_mem]
  constructor
  · exact And.left
  · intro hb
    exact ⟨hb, fun ha => h _ ha hb⟩

/-! ## One argument -/

variable {c : Command} {index : Nat}

/-- An argument of keywords has the value of those that are there, and takes them. -/
theorem IsChoice.takes_iff (ha : a.IsChoice) :
    a.Takes (c.isReservedElsewhere · index) tokens v left ↔
      a.valueOf? ((a.keywordsAmong tokens).map Token.text) = some v ∧
        left = othersAmong [a] tokens := by
  obtain ⟨name, kind⟩ := a
  cases kind with
  | keywords g =>
    have hothers : othersAmong [⟨name, .keywords g⟩] tokens =
        tokens.filter fun t => !g.literals.contains t.text := by
      simp [othersAmong, reserved]
    rw [hothers, keywordsAmong, reserved]
    constructor
    · intro h
      cases h with
      | unchosen hno =>
        rw [List.filter_eq_nil_iff.2 (by simpa using hno), List.filter_eq_self.2 (by simpa using hno)]
        exact ⟨rfl, rfl⟩
      | chosen hc hno =>
        obtain ⟨hone, hrest⟩ := filter_keyword (g.mem_literals_of_canonical? hc) hno
        rw [hone, hrest, List.map_singleton, valueOf?, hc]
        exact ⟨rfl, rfl⟩
    · rintro ⟨hv, rfl⟩
      rw [← bind_eq_ok_iff 0, bind_keywords, bindKeyword]
      cases hk : tokens.filter fun t => g.literals.contains t.text with
      | nil =>
        rw [hk] at hv
        cases hv
        have hno : ∀ t ∈ tokens, t.text ∉ g.literals := by
          simpa using List.filter_eq_nil_iff.1 hk
        rw [List.filter_eq_self.2 (by simpa using hno)]
      | cons t more =>
        rw [hk] at hv
        cases more with
        | nil =>
          obtain ⟨canonical, hc, rfl⟩ := Option.map_eq_some_iff.1 hv
          simp only [hc, Option.getD_some]
        | cons u more => cases hv
  | _ => cases ha

/-- It fails when there are several. -/
theorem IsChoice.bind_eq_error_iff (ha : a.IsChoice) {stop : Nat} {e : ParseError} :
    a.bind c index stop tokens = .error e ↔ a.Clash tokens e := by
  obtain ⟨name, kind⟩ := a
  cases kind with
  | keywords g =>
    rw [bind_keywords, bindKeyword, Clash, keywordsAmong, reserved]
    cases tokens.filter fun t => g.literals.contains t.text with
    | nil => simp
    | cons t more =>
      cases more with
      | nil => simp
      | cons u more => simp [eq_comm]
  | _ => cases ha

/-- One keyword or none is the same one in any order. -/
theorem IsChoice.valueOf?_perm {texts texts' : List String} (ha : a.IsChoice)
    (h : texts.Perm texts') : a.valueOf? texts = a.valueOf? texts' := by
  obtain ⟨name, kind⟩ := a
  cases kind with
  | keywords g =>
    match texts, texts' with
    | [], texts' => rw [List.nil_perm.1 h]
    | [text], texts' => rw [List.singleton_perm.1 h]
    | texts, [] => rw [List.perm_nil.1 h]
    | texts, [text] => rw [List.perm_singleton.1 h]
    | _ :: _ :: _, _ :: _ :: _ => rfl
  | _ => cases ha

/-- Without the keywords of the first argument the tokens are still rearranged for the others. -/
theorem Rearranged.tail (h : Rearranged (a :: as) tokens tokens')
    (hclash : ∀ b ∈ as, ∀ word ∈ a.reserved, word ∉ b.reserved) :
    Rearranged as (othersAmong [a] tokens) (othersAmong [a] tokens') := by
  constructor
  · have hothers := h.others
    rwa [othersAmong_cons a as tokens, othersAmong_cons a as tokens'] at hothers
  · intro b hb
    rw [keywordsAmong_othersAmong (hclash b hb), keywordsAmong_othersAmong (hclash b hb)]
    exact h.keywords b (List.mem_cons_of_mem a hb)

/-- Two arguments of keywords that share none may change places. -/
theorem IsChoice.takes_comm (ha : a.IsChoice) (hb : b.IsChoice)
    (hab : ∀ word ∈ a.reserved, word ∉ b.reserved)
    (hta : a.Takes (c.isReservedElsewhere · index) tokens v left)
    (htb : b.Takes (c.isReservedElsewhere · (index + 1)) left w left') :
    b.Takes (c.isReservedElsewhere · index) tokens w (othersAmong [b] tokens) ∧
      a.Takes (c.isReservedElsewhere · (index + 1)) (othersAmong [b] tokens) v left' := by
  obtain ⟨hv, rfl⟩ := ha.takes_iff.1 hta
  obtain ⟨hw, rfl⟩ := hb.takes_iff.1 htb
  rw [keywordsAmong_othersAmong hab] at hw
  have hba : ∀ word ∈ b.reserved, word ∉ a.reserved := fun word hwb hwa => hab word hwa hwb
  refine ⟨hb.takes_iff.2 ⟨hw, rfl⟩, ha.takes_iff.2 ⟨?_, othersAmong_comm b a tokens⟩⟩
  rw [keywordsAmong_othersAmong hba]
  exact hv

end Argument

namespace Command

open Argument

variable {c c' : Command} {index stop stop' : Nat} {block block' : List Argument}
  {tokens tokens' left : List Token} {vs : List Value}

/-! ## Several arguments side by side -/

theorem bindFrom_cons_of_error {a : Argument} (as : List Argument) {e : ParseError}
    (h : a.bind c index stop tokens = .error e) :
    c.bindFrom stop index (a :: as) tokens = .error e := by
  rw [bindFrom, h]
  rfl

theorem bindFrom_cons_of_ok {a : Argument} (as : List Argument) {v : Value}
    (h : a.bind c index stop tokens = .ok (v, left)) :
    c.bindFrom stop index (a :: as) tokens =
      (c.bindFrom stop (index + 1) as left).map fun p => (v :: p.1, p.2) := by
  rw [bindFrom, h]
  show (c.bindFrom stop (index + 1) as left >>= fun p => pure (v :: p.1, p.2)) = _
  cases c.bindFrom stop (index + 1) as left with
  | error e => rfl
  | ok p => rfl

/-- Arguments of keywords come to the same on rearranged tokens: the same one of them clashes, or
all have the same values and the same words are left. -/
theorem bindFrom_rearranged (c : Command) (stop stop' index : Nat)
    (hblock : ∀ a ∈ block, a.IsChoice) (hkeys : Unambiguous block)
    (h : Rearranged block tokens tokens') :
    (∃ a ∈ block, ∃ e e', a.Clash tokens e ∧ a.Clash tokens' e' ∧
      c.bindFrom stop index block tokens = .error e ∧
      c.bindFrom stop' index block tokens' = .error e') ∨
    ∃ vs left left', c.bindFrom stop index block tokens = .ok (vs, left) ∧
      c.bindFrom stop' index block tokens' = .ok (vs, left') ∧
      left.map Token.text = left'.map Token.text := by
  induction block generalizing index tokens tokens' with
  | nil =>
    have hothers := h.others
    rw [othersAmong_nil, othersAmong_nil] at hothers
    exact .inr ⟨[], tokens, tokens', rfl, rfl, hothers⟩
  | cons a as ih =>
    obtain ⟨ha, has⟩ := List.forall_mem_cons.1 hblock
    obtain ⟨hclash, hkeys⟩ := List.pairwise_cons.1 hkeys
    have hvalue := ha.valueOf?_perm (h.keywords a List.mem_cons_self)
    cases hbind : a.bind c index stop tokens with
    | error e =>
      cases hbind' : a.bind c index stop' tokens' with
      | error e' =>
        exact .inl ⟨a, List.mem_cons_self, e, e', ha.bind_eq_error_iff.1 hbind,
          ha.bind_eq_error_iff.1 hbind', bindFrom_cons_of_error as hbind,
          bindFrom_cons_of_error as hbind'⟩
      | ok p =>
        -- the same keywords in another order would not be too many
        obtain ⟨hv, -⟩ := ha.takes_iff.1 ((Argument.bind_eq_ok_iff stop').1 hbind')
        have htakes : a.Takes (c.isReservedElsewhere · index) tokens p.1 _ :=
          ha.takes_iff.2 ⟨hvalue.trans hv, rfl⟩
        rw [(Argument.bind_eq_ok_iff stop).2 htakes] at hbind
        cases hbind
    | ok p =>
      obtain ⟨v, passed⟩ := p
      obtain ⟨hv, rfl⟩ := ha.takes_iff.1 ((Argument.bind_eq_ok_iff stop).1 hbind)
      have htakes' : a.Takes (c.isReservedElsewhere · index) tokens' v _ :=
        ha.takes_iff.2 ⟨hvalue.symm.trans hv, rfl⟩
      have hbind' := (Argument.bind_eq_ok_iff stop').2 htakes'
      rcases ih (index + 1) has hkeys (h.tail hclash) with
        ⟨b, hb, e, e', he, he', herror, herror'⟩ | ⟨vs, left, left', hok, hok', hleft⟩
      · rw [Clash, keywordsAmong_othersAmong (hclash b hb)] at he he'
        refine .inl ⟨b, List.mem_cons_of_mem a hb, e, e', he, he', ?_, ?_⟩
        · rw [bindFrom_cons_of_ok as hbind, herror]
          rfl
        · rw [bindFrom_cons_of_ok as hbind', herror']
          rfl
      · refine .inr ⟨v :: vs, left, left', ?_, ?_, hleft⟩
        · rw [bindFrom_cons_of_ok as hbind, hok]
          rfl
        · rw [bindFrom_cons_of_ok as hbind', hok']
          rfl

/-- What keyword arguments take has nothing to do with the rest of the command. -/
theorem TakesFrom.of_choices {as : List Argument} (has : ∀ a ∈ as, a.IsChoice)
    (h : c.TakesFrom index as tokens vs left) (c' : Command) :
    c'.TakesFrom index as tokens vs left := by
  induction h with
  | nil => exact .nil
  | cons ha _ ih =>
    obtain ⟨hchoice, has⟩ := List.forall_mem_cons.1 has
    exact .cons (hchoice.takes_iff.2 (hchoice.takes_iff.1 ha)) (ih has)

/-- Arguments of keywords may stand in any order: each has the value it had, and the same tokens are
left. -/
theorem TakesFrom.perm (hperm : block.Perm block') (hblock : ∀ a ∈ block, a.IsChoice)
    (hkeys : Unambiguous block) (h : c.TakesFrom index block tokens vs left) :
    ∃ vs', c.TakesFrom index block' tokens vs' left ∧
      (block.zip vs).Perm (block'.zip vs') := by
  induction hperm generalizing index tokens vs with
  | nil => exact ⟨vs, h, .refl _⟩
  | cons a _ ih =>
    cases h with
    | cons ha has =>
      obtain ⟨ws, hws, hzip⟩ :=
        ih (List.forall_mem_cons.1 hblock).2 (List.pairwise_cons.1 hkeys).2 has
      exact ⟨_, .cons ha hws, hzip.cons _⟩
  | swap b a as =>
    cases h with
    | cons ha h =>
      cases h with
      | cons hb has =>
        obtain ⟨hca, hcb⟩ := List.forall_mem_cons.1 hblock
        have hab := (List.pairwise_cons.1 hkeys).1 _ List.mem_cons_self
        obtain ⟨hb', ha'⟩ := hca.takes_comm (List.forall_mem_cons.1 hcb).1 hab ha hb
        exact ⟨_, .cons hb' (.cons ha' has), .swap _ _ _⟩
  | @trans as bs cs hab _ ihab ihbc =>
    obtain ⟨us, hus, hzip⟩ := ihab hblock hkeys h
    have hblock' : ∀ a ∈ bs, a.IsChoice := fun a ha => hblock a (hab.mem_iff.2 ha)
    have hkeys' : Unambiguous bs := hab.pairwise hkeys fun hab word hb ha => hab word ha hb
    obtain ⟨ws, hws, hzip'⟩ := ihbc hblock' hkeys' hus
    exact ⟨ws, hws, hzip.trans hzip'⟩

/-! ## Among other arguments -/

section Places

variable {pre post : List Argument}

/-- Which words are reserved outside a row of arguments does not depend on their order. -/
theorem isReservedElsewhere_perm (hargs : c.arguments = pre ++ block ++ post)
    (hargs' : c'.arguments = pre ++ block' ++ post) (hperm : block.Perm block')
    (hindex : index < pre.length ∨ pre.length + block.length ≤ index) (word : String) :
    c.isReservedElsewhere word index = c'.isReservedElsewhere word index := by
  -- no place of the row is the one that is asked about
  have hrow : ∀ as : List Argument, as.length = block.length →
      ((as.zipIdx pre.length).any fun p => p.2 != index && p.1.reserved.contains word) =
        as.any fun a => a.reserved.contains word := by
    intro as hlen
    rw [Bool.eq_iff_iff, List.any_eq_true, List.any_eq_true]
    constructor
    · rintro ⟨p, hp, hword⟩
      have ha : p.1 ∈ as := List.zipIdx_map_fst pre.length as ▸ List.mem_map_of_mem hp
      exact ⟨p.1, ha, (Bool.and_eq_true_iff.1 hword).2⟩
    · rintro ⟨a, ha, hword⟩
      rw [← List.zipIdx_map_fst pre.length as] at ha
      obtain ⟨p, hp, rfl⟩ := List.mem_map.1 ha
      have hle := List.le_snd_of_mem_zipIdx hp
      have hlt := List.snd_lt_of_mem_zipIdx hp
      refine ⟨p, hp, Bool.and_eq_true_iff.2 ⟨bne_iff_ne.2 ?_, hword⟩⟩
      omega
  unfold isReservedElsewhere
  simp only [hargs, hargs', List.zipIdx_append, List.any_append, List.length_append, Nat.zero_add]
  rw [hrow block rfl, hrow block' hperm.length_eq.symm, hperm.any_eq, hperm.length_eq]

/-- Arguments take the same when the same words are reserved at their places. -/
theorem TakesFrom.congr {as : List Argument} (h : c.TakesFrom index as tokens vs left)
    (hreserved : ∀ place, index ≤ place → place < index + as.length → ∀ word,
      c.isReservedElsewhere word place = c'.isReservedElsewhere word place) :
    c'.TakesFrom index as tokens vs left := by
  induction h with
  | nil => exact .nil
  | @cons index a as _ _ _ _ _ ha _ ih =>
    rw [List.length_cons] at hreserved
    have hsame : (c.isReservedElsewhere · index) = (c'.isReservedElsewhere · index) :=
      funext fun word => hreserved index (le_refl _) (by omega) word
    rw [hsame] at ha
    exact .cons ha (ih fun place hle hlt => hreserved place (by omega) (by omega))

/-- With a row of keyword arguments in another order, each argument of a command still takes the
value it took, and the same tokens are left. -/
theorem TakesFrom.permute (hargs : c.arguments = pre ++ block ++ post)
    (hargs' : c'.arguments = pre ++ block' ++ post) (hperm : block.Perm block')
    (hblock : ∀ a ∈ block, a.IsChoice) (hkeys : Unambiguous block)
    (h : c.TakesFrom 0 c.arguments tokens vs left) :
    ∃ vs', c'.TakesFrom 0 c'.arguments tokens vs' left ∧
      (c.arguments.zip vs).Perm (c'.arguments.zip vs') := by
  rw [hargs] at h
  obtain ⟨us, passed, ps, rfl, hfront, hpost⟩ := takesFrom_append_iff.1 h
  obtain ⟨qs, passed', ws, rfl, hpre, hrow⟩ := takesFrom_append_iff.1 hfront
  rw [Nat.zero_add] at hrow hpost
  have hsame : ∀ place, (place < pre.length ∨ pre.length + block.length ≤ place) → ∀ word,
      c.isReservedElsewhere word place = c'.isReservedElsewhere word place :=
    fun place => isReservedElsewhere_perm hargs hargs' hperm
  have hpre' : c'.TakesFrom 0 pre tokens qs passed' :=
    hpre.congr fun place _ hlt => hsame place (.inl (by omega))
  obtain ⟨ws', hrow', hzip⟩ := (hrow.of_choices hblock c').perm hperm hblock hkeys
  have hpost' : c'.TakesFrom (pre ++ block').length post passed ps left := by
    rw [List.length_append, ← hperm.length_eq]
    rw [List.length_append] at hpost
    exact hpost.congr fun place hle _ => hsame place (.inr hle)
  refine ⟨qs ++ ws' ++ ps, ?_, ?_⟩
  · rw [hargs', takesFrom_append_iff, Nat.zero_add]
    refine ⟨qs ++ ws', passed, ps, rfl, takesFrom_append_iff.2 ?_, hpost'⟩
    rw [Nat.zero_add]
    exact ⟨qs, passed', ws', rfl, hpre', hrow'⟩
  · rw [hargs, hargs', List.zip_append hfront.length_eq, List.zip_append hpre.length_eq,
      List.zip_append, List.zip_append hpre.length_eq]
    · exact ((hzip.append_left _).append_right _)
    · rw [List.length_append, List.length_append, hpre.length_eq, hrow'.length_eq]

theorem bind_permute (hargs : c.arguments = pre ++ block ++ post)
    (hargs' : c'.arguments = pre ++ block' ++ post) (hperm : block.Perm block')
    (hblock : ∀ a ∈ block, a.IsChoice) (hkeys : Unambiguous block)
    (hnames : (c.arguments.map Argument.name).Nodup) (htrailing : c'.trailing = c.trailing)
    {augments : NameMap Value} (h : c.bind stop tokens = .ok augments) :
    c'.bind stop tokens = .ok augments := by
  obtain ⟨vs, left, htakes, hleft, rfl⟩ := bind_eq_ok_iff.1 h
  obtain ⟨vs', htakes', hzip⟩ := htakes.permute hargs hargs' hperm hblock hkeys
  refine bind_eq_ok_iff.2 ⟨vs', left, htakes', ?_, NameMap.ofList_perm ?_ ?_⟩
  · rwa [htrailing]
  · rw [List.zip_map_left, List.zip_map_left]
    exact hzip.map _
  · rwa [List.map_fst_zip (by rw [List.length_map, htakes.length_eq])]

end Places

end Command

namespace Registry

/-- The order of keywords makes no difference, neither in the message nor in the command. Take any
command that registration accepts, and any row of keyword arguments in it. On tokens that are
rearranged for the row, either the same argument finds two of its keywords, or all have the same
values and the same words are left. And if the arguments have names of their own, the command binds
the same with the row in any other order. -/
theorem register_keywordOrder {r r' : Registry} {c : Command} (hreg : r.register c = .ok r')
    {pre block post : List Argument} (hargs : c.arguments = pre ++ block ++ post)
    (hblock : ∀ a ∈ block, a.IsChoice) :
    (∀ (stop stop' : Nat) (tokens tokens' : List Token), Argument.Rearranged block tokens tokens' →
      (∃ a ∈ block, ∃ e e', a.Clash tokens e ∧ a.Clash tokens' e' ∧
        c.bindFrom stop pre.length block tokens = .error e ∧
        c.bindFrom stop' pre.length block tokens' = .error e') ∨
      ∃ vs left left', c.bindFrom stop pre.length block tokens = .ok (vs, left) ∧
        c.bindFrom stop' pre.length block tokens' = .ok (vs, left') ∧
        left.map Token.text = left'.map Token.text) ∧
    ((c.arguments.map Argument.name).Nodup → ∀ block' : List Argument, block'.Perm block →
      ∀ (stop : Nat) (tokens : List Token) (augments : NameMap Value),
        c.bind stop tokens = .ok augments ↔
          { c with arguments := pre ++ block' ++ post }.bind stop tokens = .ok augments) := by
  have hkeys : Argument.Unambiguous block := by
    have hall := Command.unambiguous_of_ambiguousKeyword? (register_eq_ok_iff.1 hreg).2.1
    rw [hargs, Argument.Unambiguous, List.pairwise_append, List.pairwise_append] at hall
    exact hall.1.2.1
  refine ⟨fun stop stop' tokens tokens' h => ?_, fun hnames block' hperm stop tokens augments => ?_⟩
  · exact Command.bindFrom_rearranged c stop stop' pre.length hblock hkeys h
  · have hargs' : ({ c with arguments := pre ++ block' ++ post } : Command).arguments =
        pre ++ block' ++ post := rfl
    constructor
    · exact Command.bind_permute hargs hargs' hperm.symm hblock hkeys hnames rfl
    · have hblock' : ∀ a ∈ block', a.IsChoice := fun a ha => hblock a (hperm.mem_iff.1 ha)
      have hkeys' : Argument.Unambiguous block' :=
        hperm.symm.pairwise hkeys fun hab word hb ha => hab word ha hb
      have hnames' : ((pre ++ block' ++ post).map Argument.name).Nodup := by
        rw [hargs] at hnames
        exact (((hperm.symm.append_left pre).append_right post).map _).nodup hnames
      exact Command.bind_permute hargs' hargs hperm hblock' hkeys' hnames' rfl

/-- The two filters of a report, in either order, and what a branch in between has to do with it. -/
theorem register_keywordOrder_track :
    (∃ r', empty.register Builtin.track = .ok r') ∧
    (∃ vs left left',
      Builtin.track.bindFrom 5 2 [.choice "author_filter" AuthorFilter,
        .choice "result_filter" ResultFilter] [⟨"mine", 2⟩, ⟨"develop", 3⟩, ⟨"failure", 4⟩] =
          .ok (vs, left) ∧
      Builtin.track.bindFrom 5 2 [.choice "author_filter" AuthorFilter,
        .choice "result_filter" ResultFilter] [⟨"failure", 2⟩, ⟨"mine", 3⟩, ⟨"develop", 4⟩] =
          .ok (vs, left') ∧ left.map Token.text = left'.map Token.text) ∧
    ∀ (stop : Nat) (tokens : List Token) (augments : NameMap Value),
      Builtin.track.bind stop tokens = .ok augments ↔
        { Builtin.track with
          arguments :=
            [⟨"repo", .positional⟩, ⟨"channels", .list (.marked "#")⟩,
              .choice "result_filter" ResultFilter, .choice "author_filter" AuthorFilter,
              ⟨"branches", .list .bareword⟩] }.bind stop tokens = .ok augments := by
  have hreg : ∃ r', empty.register Builtin.track = .ok r' :=
    ⟨_, register_eq_ok_iff.2 ⟨by decide +kernel, by decide +kernel, rfl⟩⟩
  obtain ⟨r', hr'⟩ := hreg
  have hargs : Builtin.track.arguments =
      ([⟨"repo", .positional⟩, ⟨"channels", .list (.marked "#")⟩] : List Argument) ++
        [.choice "author_filter" AuthorFilter, .choice "result_filter" ResultFilter] ++
        [⟨"branches", .list .bareword⟩] := rfl
  obtain ⟨hstreams, hblocks⟩ := register_keywordOrder hr' hargs (by decide)
  have hswapped := hblocks (by decide +kernel)
    [.choice "result_filter" ResultFilter, .choice "author_filter" AuthorFilter] (.swap _ _ _)
  refine ⟨⟨r', hr'⟩, ?_, hswapped⟩
  have hsame : Argument.Rearranged
      [.choice "author_filter" AuthorFilter, .choice "result_filter" ResultFilter]
      [⟨"mine", 2⟩, ⟨"develop", 3⟩, ⟨"failure", 4⟩] [⟨"failure", 2⟩, ⟨"mine", 3⟩, ⟨"develop", 4⟩] :=
    ⟨by decide +kernel, by decide +kernel⟩
  rcases hstreams 5 5 _ _ hsame with ⟨a, -, e, -, -, -, herror, -⟩ | h
  · have hok : (Builtin.track.bindFrom 5 2 [.choice "author_filter" AuthorFilter,
        .choice "result_filter" ResultFilter]
        [⟨"mine", 2⟩, ⟨"develop", 3⟩, ⟨"failure", 4⟩]).isOk = true := by
      decide +kernel
    rw [show List.length _ = 2 from rfl] at herror
    rw [herror] at hok
    cases hok
  · exact h

end Registry

end ChatOps
