/-
The grammar of addresses. A message is read as blanks, the name of the bot in one of the forms of
address, and a rest that is nothing or begins with a blank. It is read so in one way at most, for the
blanks end where the address begins, the address ends at the next blank, and the signs of an address
beyond those of the name tell which form it has. This holds also where the name itself is made of
such signs: two forms of the name `@@` begin alike, yet no message has both.

So neither the order in which the forms are tried matters nor that a form is compared with as many
octets of the message as it has itself.
-/
import ChatOps.Proofs.Chat.Address
import ChatOps.Proofs.Text.Octets

namespace ChatOps

open Text

/-! ## Forms of address -/

/-- How an address is written: in brackets, behind an at sign, or as the name alone. The first two
may have a colon behind them, the last one has. -/
inductive AddressForm
  | bracketed (colon : Bool)
  | marked (colon : Bool)
  | named
deriving DecidableEq

namespace AddressForm

/-- The colon behind an address that has one. -/
def colonText (colon : Bool) : String := if colon then ":" else ""

/-- The address, with the name spelled this way. -/
def write (spelling : String) : AddressForm → String
  | bracketed colon => "<@" ++ spelling ++ ">" ++ colonText colon
  | marked colon => "@" ++ spelling ++ colonText colon
  | named => spelling ++ ":"

theorem toList_colonText (colon : Bool) :
    (colonText colon).toList = if colon then [':'] else [] := by
  cases colon <;> rfl

theorem exists_eq_colonText_iff {cs : List Char} :
    (∃ colon, cs = (colonText colon).toList) ↔ cs = [] ∨ cs = [':'] := by
  simp [toList_colonText]

/-- What is written is an address. -/
theorem isAddress_write {name spelling : String} (h : sameIgnoringCase spelling name = true)
    (form : AddressForm) : IsAddress name.toList (form.write spelling).toList := by
  rw [sameIgnoringCase_iff] at h
  cases form with
  | bracketed colon =>
    have hform := IsAddress.bracketed h (exists_eq_colonText_iff.1 ⟨colon, rfl⟩)
    simpa [write] using hform
  | marked colon =>
    have hform := IsAddress.marked h (exists_eq_colonText_iff.1 ⟨colon, rfl⟩)
    simpa [write] using hform
  | named =>
    have hform := IsAddress.named h
    simpa [write] using hform

/-- Every address is written in one of the forms. -/
theorem exists_write_of_isAddress {name : String} {address : List Char}
    (h : IsAddress name.toList address) :
    ∃ (form : AddressForm) (spelling : String),
      sameIgnoringCase spelling name = true ∧ String.ofList address = form.write spelling := by
  cases h with
  | @bracketed n _ hn hc =>
    obtain ⟨colon, rfl⟩ := exists_eq_colonText_iff.2 hc
    refine ⟨bracketed colon, String.ofList n, by rwa [sameIgnoringCase_iff, String.toList_ofList], ?_⟩
    rw [← String.toList_inj]
    simp [write]
  | @marked n _ hn hc =>
    obtain ⟨colon, rfl⟩ := exists_eq_colonText_iff.2 hc
    refine ⟨marked colon, String.ofList n, by rwa [sameIgnoringCase_iff, String.toList_ofList], ?_⟩
    rw [← String.toList_inj]
    simp [write]
  | @named n hn =>
    refine ⟨named, String.ofList n, by rwa [sameIgnoringCase_iff, String.toList_ofList], ?_⟩
    rw [← String.toList_inj]
    simp [write]

/-! ## Telling the forms apart -/

/-- The signs that an address adds to the name. -/
def signs : AddressForm → List Char
  | bracketed colon => ['<', '@', '>'] ++ if colon then [':'] else []
  | marked colon => ['@'] ++ if colon then [':'] else []
  | named => [':']

theorem count_write (d : Char) (spelling : String) (form : AddressForm) :
    (form.write spelling).toList.count d = form.signs.count d + spelling.toList.count d := by
  have hopen : ("<@" : String).toList = ['<', '@'] := rfl
  have hclose : (">" : String).toList = ['>'] := rfl
  have hat : ("@" : String).toList = ['@'] := rfl
  cases form with
  | bracketed colon =>
    simp only [write, signs, String.toList_append, toList_colonText, hopen, hclose,
      List.count_append, List.count_cons, List.count_nil]
    omega
  | marked colon =>
    simp only [write, signs, String.toList_append, toList_colonText, hat, List.count_append]
    omega
  | named =>
    simp only [write, signs, String.toList_append, List.count_append]
    exact Nat.add_comm ..

/-- The signs that are no letters tell the form. -/
theorem eq_of_count_signs {form form' : AddressForm}
    (h : ∀ d : Char, d.isAlpha = false → form.signs.count d = form'.signs.count d) :
    form = form' := by
  have hopen := h '<' (by decide)
  have hat := h '@' (by decide)
  have hcolon := h ':' (by decide)
  rcases form with ⟨_ | _⟩ | ⟨_ | _⟩ | _ <;> rcases form' with ⟨_ | _⟩ | ⟨_ | _⟩ | _
  all_goals first
    | rfl
    | exact absurd hopen (by decide)
    | exact absurd hat (by decide)
    | exact absurd hcolon (by decide)

end AddressForm

/-- A sign that is no letter stands as often in one text as in another of the same letters. -/
theorem count_eq_of_foldCase {d : Char} (hd : d.isAlpha = false) {cs ds : List Char}
    (h : foldCase cs = foldCase ds) : cs.count d = ds.count d := by
  have hfold : ∀ es : List Char, (foldCase es).count d = es.count d := by
    intro es
    rw [foldCase, List.count_eq_countP, List.countP_map, List.count_eq_countP]
    refine List.countP_congr fun c _ => ?_
    simpa using toLower_eq_iff hd
  rw [← hfold cs, h, hfold]

/-- An address tells its form and how the name is spelled in it. -/
theorem AddressForm.write_inj {form form' : AddressForm} {spelling spelling' : String}
    (hsame : sameIgnoringCase spelling spelling' = true)
    (h : form.write spelling = form'.write spelling') : form = form' ∧ spelling = spelling' := by
  have hform : form = form' := by
    refine eq_of_count_signs fun d hd => ?_
    have hspelling := count_eq_of_foldCase hd (sameIgnoringCase_iff.1 hsame)
    have hcount : (form.write spelling).toList.count d = (form'.write spelling').toList.count d := by
      rw [h]
    rw [count_write, count_write, hspelling] at hcount
    exact Nat.add_right_cancel hcount
  subst hform
  refine ⟨rfl, ?_⟩
  rw [← String.toList_inj] at h ⊢
  cases form with
  | bracketed => simpa [write] using h
  | marked => simpa [write] using h
  | named => simpa [write] using h

/-! ## Messages read as an address and a rest -/

/-- A reading of a message: blanks, an address of the bot, and a rest behind it. -/
structure Mention (name text : String) where
  lead : String
  form : AddressForm
  spelling : String
  rest : String
  lead_blank : ∀ c ∈ lead.toList, isBlank c = true
  same_name : sameIgnoringCase spelling name = true
  rest_ends : EndsWord rest.toList
  text_eq : text = lead ++ form.write spelling ++ rest

namespace Mention

variable {name text : String}

theorem isAddress (m : Mention name text) :
    IsAddress name.toList (m.form.write m.spelling).toList :=
  m.form.isAddress_write m.same_name

theorem toList_eq (m : Mention name text) :
    text.toList = m.lead.toList ++ (m.form.write m.spelling).toList ++ m.rest.toList := by
  rw [← String.toList_append, ← String.toList_append, ← m.text_eq]

/-- A message behind whose blanks an address stands can be read. -/
theorem nonempty_of_isAddress {address rest : List Char} (ha : IsAddress name.toList address)
    (hends : EndsWord rest) (htrim : trimStart text.toList = address ++ rest) :
    Nonempty (Mention name text) := by
  obtain ⟨form, spelling, hsame, hwrite⟩ := AddressForm.exists_write_of_isAddress ha
  refine ⟨⟨String.ofList (text.toList.takeWhile isBlank), form, spelling, String.ofList rest,
    ?_, hsame, by rwa [String.toList_ofList], ?_⟩⟩
  · intro c hc
    rw [String.toList_ofList] at hc
    exact List.mem_takeWhile_imp hc
  · rw [← hwrite, ← String.ofList_append, ← String.ofList_append, List.append_assoc, ← htrim,
      trimStart, List.takeWhile_append_dropWhile, String.ofList_toList]

section Unique

variable (hname : ∀ c ∈ name.toList, isBlank c = false)

include hname

theorem stripMention_eq (m : Mention name text) : stripMention name text = m.rest := by
  rw [stripMention_of_isAddress hname m.lead_blank m.isAddress m.rest_ends m.toList_eq,
    String.ofList_toList]

/-- There is one way to read a message. -/
theorem eq (m m' : Mention name text) : m = m' := by
  have htrim := (trimStart_of_isAddress hname m.lead_blank m.isAddress m.toList_eq).1
  have htrim' := (trimStart_of_isAddress hname m'.lead_blank m'.isAddress m'.toList_eq).1
  -- the blanks end where the address begins
  have hlead : m.lead = m'.lead := by
    have htext := m.toList_eq.symm.trans m'.toList_eq
    rw [List.append_assoc, ← htrim, List.append_assoc, ← htrim'] at htext
    exact String.toList_inj.1 (List.append_cancel_right htext)
  -- the address ends at the next blank
  have hrest : m.rest = m'.rest := by
    rw [← m.stripMention_eq hname, ← m'.stripMention_eq hname]
  have hwrite : m.form.write m.spelling = m'.form.write m'.spelling := by
    have haddress := htrim.symm.trans htrim'
    rw [hrest] at haddress
    exact String.toList_inj.1 (List.append_cancel_right haddress)
  obtain ⟨hform, hspelling⟩ := AddressForm.write_inj
    (sameIgnoringCase_trans m.same_name (sameIgnoringCase_symm m'.same_name)) hwrite
  cases m
  cases m'
  cases hlead
  cases hform
  cases hspelling
  cases hrest
  rfl

/-- A message that cannot be read as an address and a rest is left as it is. -/
theorem stripMention_eq_self (h : IsEmpty (Mention name text)) : stripMention name text = text := by
  unfold stripMention
  split
  · rename_i rest hafter
    obtain ⟨address, htrim, ha, hends⟩ := (afterAddress?_eq_some_iff hname).1 hafter
    exact h.elim (nonempty_of_isAddress ha hends htrim).some
  · rfl

end Unique

end Mention

/-! ## Forms tried one after another -/

/-- The forms of address as they are tried, each with whether it needs a colon. -/
def addressHeads (name : String) : List (String × Bool) :=
  [("<@" ++ name ++ ">", false), ("@" ++ name, false), (name, true)]

/-- What follows a head, taken off by its octets, and its colon, if the address ends there. -/
def afterOctets? (head : String) (needsColon : Bool) (text : String) : Option String := do
  let rest ← dropOctets? head text
  let rest ←
    match rest.toList with
    | ':' :: r => some r
    | _ => if needsColon then none else some rest.toList
  if rest.head?.all isBlank then some (String.ofList rest) else none

/-- A message without the first of these heads that stands behind its blanks. -/
def stripHeads (heads : List (String × Bool)) (text : String) : String :=
  let trimmed := String.ofList (trimStart text.toList)
  (heads.findSome? fun head => afterOctets? head.1 head.2 trimmed).getD text

theorem afterOctets?_eq (head : String) (needsColon : Bool) (text : String) :
    afterOctets? head needsColon text =
      (afterHead? head.toList needsColon text.toList).map String.ofList := by
  unfold afterOctets? afterHead?
  rw [dropOctets?_eq]
  cases dropHead? head.toList text.toList with
  | none => rfl
  | some rest =>
    rw [Option.map_some, Option.bind_eq_bind, Option.bind_some, String.toList_ofList]
    dsimp only [Option.bind_eq_bind, Option.bind_some, Option.bind_none]
    split
    · simp only [apply_ite (Option.map String.ofList), Option.map_some, Option.map_none]
    · cases needsColon <;> simp [apply_ite (Option.map String.ofList)]

/-- Where all hits of a search are the same, it finds what any candidate hits. -/
theorem findSome?_eq_some_iff_exists {α β : Type} {f : α → Option β} {as : List α} {b : β}
    (h : ∀ a ∈ as, ∀ a' ∈ as, ∀ b b', f a = some b → f a' = some b' → b = b') :
    as.findSome? f = some b ↔ ∃ a ∈ as, f a = some b := by
  constructor
  · exact List.exists_of_findSome?_eq_some
  · rintro ⟨a, ha, hb⟩
    have hsome : (as.findSome? f).isSome := List.findSome?_isSome_iff.2 ⟨a, ha, by rw [hb]; rfl⟩
    obtain ⟨b', hb'⟩ := Option.isSome_iff_exists.1 hsome
    obtain ⟨a', ha', hf⟩ := List.exists_of_findSome?_eq_some hb'
    rw [hb', h a' ha' a ha b' b hf hb]

/-- One of the heads stands in front exactly when an address does. -/
theorem exists_addressHeads_iff {name text rest : String} :
    (∃ head ∈ addressHeads name, afterOctets? head.1 head.2 text = some rest) ↔
      ∃ address, text.toList = address ++ rest.toList ∧ IsAddress name.toList address ∧
        EndsWord rest.toList := by
  have hafter : ∀ head needsColon, afterOctets? head needsColon text = some rest ↔
      afterHead? head.toList needsColon text.toList = some rest.toList := by
    intro head needsColon
    rw [afterOctets?_eq, Option.map_eq_some_iff]
    constructor
    · rintro ⟨cs, hcs, rfl⟩
      rw [hcs, String.toList_ofList]
    · intro h
      exact ⟨_, h, String.ofList_toList⟩
  rw [← exists_afterHead?_iff]
  simp [addressHeads, hafter]

/-- Whatever the order of the heads, what is taken off is the address. -/
theorem stripHeads_eq {name text : String} (hname : ∀ c ∈ name.toList, isBlank c = false)
    {heads : List (String × Bool)} (hperm : heads.Perm (addressHeads name)) :
    stripHeads heads text = stripMention name text := by
  have hexists : ∀ rest trimmed : String,
      (∃ head ∈ heads, afterOctets? head.1 head.2 trimmed = some rest) ↔
        afterAddress? name.toList trimmed.toList = some rest.toList := by
    intro rest trimmed
    rw [afterAddress?_eq_some_iff hname, ← exists_addressHeads_iff]
    simp only [hperm.mem_iff]
  have hfind : ∀ trimmed rest : String,
      (heads.findSome? fun head => afterOctets? head.1 head.2 trimmed) = some rest ↔
        afterAddress? name.toList trimmed.toList = some rest.toList := by
    intro trimmed rest
    rw [findSome?_eq_some_iff_exists, hexists]
    intro head hhead head' hhead' rest rest' hrest hrest'
    have h := (hexists rest trimmed).1 ⟨head, hhead, hrest⟩
    have h' := (hexists rest' trimmed).1 ⟨head', hhead', hrest'⟩
    rw [h, Option.some.injEq] at h'
    exact String.toList_inj.1 h'
  unfold stripHeads stripMention
  dsimp only
  generalize htrim : String.ofList (trimStart text.toList) = trimmed
  have hcs : trimStart text.toList = trimmed.toList := by rw [← htrim, String.toList_ofList]
  rw [hcs]
  split
  · rename_i rest hrest
    have hrest' := (hfind trimmed (String.ofList rest)).2 (by rw [hrest, String.toList_ofList])
    rw [hrest', Option.getD_some]
  · rename_i hnone
    cases hsome : heads.findSome? fun head => afterOctets? head.1 head.2 trimmed with
    | none => rfl
    | some rest =>
      have hrest := (hfind trimmed rest).1 hsome
      rw [hnone] at hrest
      cases hrest

/-- Addresses are recognised exactly as they are written. A message that can be read as blanks, an
address and a rest is reduced to that rest, and can be read so in one way only; any other message
stays as it is, with its blanks. The heads may be tried in any order, and be compared by octets. -/
theorem stripMention_grammar {name : String} (hname : ∀ c ∈ name.toList, isBlank c = false)
    (text : String) :
    (∀ m : Mention name text, stripMention name text = m.rest) ∧
      (∀ m m' : Mention name text, m = m') ∧
      (IsEmpty (Mention name text) → stripMention name text = text) ∧
      ∀ heads : List (String × Bool), heads.Perm (addressHeads name) →
        stripHeads heads text = stripMention name text :=
  ⟨Mention.stripMention_eq hname, Mention.eq hname, Mention.stripMention_eq_self hname,
    fun _ => stripHeads_eq hname⟩

/-- A bot whose name ends in a colon of its own, addressed by that name behind a wide blank. -/
theorem stripMention_grammar_colon :
    (∀ c ∈ "é:".toList, isBlank c = false) ∧ stripMention "é:" "\u3000é:: où" = " où" ∧
      stripHeads (addressHeads "é:").reverse "\u3000é:: où" = " où" := by
  have hname : ∀ c ∈ "é:".toList, isBlank c = false := by
    simpa using List.any_eq_false.1 (rfl : "é:".toList.any isBlank = false)
  obtain ⟨hrest, -, -, hheads⟩ := stripMention_grammar hname "\u3000é:: où"
  have hstrip := hrest ⟨"\u3000", .named, "é:", " où", List.all_eq_true.1 rfl,
    sameIgnoringCase_refl _, endsWord_iff.1 (by decide +kernel), by decide +kernel⟩
  exact ⟨hname, hstrip, (hheads _ (List.reverse_perm _)).trans hstrip⟩

end ChatOps
