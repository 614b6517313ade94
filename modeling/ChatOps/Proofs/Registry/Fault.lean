/-
What a parse error says of the message is true, and all that is wrong with the message up to there.
Places stay those of the whole message, though the words before them are taken away on the way: the
name, the subcommand, and what the arguments before the one at fault own.
-/
import ChatOps.Proofs.Message.Fault
import ChatOps.Proofs.Registry.Parse

namespace ChatOps

open Text

namespace Command

/-- The number of words that stand before the arguments: the name, and the subcommand if the command
asks for one. -/
def headLength (c : Command) : Nat := if c.subcommands = [] then 1 else 2

/-- The places that are free for the arguments. -/
def argumentPlaces (c : Command) (tokens : List Token) : Places tokens :=
  Finset.univ.filter fun p => c.headLength ≤ p

/-- The arguments before place `index` own some places in turn, and of the places that they leave
free the argument there can own none. -/
structure Stuck (c : Command) {tokens : List Token} (index : Nat) (a : Argument)
    (free : Places tokens) : Prop where
  argument : c.arguments[index]? = some a
  before : ∃ owned, c.OwnsFrom 0 (c.arguments.take index) (c.argumentPlaces tokens) owned free
  cannot : ∀ own, ¬ a.Owns c index free own

end Command

namespace Registry

/-- The first word names this command. -/
def Names (r : Registry) (tokens : List Token) (c : Command) : Prop :=
  ∃ t, tokens[0]? = some t ∧ r.find? t.text = some c

/-- The first word names this command, and the second is a subcommand of it if it asks for one. -/
def Selects (r : Registry) (tokens : List Token) (c : Command) : Prop :=
  r.Names tokens c ∧
    (c.subcommands ≠ [] → ∃ t word, tokens[1]? = some t ∧ c.findSubcommand? t.text = some word)

end Registry

namespace ParseError

/-- What an error says of the message with these tokens. -/
def IsTrueOf (r : Registry) (tokens : List Token) : ParseError → Prop
  | .emptyMessage => tokens.length = 0
  | .unknownCommand t => tokens[0]? = some t ∧ t.position = 0 ∧ r.find? t.text = none
  | .unknownSubcommand command found expected =>
    ∃ c, r.Names tokens c ∧ command = c.name ∧ expected = c.subcommands ∧ expected ≠ [] ∧
      found = tokens[1]? ∧ (found = none ↔ tokens.length = 1) ∧
      ∀ t ∈ found, t.position = 1 ∧ c.findSubcommand? t.text = none
  | .missingArgument command argument position =>
    ∃ (c : Command) (index : Nat) (a : Argument) (free : Places tokens),
      r.Selects tokens c ∧ c.Stuck index a free ∧ command = c.name ∧ argument = a.name ∧
      1 ≤ position ∧ position ≤ tokens.length ∧ (position = tokens.length ↔ free = ∅) ∧
      (free ≠ ∅ → ∃ p validator, IsLeast (free : Set (Fin tokens.length)) p ∧ position = p ∧
        a.kind = .validated validator none ∧ validator.validate? (tokens.get p).text = none)
  | .invalidQuery t source =>
    ∃ (c : Command) (index : Nat) (a : Argument) (free : Places tokens) (p : Fin tokens.length),
      r.Selects tokens c ∧ c.Stuck index a free ∧ a.kind = .query ∧
      IsLeast (free : Set (Fin tokens.length)) p ∧ t = tokens.get p ∧ t.position = p ∧
      1 ≤ t.position ∧ Query.parse t.text = .error source
  | .duplicateKeyword argument first duplicate =>
    ∃ (c : Command) (index : Nat) (a : Argument) (g : KeywordGroup) (free : Places tokens)
      (p q : Fin tokens.length),
      r.Selects tokens c ∧ c.Stuck index a free ∧ argument = a.name ∧ a.kind = .keywords g ∧
      IsLeast (literalPlaces g free : Set (Fin tokens.length)) p ∧
      IsLeast (↑(literalPlaces g free \ {p}) : Set (Fin tokens.length)) q ∧ p < q ∧
      first = tokens.get p ∧ first.position = p ∧ duplicate = tokens.get q ∧ duplicate.position = q
  | .unexpectedArgument t =>
    ∃ (c : Command) (owned : List (Places tokens)) (free : Places tokens) (p : Fin tokens.length),
      r.Selects tokens c ∧ c.OwnsFrom 0 c.arguments (c.argumentPlaces tokens) owned free ∧
      c.trailing = .reject ∧ IsLeast (free : Set (Fin tokens.length)) p ∧ t = tokens.get p ∧
      t.position = p

variable {r : Registry} {tokens : List Token} {e : ParseError}

/-- The word that a true error points at stands in the message, at the place the word gives. -/
theorem IsTrueOf.getElem?_position (h : e.IsTrueOf r tokens) {t : Token} (ht : e.token? = some t) :
    tokens[t.position]? = some t := by
  have hget : ∀ p : Fin tokens.length, (tokens.get p).position = p →
      tokens[(tokens.get p).position]? = some (tokens.get p) := by
    intro p hp
    rw [hp]
    exact List.getElem?_eq_getElem p.isLt
  cases e with
  | emptyMessage => cases ht
  | missingArgument command argument position => cases ht
  | unknownCommand t =>
    cases ht
    obtain ⟨hhead, hposition, -⟩ := h
    rw [hposition, hhead]
  | unknownSubcommand command found expected =>
    cases ht
    obtain ⟨c, -, -, -, -, hfound, -, htrue⟩ := h
    rw [(htrue t rfl).1, ← hfound]
  | invalidQuery t source =>
    cases ht
    obtain ⟨c, i, a, free, p, -, -, -, -, rfl, hposition, -⟩ := h
    exact hget p hposition
  | duplicateKeyword argument first duplicate =>
    cases ht
    obtain ⟨c, i, a, g, free, p, q, -, -, -, -, -, -, -, -, -, rfl, hposition⟩ := h
    exact hget q hposition
  | unexpectedArgument t =>
    cases ht
    obtain ⟨c, owned, free, p, -, -, -, -, rfl, hposition⟩ := h
    exact hget p hposition

/-- The place that a true error gives is in the message, or just behind it where a word is
missing. -/
theorem IsTrueOf.position_le (h : e.IsTrueOf r tokens) {place : Nat}
    (hplace : e.position? = some place) : place ≤ tokens.length := by
  cases e with
  | missingArgument command argument position =>
    cases hplace
    obtain ⟨c, i, a, free, -, -, -, -, -, hle, -⟩ := h
    exact hle
  -- every other place is that of a word
  | _ =>
    simp only [position?, Option.map_eq_some_iff] at hplace
    obtain ⟨t, ht, rfl⟩ := hplace
    exact (List.getElem?_eq_some_iff.1 (h.getElem?_position ht)).1.le

end ParseError

/-! ## The words before the arguments -/

namespace Command

variable {c : Command} {tokens : List Token}

/-- The tokens from a place on. -/
theorem tokensAt_from (tokens : List Token) (k : Nat) :
    tokensAt (Finset.univ.filter fun p : Fin tokens.length => k ≤ p) = tokens.drop k := by
  have hdrop : (List.finRange tokens.length).drop k =
      inOrder (Finset.univ.filter fun p : Fin tokens.length => k ≤ p) := by
    refine eq_inOrder ((List.pairwise_lt_finRange _).sublist (List.drop_sublist _ _)) fun p => ?_
    rw [Finset.mem_filter, List.mem_drop_iff_getElem]
    simp only [List.getElem_finRange, List.length_finRange, Finset.mem_univ, true_and]
    constructor
    · rintro ⟨i, h, rfl⟩
      simp
    · intro h
      refine ⟨p - k, by omega, ?_⟩
      apply Fin.ext
      simp only [Fin.val_cast]
      omega
  rw [tokensAt, ← hdrop, List.map_drop, List.map_get_finRange]

theorem tokensAt_argumentPlaces :
    tokensAt (c.argumentPlaces tokens) = tokens.drop c.headLength :=
  tokensAt_from tokens c.headLength

/-- Places that arguments leave free are places of arguments, and so not the first. -/
theorem OwnsFrom.one_le {index : Nat} {as : List Argument} {owned : List (Places tokens)}
    {free : Places tokens} (h : c.OwnsFrom index as (c.argumentPlaces tokens) owned free)
    {p : Fin tokens.length} (hp : p ∈ free) : 1 ≤ (p : Nat) := by
  obtain ⟨-, -, rfl⟩ := ownsFrom_iff.1 h
  have hfree := (Finset.mem_inter.1 hp).1
  rw [argumentPlaces, Finset.mem_filter, headLength] at hfree
  split at hfree <;> omega

/-- What is left for the arguments when the subcommand is taken. -/
theorem left_of_takeSubcommand {rest left : List Token} {subcommand : Option String}
    (h : c.takeSubcommand rest = .ok (subcommand, left)) (head : Token) :
    left = (head :: rest).drop c.headLength := by
  rcases takeSubcommand_eq_ok_iff.1 h with ⟨hc, -, rfl⟩ | ⟨t, found, rfl, hfound, -⟩
  · rw [headLength, if_pos hc]
    rfl
  · have hc : c.subcommands ≠ [] := List.ne_nil_of_mem (findSubcommand?_of_eq_some hfound).1
    rw [headLength, if_neg hc]
    rfl

theorem takeSubcommand_eq_error_iff {e : ParseError} :
    c.takeSubcommand tokens = .error e ↔
      c.subcommands ≠ [] ∧ (∀ t ∈ tokens.head?, c.findSubcommand? t.text = none) ∧
        e = .unknownSubcommand c.name tokens.head? c.subcommands := by
  unfold takeSubcommand
  by_cases hc : c.subcommands = []
  · rw [if_pos hc]
    constructor
    · rintro ⟨⟩
    · rintro ⟨hne, -⟩
      exact absurd hc hne
  · rw [if_neg hc]
    have hnone : (tokens.head?.bind fun t => c.findSubcommand? t.text) = none ↔
        ∀ t ∈ tokens.head?, c.findSubcommand? t.text = none := Option.bind_eq_none_iff
    cases hf : tokens.head?.bind fun t => c.findSubcommand? t.text with
    | none =>
      rw [Except.error.injEq, eq_comm (b := e)]
      exact ⟨fun h => ⟨hc, hnone.1 hf, h⟩, fun h => h.2.2⟩
    | some word =>
      constructor
      · rintro ⟨⟩
      · rintro ⟨-, h, -⟩
        rw [hnone.2 h] at hf
        cases hf

end Command

/-! ## Messages -/

namespace Registry

variable {r : Registry} {tokens : List Token} {c : Command} {e : ParseError}

theorem selects_cons_iff {head : Token} {rest : List Token} :
    r.Selects (head :: rest) c ↔
      r.find? head.text = some c ∧
        ∃ subcommand left, c.takeSubcommand rest = .ok (subcommand, left) := by
  have hnames : r.Names (head :: rest) c ↔ r.find? head.text = some c := by simp [Names]
  rw [Selects, hnames]
  refine and_congr_right fun _ => ?_
  simp only [Command.takeSubcommand_eq_ok_iff]
  by_cases hc : c.subcommands = []
  · exact ⟨fun _ => ⟨none, rest, .inl ⟨hc, rfl, rfl⟩⟩, fun _ h => absurd hc h⟩
  · cases rest with
    | nil => simp [hc]
    | cons t rest => simp [hc, eq_comm]

/-- A message fails at its first word, at its second, or at its arguments. -/
theorem parseTokens_eq_error_iff :
    r.parseTokens tokens = .error e ↔
      (tokens = [] ∧ e = .emptyMessage) ∨
      (∃ t, tokens[0]? = some t ∧ r.find? t.text = none ∧ e = .unknownCommand t) ∨
      (∃ c, r.Names tokens c ∧ c.subcommands ≠ [] ∧
        (∀ t ∈ tokens[1]?, c.findSubcommand? t.text = none) ∧
        e = .unknownSubcommand c.name tokens[1]? c.subcommands) ∨
      ∃ c, r.Selects tokens c ∧
        c.bind tokens.length (tokensAt (c.argumentPlaces tokens)) = .error e := by
  unfold parseTokens
  cases tokens with
  | nil => simp [Names, Selects, eq_comm]
  | cons head rest =>
    have hsecond : (head :: rest)[1]? = rest.head? := List.head?_eq_getElem?.symm
    simp only [selects_cons_iff, Names, Command.tokensAt_argumentPlaces, hsecond]
    cases hf : r.find? head.text with
    | none => simp [hf, eq_comm]
    | some c =>
      simp only [Except.bind_eq_error_iff, Command.takeSubcommand_eq_error_iff, Prod.exists]
      constructor
      · rintro (⟨hc, hno, rfl⟩ | ⟨subcommand, left, htake, hbind | ⟨_, _, ⟨⟩⟩⟩)
        · exact .inr (.inr (.inl ⟨c, ⟨head, rfl, hf⟩, hc, hno, rfl⟩))
        · obtain rfl := c.left_of_takeSubcommand htake head
          exact .inr (.inr (.inr ⟨c, ⟨rfl, subcommand, _, htake⟩, hbind⟩))
      · rintro (⟨⟨⟩, -⟩ | ⟨t, ⟨⟩, hno, -⟩ | ⟨d, ⟨t, ⟨⟩, hd⟩, hc, hno, rfl⟩ |
          ⟨d, ⟨⟨⟩, subcommand, left, htake⟩, hbind⟩)
        · rw [hf] at hno
          cases hno
        · rw [hf] at hd
          cases hd
          exact .inl ⟨hc, hno, rfl⟩
        · obtain rfl := c.left_of_takeSubcommand htake head
          exact .inr ⟨subcommand, _, htake, .inl hbind⟩

theorem Selects.length_pos (h : r.Selects tokens c) : 1 ≤ tokens.length := by
  obtain ⟨⟨t, ht, -⟩, -⟩ := h
  exact List.length_pos_of_mem (List.mem_of_getElem? ht)

variable {index : Nat} {a : Argument} {free : Places tokens}

/-- What the first argument at fault says is true. -/
theorem isTrueOf_of_faultAt (hpositions : ∀ p, (tokens.get p).position = p)
    (hselects : r.Selects tokens c) (hstuck : c.Stuck index a free) (hfault : a.FaultAt c free e) :
    e.IsTrueOf r tokens := by
  obtain ⟨owned, howned⟩ := hstuck.before
  have hmissing : free = ∅ → e = .missingArgument c.name a.name tokens.length →
      e.IsTrueOf r tokens := by
    rintro hfree rfl
    exact ⟨c, index, a, free, hselects, hstuck, rfl, rfl, hselects.length_pos, le_refl _,
      iff_of_true rfl hfree, fun h => absurd hfree h⟩
  obtain ⟨name, kind⟩ := a
  cases kind with
  | positional =>
    obtain ⟨hfree, he⟩ := hfault
    exact hmissing hfree he
  | query =>
    rcases hfault with ⟨hfree, he⟩ | ⟨p, source, hp, hq, rfl⟩
    · exact hmissing hfree he
    · exact ⟨c, index, _, free, p, hselects, hstuck, rfl, hp, rfl, hpositions p,
        by rw [hpositions]; exact howned.one_le hp.1, hq⟩
  | validated validator default =>
    cases default with
    | none =>
      rcases hfault with ⟨hfree, he⟩ | ⟨p, hp, hv, rfl⟩
      · exact hmissing hfree he
      · rw [hpositions]
        refine ⟨c, index, _, free, hselects, hstuck, rfl, rfl, howned.one_le hp.1, p.isLt.le, ?_,
          fun _ => ⟨p, validator, hp, rfl, rfl, hv⟩⟩
        exact iff_of_false p.isLt.ne (Finset.ne_empty_of_mem hp.1)
    | some v => cases hfault
  | keywords g =>
    obtain ⟨p, q, hp, hq, rfl⟩ := hfault
    have hmem := Finset.mem_sdiff.1 hq.1
    have hlt : p < q := lt_of_le_of_ne (hp.2 hmem.1) fun h => hmem.2 (Finset.mem_singleton.2 h.symm)
    exact ⟨c, index, _, g, free, p, q, hselects, hstuck, rfl, rfl, hp, hq, hlt, rfl, hpositions p,
      rfl, hpositions q⟩
  | list form => cases hfault

/-- When no place is free, an argument that cannot own any of them misses a word. -/
theorem faultAt_of_stuck (hstuck : c.Stuck index a (∅ : Places tokens)) :
    a.FaultAt c (∅ : Places tokens) (.missingArgument c.name a.name tokens.length) := by
  have hcannot := hstuck.cannot
  obtain ⟨name, kind⟩ := a
  cases kind with
  | positional => exact ⟨rfl, rfl⟩
  | query => exact .inl ⟨rfl, rfl⟩
  | validated validator default =>
    cases default with
    | none => exact .inl ⟨rfl, rfl⟩
    | some v => exact hcannot ∅ (.inr ⟨fun p hp => absurd hp not_isLeast_empty, rfl, rfl⟩)
  | keywords g => exact absurd ⟨by simp, by simp⟩ (hcannot ∅)
  | list form =>
    exact absurd (Argument.isGreatest_frontRun c index form ∅) (hcannot _)

/-- An argument that is stuck and at fault makes the message fail with this fault. -/
theorem parseTokens_of_faultAt (hselects : r.Selects tokens c) (hstuck : c.Stuck index a free)
    (hfault : a.FaultAt c free e) : r.parseTokens tokens = .error e := by
  obtain ⟨owned, howned⟩ := hstuck.before
  exact parseTokens_eq_error_iff.2 (.inr (.inr (.inr ⟨c, hselects,
    Command.bind_tokensAt_eq_error_iff.2 (.inl ⟨index, a, owned, free, hstuck.argument, howned,
      hfault⟩)⟩)))

theorem isTrueOf_of_parseTokens (hpositions : ∀ p, (tokens.get p).position = p)
    (h : r.parseTokens tokens = .error e) : e.IsTrueOf r tokens := by
  have hposition : ∀ {k : Nat} {t : Token}, tokens[k]? = some t → t.position = k := by
    intro k t ht
    obtain ⟨hk, rfl⟩ := List.getElem?_eq_some_iff.1 ht
    exact hpositions ⟨k, hk⟩
  rcases parseTokens_eq_error_iff.1 h with ⟨rfl, rfl⟩ | ⟨t, ht, hno, rfl⟩ |
    ⟨c, hnames, hc, hno, rfl⟩ | ⟨c, hselects, hbind⟩
  · rfl
  · exact ⟨ht, hposition ht, hno⟩
  · obtain ⟨t, ht, -⟩ := id hnames
    have hpos := List.length_pos_of_mem (List.mem_of_getElem? ht)
    refine ⟨c, hnames, rfl, rfl, hc, rfl, ?_, fun t ht => ⟨hposition ht, hno t ht⟩⟩
    rw [List.getElem?_eq_none_iff]
    omega
  · rcases Command.bind_tokensAt_eq_error_iff.1 hbind with
      ⟨i, a, owned, free, ha, howned, hfault⟩ | ⟨owned, free, p, howned, hc, hp, rfl⟩
    · exact isTrueOf_of_faultAt hpositions hselects ⟨ha, ⟨owned, howned⟩, hfault.not_owns i⟩ hfault
    · exact ⟨c, owned, free, p, hselects, howned, hc, hp, rfl, hpositions p⟩

theorem parseTokens_of_isTrueOf (hpositions : ∀ p, (tokens.get p).position = p)
    (h : e.IsTrueOf r tokens) : r.parseTokens tokens = .error e := by
  cases e with
  | emptyMessage => exact parseTokens_eq_error_iff.2 (.inl ⟨List.length_eq_zero_iff.1 h, rfl⟩)
  | unknownCommand t =>
    obtain ⟨ht, -, hno⟩ := h
    exact parseTokens_eq_error_iff.2 (.inr (.inl ⟨t, ht, hno, rfl⟩))
  | unknownSubcommand command found expected =>
    obtain ⟨c, hnames, rfl, rfl, hc, rfl, -, hno⟩ := h
    exact parseTokens_eq_error_iff.2
      (.inr (.inr (.inl ⟨c, hnames, hc, fun t ht => (hno t ht).2, rfl⟩)))
  | missingArgument command argument position =>
    obtain ⟨c, i, a, free, hselects, hstuck, rfl, rfl, -, -, hposition, hrest⟩ := h
    by_cases hfree : free = ∅
    · subst hfree
      rw [hposition.2 rfl]
      exact parseTokens_of_faultAt hselects hstuck (faultAt_of_stuck hstuck)
    · obtain ⟨p, validator, hp, rfl, hkind, hv⟩ := hrest hfree
      refine parseTokens_of_faultAt hselects hstuck ?_
      rw [Argument.FaultAt, hkind]
      exact .inr ⟨p, hp, hv, by rw [hpositions]⟩
  | invalidQuery t source =>
    obtain ⟨c, i, a, free, p, hselects, hstuck, hkind, hp, rfl, -, -, hq⟩ := h
    refine parseTokens_of_faultAt hselects hstuck ?_
    rw [Argument.FaultAt, hkind]
    exact .inr ⟨p, source, hp, hq, rfl⟩
  | duplicateKeyword argument first duplicate =>
    obtain ⟨c, i, a, g, free, p, q, hselects, hstuck, rfl, hkind, hp, hq, -, rfl, -, rfl, -⟩ := h
    refine parseTokens_of_faultAt hselects hstuck ?_
    rw [Argument.FaultAt, hkind]
    exact ⟨p, q, hp, hq, rfl⟩
  | unexpectedArgument t =>
    obtain ⟨c, owned, free, p, hselects, howned, hc, hp, rfl, -⟩ := h
    exact parseTokens_eq_error_iff.2 (.inr (.inr (.inr ⟨c, hselects,
      Command.bind_tokensAt_eq_error_iff.2 (.inr ⟨owned, free, p, howned, hc, hp, rfl⟩)⟩)))

end Registry

/-- The tokens of a message stand at the places they give. -/
theorem position_get_tokenize (message : String) (p : Fin (tokenize message).length) :
    ((tokenize message).get p).position = p := by
  have h : ((tokenize message).map Token.position)[(p : Nat)]? = some (p : Nat) := by
    rw [map_position_tokenize, List.getElem?_range]
    have hlength := congrArg List.length (map_text_tokenize message)
    rw [List.length_map, List.length_map] at hlength
    exact hlength ▸ p.isLt
  rw [List.getElem?_map, List.getElem?_eq_getElem p.isLt] at h
  exact Option.some.inj h

/-- A message is not understood for a reason exactly when what the reason says of it is true: which
word is at fault, where in the message it stands, and that everything before it went well. -/
theorem parse_eq_error_iff_isTrueOf (r : Registry) (message : String) (e : ParseError) :
    r.parse message = .error e ↔ e.IsTrueOf r (tokenize message) :=
  ⟨Registry.isTrueOf_of_parseTokens (position_get_tokenize message),
    Registry.parseTokens_of_isTrueOf (position_get_tokenize message)⟩

example : Builtin.registry.parse "track acme/x mine #ops none" =
    .error (.duplicateKeyword "author_filter" ⟨"mine", 2⟩ ⟨"none", 4⟩) := by
  decide +kernel

end ChatOps
