/-
What each argument of the built-in commands takes, in terms of the words of the tokens: queries,
numbers, choices, optional words and the lists of `track`.
-/
import ChatOps.Proofs.Builtin.Language
import ChatOps.Proofs.Command.Validator
import ChatOps.Proofs.Message.Canonical

namespace ChatOps

open Text

namespace Builtin

variable {c : Command} {index : Nat} {name : String} {as : List Argument}
  {tokens left : List Token} {vs : List Value}

/-! ## Queries -/

/-- A query in front of other arguments takes a word that writes it. -/
theorem takesFrom_query_iff :
    c.TakesFrom index (⟨name, .query⟩ :: as) tokens vs left ↔
      ∃ t rest q ws, tokens = t :: rest ∧ t.text = q.display ∧ q.WellFormed ∧
        vs = .query q :: ws ∧ c.TakesFrom (index + 1) as rest ws left := by
  rw [Command.takesFrom_cons_iff]
  constructor
  · rintro ⟨v, passed, ws, rfl, h, has⟩
    cases h with
    | query hq =>
      obtain ⟨ht, hwf⟩ := Query.parse_eq_ok_iff.1 hq
      exact ⟨_, _, _, _, rfl, ht, hwf, rfl, has⟩
  · rintro ⟨t, rest, q, ws, rfl, ht, hwf, rfl, has⟩
    exact ⟨_, _, _, rfl, .query (Query.parse_eq_ok_iff.2 ⟨ht, hwf⟩), has⟩

/-- What the commands that take one query are given. -/
theorem takesFrom_one_query_iff :
    c.TakesFrom index [⟨name, .query⟩] tokens vs [] ↔
      ∃ q, tokens.map Token.text = [q.display] ∧ q.WellFormed ∧ vs = [.query q] := by
  rw [takesFrom_query_iff]
  constructor
  · rintro ⟨t, rest, q, ws, rfl, ht, hq, rfl, hrest⟩
    obtain ⟨rfl, rfl⟩ := Command.takesFrom_nil_iff.1 hrest
    exact ⟨q, by rw [List.map_singleton, ht], hq, rfl⟩
  · rintro ⟨q, ht, hq, rfl⟩
    obtain ⟨t, rfl, htext⟩ := List.map_eq_singleton_iff.1 ht
    exact ⟨t, [], q, [], rfl, htext, hq, rfl, .nil⟩

/-! ## Numbers -/

/-- The numbers of the grammar are the numerals. -/
theorem isNumber_iff_numeral {word : String} {n : UInt64} :
    IsNumber word n ↔ Numeral word.toList n.toNat := by
  rw [numeral_iff, isDigits_iff, ne_eq, String.toList_eq_nil_iff, IsNumber, and_assoc]

theorem readUInt64?_eq_some_iff_isNumber {word : String} {n : UInt64} :
    readUInt64? word = some n ↔ IsNumber word n := by
  rw [readUInt64?_eq_some_iff_numeral, isNumber_iff_numeral]

theorem validate?_nonNegative_iff {word : String} {v : Value} :
    Validator.nonNegative.validate? word = some v ↔ ∃ n, IsNumber word n ∧ v = .integer n := by
  simp only [Validator.validate?_nonNegative_eq_some_iff, readUInt64?_eq_some_iff_isNumber]

theorem validate?_positive_iff {word : String} {v : Value} :
    Validator.positive.validate? word = some v ↔
      ∃ n, IsNumber word n ∧ 0 < n ∧ v = .integer n := by
  simp only [Validator.validate?_positive_eq_some_iff, readUInt64?_eq_some_iff_isNumber]

/-- A positive number with a default, as the last argument. -/
theorem takes_lines_iff {reserved : String → Bool} {v default : Value} :
    Argument.Takes reserved ⟨name, .validated .positive (some default)⟩ tokens v [] ↔
      tokens = [] ∧ v = default ∨
        ∃ t n, tokens = [t] ∧ IsNumber t.text n ∧ 0 < n ∧ v = .integer n := by
  constructor
  · intro h
    cases h with
    | accepted hv =>
      obtain ⟨n, hn, hpos, rfl⟩ := validate?_positive_iff.1 hv
      exact .inr ⟨_, n, rfl, hn, hpos, rfl⟩
    | defaulted => exact .inl ⟨rfl, rfl⟩
  · rintro (⟨rfl, rfl⟩ | ⟨t, n, rfl, hn, hpos, rfl⟩)
    · exact .defaulted (by simp)
    · exact .accepted (validate?_positive_iff.2 ⟨n, hn, hpos, rfl⟩)

/-! ## Optional words -/

/-- An optional argument takes the next token, or is left out when there is none. -/
theorem takes_optional_iff {reserved : String → Bool} {v : Value} :
    (Argument.optional name).Takes reserved tokens v left ↔
      (∃ t, tokens = t :: left ∧ v = .text t.text) ∨ tokens = [] ∧ left = [] ∧ v = .unset := by
  constructor
  · intro h
    cases h with
    | accepted hv =>
      cases hv
      exact .inl ⟨_, rfl, rfl⟩
    | defaulted hv =>
      cases tokens with
      | nil => exact .inr ⟨rfl, rfl, rfl⟩
      | cons t tokens => cases hv t rfl
  · rintro (⟨t, rfl, rfl⟩ | ⟨rfl, rfl, rfl⟩)
    · exact .accepted rfl
    · exact .defaulted (by simp)

/-! ## Choices -/

/-- A word of a closed set of choices stands for itself. -/
theorem canonical?_group_iff {α : Type} [Choices α] {word canonical : String} :
    (Choices.group α).canonical? word = some canonical ↔
      word ∈ (Choices.group α).literals ∧ canonical = word := by
  have hself : ∀ c, (Choices.group α).canonical? word = some c → c = word := by
    intro c h
    obtain ⟨before, after, hk, -⟩ := List.lookup_eq_some_iff.1 h
    have hmem : (word, c) ∈ (Choices.group α).keywords := by simp [hk]
    obtain ⟨a, -, ha⟩ := List.mem_map.1 hmem
    cases ha
    rfl
  constructor
  · intro h
    exact ⟨KeywordGroup.mem_literals_of_canonical? h, hself _ h⟩
  · rintro ⟨h, rfl⟩
    obtain ⟨c, hc⟩ := KeywordGroup.exists_canonical? h
    rw [hc, hself c hc]

/-- A choice is made by at most one of the words that are left; the others close up around it. -/
theorem takes_choice_iff {reserved : String → Bool} {α : Type} [Choices α] {v : Value} :
    Argument.Takes reserved ⟨name, .keywords (Choices.group α)⟩ tokens v left ↔
      ∃ word : Option String,
        (tokens.map Token.text).filter (· ∈ (Choices.group α).literals) = word.toList ∧
          left = tokens.filter (fun t => t.text ∉ (Choices.group α).literals) ∧
          v = .keyword (word.getD (Choices.group α).fallback) := by
  rw [List.filter_map]
  constructor
  · intro h
    cases h with
    | unchosen hno =>
      refine ⟨none, ?_, (List.filter_eq_self.2 (by simpa using hno)).symm, rfl⟩
      rw [List.filter_eq_nil_iff.2 (by simpa using hno)]
      rfl
    | @chosen _ _ before after t _ hc hno =>
      obtain ⟨ht, rfl⟩ := canonical?_group_iff.1 hc
      obtain ⟨hone, hrest⟩ := Argument.filter_keyword ht hno
      simp only [List.contains_eq_mem, ← decide_not] at hone hrest
      exact ⟨some t.text, congrArg (List.map Token.text) hone, hrest.symm, rfl⟩
  · rintro ⟨word, hword, rfl, rfl⟩
    cases word with
    | none =>
      have hno : ∀ t ∈ tokens, t.text ∉ (Choices.group α).literals := by
        have hnil := List.map_eq_nil_iff.1 hword
        simpa [List.filter_eq_nil_iff] using hnil
      rw [List.filter_eq_self.2 (by simpa using hno)]
      exact .unchosen hno
    | some w =>
      obtain ⟨t, ht, rfl⟩ := List.map_eq_singleton_iff.1 hword
      obtain ⟨before, after, rfl, hb, hmem, ha⟩ := List.filter_eq_cons_iff.1 ht
      have hno : ∀ u ∈ before ++ after, u.text ∉ (Choices.group α).literals :=
        List.forall_mem_append.2 ⟨by simpa using hb, by simpa using ha⟩
      have hmem : t.text ∈ (Choices.group α).literals := by simpa using hmem
      obtain ⟨-, hrest⟩ := Argument.filter_keyword hmem hno
      simp only [List.contains_eq_mem, ← decide_not] at hrest
      rw [hrest]
      exact .chosen (canonical?_group_iff.2 ⟨hmem, rfl⟩) hno

/-! ## The options of `logs` -/

theorem isNumber_not_mem_directionWords {word : String} {n : UInt64} (h : IsNumber word n) :
    word ∉ directionWords := by
  intro hmem
  have hd : isDigits word.toList = true := (isNumber_iff_numeral.1 h).isDigits
  have hno : ∀ w ∈ directionWords, isDigits w.toList = false := by decide
  rw [hno word hmem] at hd
  cases hd

/-- The options of `logs`: the direction is picked out wherever it stands, and the number is what
is left. -/
theorem takesFrom_logOptions_iff :
    logs.TakesFrom 1 [⟨"direction", .keywords (Choices.group LogDirection)⟩,
        ⟨"lines", .validated .positive (some (.integer 25))⟩] tokens vs [] ↔
      ∃ direction lines, LogOptions (tokens.map Token.text) direction lines ∧
        vs = [.keyword (direction.getD "bottom"), .integer (lines.getD 25)] := by
  constructor
  · intro h
    obtain ⟨v, passed, ws, rfl, hv, h⟩ := Command.takesFrom_cons_iff.1 h
    obtain ⟨v', left, ws, rfl, hv', h⟩ := Command.takesFrom_cons_iff.1 h
    obtain ⟨rfl, rfl⟩ := Command.takesFrom_nil_iff.1 h
    cases hv with
    | unchosen =>
      rcases takes_lines_iff.1 hv' with ⟨rfl, rfl⟩ | ⟨t, n, rfl, hn, hpos, rfl⟩
      · exact ⟨none, none, .none, rfl⟩
      · exact ⟨none, some n, .lines hn hpos, rfl⟩
    | @chosen _ _ before after t _ hcanonical =>
      obtain ⟨hd, rfl⟩ := canonical?_group_iff.1 hcanonical
      rcases takes_lines_iff.1 hv' with ⟨hp, rfl⟩ | ⟨u, n, hp, hn, hpos, rfl⟩
      · obtain ⟨rfl, rfl⟩ := List.append_eq_nil_iff.1 hp
        exact ⟨some t.text, none, .direction hd, rfl⟩
      -- the number stands before the direction or after it
      · rcases List.append_eq_singleton_iff.1 hp with ⟨rfl, rfl⟩ | ⟨rfl, rfl⟩
        · exact ⟨some t.text, some n, .directionLines hd hn hpos, rfl⟩
        · exact ⟨some t.text, some n, .linesDirection hd hn hpos, rfl⟩
  · rintro ⟨direction, lines, h, rfl⟩
    generalize hw : tokens.map Token.text = ws at h
    cases h with
    | none =>
      obtain rfl := List.map_eq_nil_iff.1 hw
      exact .cons (.unchosen (by simp)) (.cons (takes_lines_iff.2 (.inl ⟨rfl, rfl⟩)) .nil)
    | direction hd =>
      obtain ⟨t, rfl, rfl⟩ := List.map_eq_singleton_iff.1 hw
      exact .cons (@Argument.Takes.chosen _ _ _ [] [] t _ (canonical?_group_iff.2 ⟨hd, rfl⟩)
        (by simp)) (.cons (takes_lines_iff.2 (.inl ⟨rfl, rfl⟩)) .nil)
    | lines hn hpos =>
      obtain ⟨u, rfl, rfl⟩ := List.map_eq_singleton_iff.1 hw
      refine .cons (.unchosen (List.forall_mem_singleton.2 ?_))
        (.cons (takes_lines_iff.2 (.inr ⟨u, _, rfl, hn, hpos, rfl⟩)) .nil)
      exact isNumber_not_mem_directionWords hn
    | directionLines hd hn hpos =>
      obtain ⟨t, rest, rfl, rfl, hlast⟩ := List.map_eq_cons_iff.1 hw
      obtain ⟨u, rfl, rfl⟩ := List.map_eq_singleton_iff.1 hlast
      refine .cons (@Argument.Takes.chosen _ _ _ [] [u] t _ (canonical?_group_iff.2 ⟨hd, rfl⟩)
        (List.forall_mem_singleton.2 ?_))
        (.cons (takes_lines_iff.2 (.inr ⟨u, _, rfl, hn, hpos, rfl⟩)) .nil)
      exact isNumber_not_mem_directionWords hn
    | linesDirection hd hn hpos =>
      obtain ⟨u, rest, rfl, rfl, hlast⟩ := List.map_eq_cons_iff.1 hw
      obtain ⟨t, rfl, rfl⟩ := List.map_eq_singleton_iff.1 hlast
      refine .cons (@Argument.Takes.chosen _ _ _ [u] [] t _ (canonical?_group_iff.2 ⟨hd, rfl⟩)
        (List.forall_mem_singleton.2 ?_))
        (.cons (takes_lines_iff.2 (.inr ⟨u, _, rfl, hn, hpos, rfl⟩)) .nil)
      exact isNumber_not_mem_directionWords hn

/-! ## The lists of `track` -/

theorem track_arguments :
    track.arguments = [⟨"repo", .positional⟩, ⟨"channels", .list (.marked "#")⟩,
      ⟨"author_filter", .keywords (Choices.group AuthorFilter)⟩,
      ⟨"result_filter", .keywords (Choices.group ResultFilter)⟩,
      ⟨"branches", .list .bareword⟩] := rfl

/-- The lists of `track` leave the words of its choices alone. -/
theorem isReservedElsewhere_track {word : String} (h2 : index ≠ 2) (h3 : index ≠ 3) :
    track.isReservedElsewhere word index = true ↔ word ∈ authorWords ∨ word ∈ resultWords := by
  rw [Command.isReservedElsewhere_iff, track_arguments]
  constructor
  · rintro ⟨i, a, ha, -, hword⟩
    rcases i with _ | _ | _ | _ | _ | i
    all_goals cases ha
    · cases hword
    · cases hword
    · exact .inl hword
    · exact .inr hword
    · cases hword
  · rintro (h | h)
    · exact ⟨2, _, rfl, h2.symm, h⟩
    · exact ⟨3, _, rfl, h3.symm, h⟩

theorem not_mark_of_choice : ∀ w ∈ authorWords ++ resultWords, w.toList.head? ≠ some '#' := by
  decide

/-- What writes a channel is neither a choice nor a branch. -/
theorem head?_mark (channel : String) : ("#" ++ channel).toList.head? = some '#' := by
  simp

theorem not_choice_of_mark {word : String} (h : word.toList.head? = some '#') :
    ¬ (word ∈ authorWords ∨ word ∈ resultWords) := by
  rw [← List.mem_append]
  exact fun hword => not_mark_of_choice word hword h

theorem TrackOptions.head?_ne_mark {words : List String} {author result : Option String}
    {branches : List String} (h : TrackOptions words author result branches) {w : String}
    (hw : w ∈ words) : w.toList.head? ≠ some '#' := by
  induction h with
  | nil => cases hw
  | author ha _ ih =>
    rcases List.mem_cons.1 hw with rfl | hw
    · exact not_mark_of_choice w (List.mem_append_left _ ha)
    · exact ih hw
  | result hr _ ih =>
    rcases List.mem_cons.1 hw with rfl | hw
    · exact not_mark_of_choice w (List.mem_append_right _ hr)
    · exact ih hw
  | branch _ _ hhead _ ih =>
    rcases List.mem_cons.1 hw with rfl | hw
    · exact hhead
    · exact ih hw

/-- A channel is any text after a mark. -/
theorem channel_iff {channel : String} :
    (ItemForm.marked "#").accept? ("#" ++ channel) = some channel ∧
        track.isReservedElsewhere ("#" ++ channel) 1 = false ↔ channel ≠ "" := by
  have hfree : track.isReservedElsewhere ("#" ++ channel) 1 = false := by
    rw [← Bool.not_eq_true, isReservedElsewhere_track (by decide) (by decide)]
    exact not_choice_of_mark (head?_mark channel)
  rw [ItemForm.accept?_marked_eq_some_iff]
  constructor
  · rintro ⟨⟨-, hne⟩, -⟩
    exact hne
  · intro hne
    exact ⟨⟨rfl, hne⟩, hfree⟩

/-- A branch is a word without a mark that is no choice. -/
theorem branch_iff {branch : String} :
    ItemForm.bareword.accept? branch = some branch ∧
        track.isReservedElsewhere branch 4 = false ↔
      branch.toList.head? ≠ some '#' ∧ branch ∉ authorWords ∧ branch ∉ resultWords := by
  rw [ItemForm.accept?_bareword_eq_some_iff, ← Bool.not_eq_true,
    isReservedElsewhere_track (by decide) (by decide), not_or]
  constructor
  · rintro ⟨⟨-, hhead⟩, hno⟩
    exact ⟨hhead, hno⟩
  · rintro ⟨hhead, hno⟩
    exact ⟨⟨rfl, hhead⟩, hno⟩

/-- The channels of `track` are the words with a mark, up to the first word without. -/
theorem takes_channels_iff {v : Value} :
    Argument.Takes (track.isReservedElsewhere · 1) ⟨"channels", .list (.marked "#")⟩ tokens v left ↔
      ∃ run channels, tokens = run ++ left ∧ run.map Token.text = channels.map ("#" ++ ·) ∧
        (∀ channel ∈ channels, channel ≠ "") ∧
        (∀ t ∈ left.head?, ∀ channel, t.text = "#" ++ channel → channel = "") ∧
        v = .list channels := by
  constructor
  · intro h
    cases h with
    | items hrun hrest =>
      obtain ⟨htexts, hitems⟩ := Argument.map_item?_eq_iff.1 hrun
      refine ⟨_, _, rfl, htexts, fun channel hc => channel_iff.1 (hitems channel hc), ?_, rfl⟩
      intro t ht channel htext
      by_contra hne
      have hitem : Argument.item? (.marked "#") (track.isReservedElsewhere · 1) t = some channel :=
        Argument.item?_eq_some_iff.2 ⟨htext, channel_iff.2 hne⟩
      rw [hrest t ht] at hitem
      cases hitem
  · rintro ⟨run, channels, rfl, htexts, hne, hrest, rfl⟩
    refine .items (Argument.map_item?_eq_iff.2 ⟨htexts, fun channel hc => ?_⟩) fun t ht => ?_
    · exact channel_iff.2 (hne channel hc)
    · rw [Option.eq_none_iff_forall_ne_some]
      intro channel hitem
      obtain ⟨htext, hchannel⟩ := Argument.item?_eq_some_iff.1 hitem
      exact channel_iff.1 hchannel (hrest t ht channel htext)

/-- The branches of `track` are all the words that are left. -/
theorem takes_branches_iff {v : Value} :
    Argument.Takes (track.isReservedElsewhere · 4) ⟨"branches", .list .bareword⟩ tokens v [] ↔
      ∃ branches, tokens.map Token.text = branches ∧
        (∀ w ∈ branches, w.toList.head? ≠ some '#' ∧ w ∉ authorWords ∧ w ∉ resultWords) ∧
        v = .list branches := by
  have hrender : ∀ ws : List String, ws.map ItemForm.bareword.render = ws := List.map_id
  constructor
  · intro h
    cases h with
    | @items _ _ run _ branches hrun _ =>
      obtain ⟨htexts, hitems⟩ := Argument.map_item?_eq_iff.1 hrun
      rw [hrender] at htexts
      rw [List.append_nil]
      exact ⟨branches, htexts, fun w hw => branch_iff.1 (hitems w hw), rfl⟩
  · rintro ⟨branches, htexts, hall, rfl⟩
    rw [← List.append_nil tokens]
    refine .items (Argument.map_item?_eq_iff.2 ⟨?_, fun w hw => branch_iff.2 (hall w hw)⟩) (by simp)
    rw [hrender, htexts]

end Builtin

end ChatOps
