/-
Addressing the bot. The name of the bot holds no blank, so an address is the first word of a
message, and what is left behind it does not depend on the form it is recognised by. A line that
addresses the bot and then says a message is therefore answered as the message alone is.

One rule comes before: a line that begins with a slash is an event of the transport, also where the
slash is the first character of the bot's own name.
-/
import ChatOps.Builtin
import ChatOps.Proofs.Chat.Session
import ChatOps.Proofs.Text.Case
import ChatOps.Proofs.Text.Words
import Mathlib.Data.List.Basic

namespace ChatOps

open Text

/-! ## Case -/

theorem foldCase_cons (c : Char) (cs : List Char) : foldCase (c :: cs) = c.toLower :: foldCase cs :=
  rfl

/-- A text that begins with this character, which is no letter, in any case. -/
theorem foldCase_eq_cons_iff {cs ds : List Char} {d : Char} (hd : d.isAlpha = false) :
    foldCase cs = foldCase (d :: ds) ↔ ∃ es, cs = d :: es ∧ foldCase es = foldCase ds := by
  cases cs with
  | nil => simp [foldCase]
  | cons c cs =>
    rw [foldCase_cons, foldCase_cons, List.cons.injEq, (toLower_eq_iff hd).2 rfl, toLower_eq_iff hd]
    constructor
    · rintro ⟨rfl, h⟩
      exact ⟨cs, rfl, h⟩
    · rintro ⟨es, he, h⟩
      cases he
      exact ⟨rfl, h⟩

/-- A text that ends with this character, which is no letter, in any case. -/
theorem foldCase_eq_concat_iff {cs ds : List Char} {d : Char} (hd : d.isAlpha = false) :
    foldCase cs = foldCase (ds ++ [d]) ↔ ∃ es, cs = es ++ [d] ∧ foldCase es = foldCase ds := by
  constructor
  · intro h
    obtain ⟨es, fs, rfl, hes, hfs⟩ := List.map_eq_append_iff.1 (h.trans (List.map_append ..))
    obtain ⟨c, rfl, hc⟩ := List.map_eq_singleton_iff.1 hfs
    rw [(toLower_eq_iff hd).2 rfl, toLower_eq_iff hd] at hc
    exact ⟨es, by rw [hc], hes⟩
  · rintro ⟨es, rfl, h⟩
    rw [foldCase, foldCase, List.map_append, List.map_append]
    exact congrArg (· ++ _) h

/-! ## Forms of address -/

/-- The name of the bot as it stands in front of what is said to it, in any case. -/
inductive IsAddress (name : List Char) : List Char → Prop
  | bracketed {n colon : List Char} : foldCase n = foldCase name → colon = [] ∨ colon = [':'] →
      IsAddress name ('<' :: '@' :: n ++ '>' :: colon)
  | marked {n colon : List Char} : foldCase n = foldCase name → colon = [] ∨ colon = [':'] →
      IsAddress name ('@' :: n ++ colon)
  | named {n : List Char} : foldCase n = foldCase name → IsAddress name (n ++ [':'])

/-- Nothing, or a text that begins with a blank. -/
def EndsWord (rest : List Char) : Prop := ∀ c ∈ rest.head?, isBlank c = true

theorem endsWord_iff {rest : List Char} : rest.head?.all isBlank = true ↔ EndsWord rest := by
  cases rest with
  | nil => simp [EndsWord]
  | cons c rest => simp [EndsWord]

theorem EndsWord.colon_ne {rest : List Char} (h : EndsWord rest) (r : List Char) :
    rest ≠ ':' :: r := by
  rintro rfl
  exact absurd (h ':' rfl) (by decide)

theorem afterHead?_eq_some_iff {head cs rest : List Char} {needsColon : Bool} :
    afterHead? head needsColon cs = some rest ↔
      ∃ h colon, cs = h ++ colon ++ rest ∧ foldCase h = foldCase head ∧
        (colon = [] ∧ needsColon = false ∨ colon = [':']) ∧ EndsWord rest := by
  unfold afterHead?
  simp only [Option.bind_eq_bind, Option.bind_eq_some_iff, dropHead?_eq_some_iff]
  constructor
  · rintro ⟨_, ⟨h, rfl, hh⟩, hrest⟩
    split at hrest
    · rw [Option.bind_some, Option.ite_none_right_eq_some, Option.some.injEq] at hrest
      obtain ⟨hends, rfl⟩ := hrest
      exact ⟨h, [':'], by simp, hh, .inr rfl, endsWord_iff.1 hends⟩
    · cases needsColon with
      | true => cases hrest
      | false =>
        rw [if_neg Bool.false_ne_true, Option.bind_some, Option.ite_none_right_eq_some,
          Option.some.injEq] at hrest
        obtain ⟨hends, rfl⟩ := hrest
        exact ⟨h, [], by simp, hh, .inl ⟨rfl, rfl⟩, endsWord_iff.1 hends⟩
  · rintro ⟨h, colon, rfl, hh, hcolon, hends⟩
    refine ⟨colon ++ rest, ⟨h, by simp, hh⟩, ?_⟩
    rcases hcolon with ⟨rfl, rfl⟩ | rfl
    · rw [List.nil_append]
      split
      · exact absurd rfl (hends.colon_ne _)
      · simp [endsWord_iff.2 hends]
    · simp [endsWord_iff.2 hends]

theorem isAddress_iff {name address : List Char} :
    IsAddress name address ↔ ∃ h colon, address = h ++ colon ∧
      (foldCase h = foldCase ('<' :: '@' :: name ++ ['>']) ∧ (colon = [] ∨ colon = [':']) ∨
        foldCase h = foldCase ('@' :: name) ∧ (colon = [] ∨ colon = [':']) ∨
        foldCase h = foldCase name ∧ colon = [':']) := by
  constructor
  · rintro (⟨hn, hc⟩ | ⟨hn, hc⟩ | hn)
    · refine ⟨_, _, (List.append_assoc _ ['>'] _).symm, .inl ⟨?_, hc⟩⟩
      rw [foldCase_eq_concat_iff (by decide)]
      exact ⟨_, rfl, by rw [foldCase_cons, foldCase_cons, hn]; rfl⟩
    · exact ⟨_, _, rfl, .inr (.inl ⟨by rw [foldCase_cons, foldCase_cons, hn], hc⟩)⟩
    · exact ⟨_, _, rfl, .inr (.inr ⟨hn, rfl⟩)⟩
  · rintro ⟨h, colon, rfl, ⟨hh, hc⟩ | ⟨hh, hc⟩ | ⟨hh, rfl⟩⟩
    · obtain ⟨es, rfl, hes⟩ := (foldCase_eq_concat_iff (by decide)).1 hh
      obtain ⟨fs, rfl, hfs⟩ := (foldCase_eq_cons_iff (by decide)).1 hes
      obtain ⟨n, rfl, hn⟩ := (foldCase_eq_cons_iff (by decide)).1 hfs
      rw [List.append_assoc]
      exact .bracketed hn hc
    · obtain ⟨n, rfl, hn⟩ := (foldCase_eq_cons_iff (by decide)).1 hh
      exact .marked hn hc
    · exact .named hh

/-- An address is a word: it holds no blank, as the name of the bot does not. -/
theorem IsAddress.no_blank {name address : List Char} (hname : ∀ c ∈ name, isBlank c = false)
    (h : IsAddress name address) : ∀ c ∈ address, isBlank c = false := by
  have hcolon : ∀ {colon : List Char}, colon = [] ∨ colon = [':'] →
      ∀ c ∈ colon, isBlank c = false := by
    rintro _ (rfl | rfl)
    · simp
    · simp only [List.mem_singleton, forall_eq]
      decide
  have hbracket : isBlank '<' = false ∧ isBlank '@' = false ∧ isBlank '>' = false := by decide
  cases h with
  | bracketed hn hc =>
    simp only [List.cons_append, List.forall_mem_cons, List.forall_mem_append]
    exact ⟨hbracket.1, hbracket.2.1, no_blank_of_foldCase hn hname, hbracket.2.2, hcolon hc⟩
  | marked hn hc =>
    simp only [List.cons_append, List.forall_mem_cons, List.forall_mem_append]
    exact ⟨hbracket.2.1, no_blank_of_foldCase hn hname, hcolon hc⟩
  | named hn =>
    exact List.forall_mem_append.2 ⟨no_blank_of_foldCase hn hname, hcolon (.inr rfl)⟩

/-- The first word of a text ends where the first blank stands. -/
theorem dropWhile_word {w rest : List Char} (hw : ∀ c ∈ w, isBlank c = false)
    (hrest : EndsWord rest) : (w ++ rest).dropWhile (!isBlank ·) = rest := by
  rw [List.dropWhile_append_of_pos (by simpa using hw)]
  cases rest with
  | nil => rfl
  | cons c rest => simp [hrest c rfl]

/-- Some form of address is recognised exactly when an address stands there and ends there. -/
theorem exists_afterHead?_iff {name cs rest : List Char} :
    (afterHead? ('<' :: '@' :: name ++ ['>']) false cs = some rest ∨
      afterHead? ('@' :: name) false cs = some rest ∨ afterHead? name true cs = some rest) ↔
      ∃ address, cs = address ++ rest ∧ IsAddress name address ∧ EndsWord rest := by
  simp only [afterHead?_eq_some_iff, isAddress_iff]
  constructor
  · rintro (⟨h, colon, rfl, hh, hc, hends⟩ | ⟨h, colon, rfl, hh, hc, hends⟩ |
      ⟨h, colon, rfl, hh, hc, hends⟩)
    · exact ⟨_, rfl, ⟨h, colon, rfl, .inl ⟨hh, by simpa using hc⟩⟩, hends⟩
    · exact ⟨_, rfl, ⟨h, colon, rfl, .inr (.inl ⟨hh, by simpa using hc⟩)⟩, hends⟩
    · exact ⟨_, rfl, ⟨h, colon, rfl, .inr (.inr ⟨hh, by simpa using hc⟩)⟩, hends⟩
  · rintro ⟨_, rfl, ⟨h, colon, rfl, ⟨hh, hc⟩ | ⟨hh, hc⟩ | ⟨hh, hc⟩⟩, hends⟩
    · exact .inl ⟨h, colon, rfl, hh, by simpa using hc, hends⟩
    · exact .inr (.inl ⟨h, colon, rfl, hh, by simpa using hc, hends⟩)
    · exact .inr (.inr ⟨h, colon, rfl, hh, .inr hc, hends⟩)

/-- What is left behind an address, whichever form it is recognised by. -/
theorem afterAddress?_eq_some_iff {name cs rest : List Char}
    (hname : ∀ c ∈ name, isBlank c = false) :
    afterAddress? name cs = some rest ↔
      ∃ address, cs = address ++ rest ∧ IsAddress name address ∧ EndsWord rest := by
  rw [← exists_afterHead?_iff]
  unfold afterAddress?
  simp only [Option.orElse_eq_orElse, Option.orElse_eq_or, Option.or_eq_some_iff]
  -- whatever a form leaves is what the first word leaves, so the order of the forms is no matter
  have hword : ∀ {rest : List Char},
      (afterHead? ('<' :: '@' :: name ++ ['>']) false cs = some rest ∨
        afterHead? ('@' :: name) false cs = some rest ∨ afterHead? name true cs = some rest) →
      cs.dropWhile (!isBlank ·) = rest := by
    intro rest h
    obtain ⟨address, rfl, ha, hends⟩ := exists_afterHead?_iff.1 h
    exact dropWhile_word (ha.no_blank hname) hends
  constructor
  · rintro (h | ⟨-, h | ⟨-, h⟩⟩)
    · exact .inl h
    · exact .inr (.inl h)
    · exact .inr (.inr h)
  · intro h
    have hrest := hword h
    cases hb : afterHead? ('<' :: '@' :: name ++ ['>']) false cs with
    | some r => exact .inl (congrArg some ((hword (.inl hb)).symm.trans hrest))
    | none =>
      refine .inr ⟨rfl, ?_⟩
      cases hm : afterHead? ('@' :: name) false cs with
      | some r => exact .inl (congrArg some ((hword (.inr (.inl hm))).symm.trans hrest))
      | none =>
        rw [hb, hm] at h
        simpa using h

/-! ## Messages behind an address -/

section Addressed

variable {name text : String} {lead address rest : List Char}

theorem trimStart_of_isAddress (hname : ∀ c ∈ name.toList, isBlank c = false)
    (hlead : ∀ c ∈ lead, isBlank c = true) (ha : IsAddress name.toList address)
    (htext : text.toList = lead ++ address ++ rest) :
    trimStart text.toList = address ++ rest ∧ address ≠ [] := by
  have hne : address ≠ [] := by cases ha <;> simp
  refine ⟨?_, hne⟩
  rw [htext, List.append_assoc, trimStart_append hlead, trimStart]
  obtain ⟨c, cs, rfl⟩ := List.exists_cons_of_ne_nil hne
  have hc := ha.no_blank hname c List.mem_cons_self
  rw [List.cons_append, List.dropWhile_cons_of_neg (by simp [hc])]

/-- A message that is addressed to the bot is what stands behind the address. -/
theorem stripMention_of_isAddress (hname : ∀ c ∈ name.toList, isBlank c = false)
    (hlead : ∀ c ∈ lead, isBlank c = true) (ha : IsAddress name.toList address)
    (hrest : EndsWord rest) (htext : text.toList = lead ++ address ++ rest) :
    stripMention name text = String.ofList rest := by
  rw [stripMention, (trimStart_of_isAddress hname hlead ha htext).1,
    (afterAddress?_eq_some_iff hname).2 ⟨address, rfl, ha, hrest⟩]

/-- A line with an address is an event of the transport exactly when the address has the slash. -/
theorem kind_of_isAddress (hname : ∀ c ∈ name.toList, isBlank c = false)
    (hlead : ∀ c ∈ lead, isBlank c = true) (ha : IsAddress name.toList address)
    (htext : text.toList = lead ++ address ++ rest) :
    ¬ IsBlankLine text ∧ (IsSlashLine text ↔ address.head? = some '/') := by
  obtain ⟨htrim, hne⟩ := trimStart_of_isAddress hname hlead ha htext
  constructor
  · rw [IsBlankLine, ← trimStart_eq_nil_iff, htrim]
    simp [hne]
  · rw [isSlashLine_iff, htrim, List.head?_append_of_ne_nil _ hne]

/-- The address has a slash in front only if the bot's name has, and the name is all of it but the
colon. -/
theorem IsAddress.head?_eq_slash_iff {name address : List Char} (h : IsAddress name address) :
    address.head? = some '/' ↔
      name.head? = some '/' ∧ ∃ n, address = n ++ [':'] ∧ foldCase n = foldCase name := by
  have hfold : ∀ {n : List Char}, foldCase n = foldCase name →
      (n.head? = some '/' ↔ name.head? = some '/') := by
    intro n hn
    constructor
    · intro hhead
      obtain ⟨ns, rfl⟩ := List.head?_eq_some_iff.1 hhead
      obtain ⟨es, rfl, -⟩ := (foldCase_eq_cons_iff (by decide)).1 hn.symm
      rfl
    · intro hhead
      obtain ⟨ns, rfl⟩ := List.head?_eq_some_iff.1 hhead
      obtain ⟨es, rfl, -⟩ := (foldCase_eq_cons_iff (by decide)).1 hn
      rfl
  have hcons : ∀ {n : List Char}, (n ++ [':']).head? = some '/' ↔ n.head? = some '/' := by
    intro n
    cases n <;> simp
  constructor
  · intro hhead
    cases h with
    | bracketed => cases hhead
    | marked => cases hhead
    | named hn => exact ⟨(hfold hn).1 (hcons.1 hhead), _, rfl, hn⟩
  · rintro ⟨hhead, n, rfl, hn⟩
    exact hcons.2 ((hfold hn).2 hhead)

end Addressed

/-! ## Sessions -/

theorem Config.no_blank_of_validate {c : Config} (h : c.validate = .ok ()) :
    ∀ d ∈ c.botName.toList, isBlank d = false := by
  unfold Config.validate at h
  split at h
  · cases h
  · rename_i hname
    rw [not_or, Bool.not_eq_true, List.any_eq_false] at hname
    simpa using hname.2

/-- Two messages of the same words behind the address get the same reply. -/
theorem Responder.respond_congr {r : Responder} {m m' : ChatMessage}
    (h : words (stripMention r.config.botName m.text).toList =
      words (stripMention r.config.botName m'.text).toList) : r.respond m = r.respond m' := by
  unfold respond parse Registry.parse
  rw [tokenize_congr h]

/-- A line is the octets of a text, less the carriage return that the text may end with. -/
theorem dropReturn_encodeUtf8 (text : String) :
    ∃ line : String, dropReturn (encodeUtf8 text) = encodeUtf8 line ∧
      (line = text ∨ text.toList = line.toList ++ ['\r']) := by
  unfold dropReturn
  split
  · rename_i h
    rcases List.eq_nil_or_concat text.toList with hnil | ⟨cs, c, hc⟩
    · rw [encodeUtf8, hnil] at h
      cases h
    · have hencode : encodeUtf8 text =
          cs.flatMap String.utf8EncodeChar ++ String.utf8EncodeChar c := by
        rw [encodeUtf8, hc, List.concat_eq_append, List.flatMap_append, List.flatMap_singleton]
      have hne : String.utf8EncodeChar c ≠ [] := by
        rw [← List.length_pos_iff, String.length_utf8EncodeChar]
        exact c.utf8Size_pos
      have hlast : (13 : UInt8) ∈ String.utf8EncodeChar c := by
        rw [hencode, List.getLast?_append_of_ne_nil _ hne] at h
        exact List.mem_of_getLast? h
      obtain rfl := eq_ofNat_of_mem_encode hlast (by decide)
      refine ⟨String.ofList cs, ?_, .inr ?_⟩
      · rw [hencode, encodeUtf8, String.toList_ofList]
        exact List.dropLast_concat
      · rw [hc, String.toList_ofList, List.concat_eq_append]
        rfl
  · exact ⟨text, rfl, .inl rfl⟩

/-- A single line, with or without its ending, is a text, less the carriage return that goes with
the ending. -/
theorem lined_singleton {text : String} {input : List UInt8} (hne : text ≠ "")
    (hfeed : '\n' ∉ text.toList)
    (hinput : input = encodeUtf8 text ∨ input = encodeUtf8 text ++ [10]) :
    ∃ line : String, Lined input [encodeUtf8 line] ∧
      (line = text ∨ text.toList = line.toList ++ ['\r']) := by
  have hno : 10 ∉ encodeUtf8 text := fun h => hfeed (mem_of_mem_encodeUtf8 h (by decide))
  rcases hinput with rfl | rfl
  · refine ⟨text, .unended (fun h => hne ?_) hno, .inl rfl⟩
    have hdecode : decodeUtf8 [] = .ok text.toList :=
      decodeUtf8_eq_ok_iff.2 (by rw [String.ofList_toList, h])
    exact String.toList_eq_nil_iff.1 (Except.ok.inj hdecode).symm
  · obtain ⟨line, hencode, hline⟩ := dropReturn_encodeUtf8 text
    exact ⟨line, hencode ▸ .cons hno .nil, hline⟩

namespace Session

variable {s : Session} {input : List UInt8} {text message : String} {lead address rest : List Char}

/-- The session gives one reply, the one to this message. -/
def AnswersOnce (s : Session) (input : List UInt8) (message : String) : Prop :=
  (s.run none input).output = encodeUtf8 (s.responder.respond (s.messageOf message) ++ "\n") ∧
    (s.run none input).ending = .finished 1

/-- The session gives no reply. -/
def IsSilent (s : Session) (input : List UInt8) : Prop :=
  (s.run none input).output = [] ∧ (s.run none input).ending = .finished 0

/-- One line with an address and then the words of a message. -/
theorem run_of_isAddress (hname : ∀ c ∈ s.responder.config.botName.toList, isBlank c = false)
    (hlead : ∀ c ∈ lead, isBlank c = true)
    (ha : IsAddress s.responder.config.botName.toList address) (hrest : EndsWord rest)
    (htext : text.toList = lead ++ address ++ rest) (hinput : Lined input [encodeUtf8 text])
    (hmessage : stripMention s.responder.config.botName message = message)
    (hwords : words rest = words message.toList) :
    (address.head? ≠ some '/' → s.AnswersOnce input message) ∧
      (address.head? = some '/' → s.IsSilent input) := by
  have hrun : s.run none input = ⟨s.repliesTo [text], [text].flatMap s.logOf ++
      [.sessionEnded (messageLines [text]).length], .finished (messageLines [text]).length⟩ :=
    run_of_texts hinput
  obtain ⟨hblank, hslash⟩ := kind_of_isAddress hname hlead ha htext
  have hreply : s.responder.respond (s.messageOf text) =
      s.responder.respond (s.messageOf message) := by
    refine Responder.respond_congr ?_
    rw [messageOf, messageOf, stripMention_of_isAddress hname hlead ha hrest htext, hmessage,
      String.toList_ofList, hwords]
  constructor
  · intro hno
    have hlines : messageLines [text] = [text] := by simp [messageLines, hblank, hslash, hno]
    rw [hlines] at hrun
    rw [AnswersOnce, hrun, ← hreply, repliesTo, hlines, List.flatMap_singleton,
      List.length_singleton]
    simp only [and_self]
  · intro hyes
    have hlines : messageLines [text] = [] := by simp [messageLines, hslash, hyes]
    rw [hlines] at hrun
    rw [IsSilent, hrun, repliesTo, hlines]
    exact ⟨rfl, rfl⟩

/-- A single line that addresses the bot, with or without its ending, is answered as the message
behind the address is. The one exception is a name with a slash in front, given with nothing but a
colon: such a line is an event of the transport and gets no reply. -/
theorem run_addressed (s : Session) (lead address blanks message : String) (input : List UInt8)
    (hconfig : s.responder.config.validate = .ok ())
    (hlead : ∀ c ∈ lead.toList, isBlank c = true)
    (haddress : IsAddress s.responder.config.botName.toList address.toList)
    (hne : blanks ≠ "") (hblanks : ∀ c ∈ blanks.toList, isBlank c = true)
    (hmessage : stripMention s.responder.config.botName message = message)
    (hline : '\n' ∉ (lead ++ blanks ++ message).toList)
    (hinput : input = encodeUtf8 (lead ++ address ++ blanks ++ message) ∨
      input = encodeUtf8 (lead ++ address ++ blanks ++ message) ++ [10]) :
    (¬ (s.responder.config.botName.toList.head? = some '/' ∧ ∃ n, address.toList = n ++ [':'] ∧
        foldCase n = foldCase s.responder.config.botName.toList) → s.AnswersOnce input message) ∧
      (s.responder.config.botName.toList.head? = some '/' ∧ (∃ n, address.toList = n ++ [':'] ∧
        foldCase n = foldCase s.responder.config.botName.toList) → s.IsSilent input) := by
  have hname := s.responder.config.no_blank_of_validate hconfig
  rw [← haddress.head?_eq_slash_iff]
  have htext : (lead ++ address ++ blanks ++ message).toList =
      lead.toList ++ address.toList ++ (blanks.toList ++ message.toList) := by
    simp
  have hnil : blanks.toList ≠ [] := fun h => hne (String.toList_inj.1 h)
  have hends : EndsWord (blanks.toList ++ message.toList) := by
    intro c hc
    rw [List.head?_append_of_ne_nil _ hnil] at hc
    exact hblanks c (List.mem_of_head? hc)
  have hwords := words_blanks_append hblanks message.toList
  generalize lead ++ address ++ blanks ++ message = text at htext hinput
  have hnonempty : text ≠ "" := by
    rintro rfl
    exact hnil (List.append_eq_nil_iff.1 (List.append_eq_nil_iff.1 htext.symm).2).1
  have hfeed : '\n' ∉ text.toList := by
    have hno : '\n' ∉ address.toList := fun h => absurd (haddress.no_blank hname _ h) (by decide)
    simp only [htext, String.toList_append, List.mem_append, not_or] at hline ⊢
    exact ⟨⟨hline.1.1, hno⟩, hline.1.2, hline.2⟩
  obtain ⟨line, hlined, rfl | hreturn⟩ := lined_singleton hnonempty hfeed hinput
  · exact run_of_isAddress hname hlead haddress hends htext hlined hmessage hwords
  -- a carriage return that goes with the ending is a blank, so no word of the message misses it
  · obtain ⟨rest, c, hrest⟩ :=
      (List.eq_nil_or_concat' (blanks.toList ++ message.toList)).resolve_left (by simp [hnil])
    rw [hrest, ← List.append_assoc] at htext
    obtain ⟨hline, hc⟩ := List.append_inj' (hreturn.symm.trans htext) rfl
    cases hc
    rw [hrest] at hends hwords
    refine run_of_isAddress hname hlead haddress (fun d hd => hends d ?_) hline hlined hmessage ?_
    · exact List.mem_head?_append_of_mem_head? hd
    · rw [← hwords, words_append_cons (by decide), words_nil, List.append_nil]

/-- A name with a slash in front is as good as any other behind an at sign. -/
theorem run_addressed_marked :
    AnswersOnce ⟨⟨Builtin.registry, { botName := "/bot" }⟩, "u1", "#ops", false⟩
        (encodeUtf8 " @/BOT:\tversion") "version" ∧
      Responder.respond ⟨Builtin.registry, { botName := "/bot" }⟩ ⟨"version", "u1", "#ops"⟩ =
        "kube-bot 0.1.0" := by
  have haddress : IsAddress "/bot".toList ('@' :: "/BOT".toList ++ [':']) :=
    .marked (by decide) (.inr rfl)
  refine ⟨(run_addressed ⟨⟨Builtin.registry, { botName := "/bot" }⟩, "u1", "#ops", false⟩ " "
    "@/BOT:" "\t" "version" _ (by decide +kernel) (List.all_eq_true.1 rfl) haddress (by decide)
    (List.all_eq_true.1 rfl) (by decide +kernel) (by decide) (.inl rfl)).1 fun h => ?_,
    by decide +kernel⟩
  exact absurd (haddress.head?_eq_slash_iff.2 h) (by decide)

/-- The name of the bot is a word that may begin with a slash. With its name and a colon in front, a
message then is an event of the transport, and the reply it gets by itself is not given. -/
theorem run_addressed_slash :
    Config.validate { botName := "/bot" } = .ok () ∧
      IsAddress "/bot".toList "/bot:".toList ∧ stripMention "/bot" "version" = "version" ∧
      stripMention "/bot" "/bot: version" = " version" ∧
      ¬ AnswersOnce ⟨⟨Builtin.registry, { botName := "/bot" }⟩, "u1", "#ops", false⟩
        (encodeUtf8 "/bot: version") "version" := by
  have hrun : run ⟨⟨Builtin.registry, { botName := "/bot" }⟩, "u1", "#ops", false⟩ none
      (encodeUtf8 "/bot: version") = ⟨[], [.sessionEnded 0], .finished 0⟩ := by
    decide +kernel
  refine ⟨by decide +kernel, .named (n := "/bot".toList) rfl, by decide +kernel,
    by decide +kernel, ?_⟩
  rintro ⟨-, h⟩
  rw [hrun] at h
  cases h

end Session

end ChatOps
