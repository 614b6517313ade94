/-
A session is a fold over the lines of its input. Over lines that are UTF-8 it writes the replies to
the messages among them, logs line by line, and ends with the number of messages; the first line
that is not UTF-8 stops it and leaves what came before as it is. So an input that ends at a line's
end can be cut there: the session on the whole is the one on the first part followed by the one on
the second.
-/
import ChatOps.Chat.Session
import ChatOps.Proofs.Text.Lines
import ChatOps.Proofs.Text.Utf8
import Mathlib.Data.List.TakeWhile

namespace ChatOps

open Text

/-! ## Kinds of lines -/

/-- A line that carries nothing. -/
def IsBlankLine (text : String) : Prop := ∀ c ∈ text.toList, isBlank c = true

/-- A line whose first character after the leading blanks is a slash. -/
def IsSlashLine (text : String) : Prop :=
  ∃ blanks kind, text.toList = blanks ++ '/' :: kind ∧ ∀ c ∈ blanks, isBlank c = true

/-- What an event of the transport is called: the text after its slash. -/
def slashKind (text : String) : String := String.ofList (trim (trimStart text.toList).tail)

theorem trimStart_append {blanks cs : List Char} (h : ∀ c ∈ blanks, isBlank c = true) :
    trimStart (blanks ++ cs) = trimStart cs := by
  unfold trimStart
  rw [List.dropWhile_append_of_pos h]

theorem isSlashLine_iff {text : String} :
    IsSlashLine text ↔ (trimStart text.toList).head? = some '/' := by
  constructor
  · rintro ⟨blanks, kind, ht, hb⟩
    rw [ht, trimStart_append hb]
    rfl
  · intro h
    cases hk : trimStart text.toList with
    | nil => rw [hk] at h; cases h
    | cons c kind =>
      rw [hk] at h
      cases h
      refine ⟨text.toList.takeWhile isBlank, kind, ?_, fun c hc => ?_⟩
      · rw [← hk, trimStart, List.takeWhile_append_dropWhile]
      · exact List.mem_takeWhile_imp hc

instance : DecidablePred IsBlankLine := fun _ => decidable_of_iff _ List.all_eq_true

instance : DecidablePred IsSlashLine := fun _ => decidable_of_iff _ isSlashLine_iff.symm

/-- The lines a session answers. -/
def messageLines (texts : List String) : List String :=
  texts.filter fun text => ¬ IsBlankLine text ∧ ¬ IsSlashLine text

theorem ofLine_eq (sender channel text : String) :
    ChatEvent.ofLine sender channel text =
      if IsBlankLine text then .blank
      else if IsSlashLine text then .unhandled (slashKind text)
      else .message ⟨text, sender, channel⟩ := by
  unfold ChatEvent.ofLine slashKind
  simp only [isSlashLine_iff, IsBlankLine, ← trimStart_eq_nil_iff]
  cases h : trimStart text.toList with
  | nil => rfl
  | cons c kind =>
    by_cases hc : c = '/'
    · subst hc; rfl
    · simp [hc]

/-! ## The fold -/

theorem Transcript.after_after (output output' : List UInt8) (log log' : List LogEvent)
    (t : Transcript) :
    (t.after output' log').after output log = t.after (output ++ output') (log ++ log') := by
  simp [Transcript.after]

/-- An ending that more answers went before. -/
def SessionEnding.plus (answered : Nat) : SessionEnding → SessionEnding
  | .finished n => .finished (answered + n)
  | ending => ending

namespace Session

/-- The message that a line is. -/
def messageOf (s : Session) (text : String) : ChatMessage := ⟨text, s.sender, s.channel⟩

/-- The replies to the messages among these lines, a line each. -/
def repliesTo (s : Session) (texts : List String) : List UInt8 :=
  (messageLines texts).flatMap fun text =>
    encodeUtf8 (s.responder.respond (s.messageOf text) ++ "\n")

/-- What is logged for the transport event of a line. -/
def noticeOf (s : Session) (text : String) : List LogEvent :=
  if s.logUnhandledEvents then [.eventUnhandled (slashKind text)] else []

/-- What is logged for a line. -/
def logOf (s : Session) (text : String) : List LogEvent :=
  if IsBlankLine text then []
  else if IsSlashLine text then s.noticeOf text
  else .messageReceived s.sender s.channel text :: s.responder.respondLog (s.messageOf text)

/-- What is logged for a line at the level that is shown by default. -/
def infoOf (s : Session) (text : String) : List LogEvent :=
  if IsBlankLine text then []
  else if IsSlashLine text then s.noticeOf text
  else [.messageReceived s.sender s.channel text]

theorem event_encodeUtf8 {s : Session} {line : List UInt8} {text : String}
    (h : chomp line = encodeUtf8 text) :
    s.event line = .ok (ChatEvent.ofLine s.sender s.channel text) := by
  have hd : decodeUtf8 (chomp line) = .ok text.toList := by
    rw [decodeUtf8_eq_ok_iff, h, String.ofList_toList]
  rw [event, hd]
  simp [Except.map]

/-- One line that is UTF-8, on an output that takes its reply: its reply and its log come first, and
a message counts. -/
theorem runLines_cons_of_hasRoom {s : Session} {line : List UInt8} {text : String}
    {room : Option Nat} (h : chomp line = encodeUtf8 text)
    (hroom : hasRoom room (s.repliesTo [text]) = true) (answered : Nat)
    (rest : List (List UInt8)) :
    s.runLines answered room (line :: rest) =
      (s.runLines (answered + (messageLines [text]).length)
        (room.map (· - (s.repliesTo [text]).length)) rest).after (s.repliesTo [text])
        (s.logOf text) := by
  rw [runLines, event_encodeUtf8 h, ofLine_eq]
  unfold repliesTo messageLines logOf at *
  by_cases hb : IsBlankLine text
  · simp [hb, Transcript.after]
  · by_cases hs : IsSlashLine text
    · simp [hb, hs, noticeOf, unhandledLog]
    · simp [hb, hs, messageOf] at hroom
      simp [hb, hs, replyOctets, messageLog, messageOf, hroom]

/-- What has room for two parts has room for the second after the first. -/
theorem hasRoom_append_iff {room : Option Nat} {as bs : List UInt8} :
    hasRoom room (as ++ bs) = true ↔
      hasRoom room as = true ∧ hasRoom (room.map (· - as.length)) bs = true := by
  cases room with
  | none => simp [hasRoom]
  | some n =>
    simp only [hasRoom, Option.map_some, List.length_append, decide_eq_true_eq]
    omega

theorem messageLines_append (texts texts' : List String) :
    messageLines (texts ++ texts') = messageLines texts ++ messageLines texts' :=
  List.filter_append ..

theorem repliesTo_append (s : Session) (texts texts' : List String) :
    s.repliesTo (texts ++ texts') = s.repliesTo texts ++ s.repliesTo texts' := by
  rw [repliesTo, messageLines_append, List.flatMap_append]
  rfl

/-- Any number of lines that are UTF-8, in front of others, on an output that takes their replies. -/
theorem runLines_append_of_hasRoom {s : Session} {ls : List (List UInt8)} {texts : List String}
    {room : Option Nat} (h : ls.map chomp = texts.map encodeUtf8)
    (hroom : hasRoom room (s.repliesTo texts) = true) (answered : Nat)
    (rest : List (List UInt8)) :
    s.runLines answered room (ls ++ rest) =
      (s.runLines (answered + (messageLines texts).length)
        (room.map (· - (s.repliesTo texts).length)) rest).after (s.repliesTo texts)
        (texts.flatMap s.logOf) := by
  induction ls generalizing texts answered room with
  | nil =>
    cases texts with
    | nil => cases room <;> rfl
    | cons text texts => simp at h
  | cons line ls ih =>
    cases texts with
    | nil => simp at h
    | cons text texts =>
      rw [List.map_cons, List.map_cons, List.cons.injEq] at h
      rw [show text :: texts = [text] ++ texts from rfl, repliesTo_append, hasRoom_append_iff] at hroom
      -- the answers so far are carried along, so the hypothesis is about any number of them
      rw [List.cons_append, runLines_cons_of_hasRoom h.1 hroom.1, ih h.2 hroom.2,
        Transcript.after_after, ← repliesTo_append, Nat.add_assoc, ← List.length_append,
        ← messageLines_append, Option.map_map]
      simp only [Function.comp_def, Nat.sub_sub, ← List.length_append, ← repliesTo_append]
      rfl

theorem runLines_append {s : Session} {ls : List (List UInt8)} {texts : List String}
    (h : ls.map chomp = texts.map encodeUtf8) (answered : Nat) (rest : List (List UInt8)) :
    s.runLines answered none (ls ++ rest) =
      (s.runLines (answered + (messageLines texts).length) none rest).after (s.repliesTo texts)
        (texts.flatMap s.logOf) :=
  runLines_append_of_hasRoom h rfl answered rest

/-- A line that is not UTF-8 ends the session where it stands. -/
theorem runLines_unreadable {s : Session} {line : List UInt8}
    (h : ∀ text, encodeUtf8 text ≠ chomp line) :
    ∃ fault, ∀ answered room rest,
      s.runLines answered room (line :: rest) = ⟨[], [], .unreadable fault⟩ := by
  cases hd : decodeUtf8 (chomp line) with
  | ok cs => exact absurd (decodeUtf8_eq_ok_iff.1 hd).symm (h _)
  | error fault =>
    refine ⟨fault, fun answered room rest => ?_⟩
    rw [runLines, event, hd]
    rfl

/-- What follows the first line that is not UTF-8 does not matter. -/
theorem runLines_of_unreadable {s : Session} {ls rest : List (List UInt8)} {line : List UInt8}
    {texts : List String} (h : ls.map chomp = texts.map encodeUtf8 ++ line :: rest)
    (hline : ∀ text, encodeUtf8 text ≠ line) :
    ∃ fault, ∀ answered more, s.runLines answered none (ls ++ more) =
      ⟨s.repliesTo texts, texts.flatMap s.logOf, .unreadable fault⟩ := by
  obtain ⟨ls, ls', rfl, hls, hls'⟩ := List.map_eq_append_iff.1 h
  cases ls' with
  | nil => cases hls'
  | cons bad ls' =>
    rw [List.map_cons, List.cons.injEq] at hls'
    obtain ⟨rfl, -⟩ := hls'
    obtain ⟨fault, hf⟩ := runLines_unreadable (s := s) hline
    refine ⟨fault, fun answered more => ?_⟩
    rw [List.append_assoc, runLines_append hls, List.cons_append, hf, Transcript.after,
      List.append_nil, List.append_nil]

/-- The lines are UTF-8 throughout, or up to the first that is not. -/
theorem texts_or_unreadable (ls : List (List UInt8)) :
    (∃ texts : List String, ls = texts.map encodeUtf8) ∨
      ∃ (texts : List String) (line : List UInt8) (rest : List (List UInt8)),
        ls = texts.map encodeUtf8 ++ line :: rest ∧ ∀ text, encodeUtf8 text ≠ line := by
  induction ls with
  | nil => exact .inl ⟨[], rfl⟩
  | cons line ls ih =>
    by_cases h : ∃ text, encodeUtf8 text = line
    · obtain ⟨text, rfl⟩ := h
      rcases ih with ⟨texts, rfl⟩ | ⟨texts, bad, rest, rfl, hbad⟩
      · exact .inl ⟨text :: texts, rfl⟩
      · exact .inr ⟨text :: texts, bad, rest, rfl, hbad⟩
    · exact .inr ⟨[], line, ls, rfl, fun text ht => h ⟨text, ht⟩⟩

/-! ## Whole inputs -/

theorem run_of_texts {s : Session} {input : List UInt8} {texts : List String}
    (h : Lined input (texts.map encodeUtf8)) :
    s.run none input =
      ⟨s.repliesTo texts, texts.flatMap s.logOf ++ [.sessionEnded (messageLines texts).length],
        .finished (messageLines texts).length⟩ := by
  rw [run, ← List.append_nil (lines input), runLines_append h.eq.symm, Nat.zero_add, runLines,
    Transcript.after, List.append_nil]

theorem run_of_unreadable {s : Session} {input line : List UInt8} {texts : List String}
    {rest : List (List UInt8)} (h : Lined input (texts.map encodeUtf8 ++ line :: rest))
    (hline : ∀ text, encodeUtf8 text ≠ line) :
    ∃ fault, s.run none input =
      ⟨s.repliesTo texts, texts.flatMap s.logOf, .unreadable fault⟩ := by
  obtain ⟨fault, hf⟩ := runLines_of_unreadable (s := s) h.eq.symm hline
  exact ⟨fault, by rw [run, ← List.append_nil (lines input), hf]⟩

/-- A session that is told to stop before its first line is the one on no input, but for the log of
being told. -/
theorem shutDown_eq (s : Session) (room : Option Nat) :
    s.shutDown = (s.run room []).after [] [.shutdownRequested] :=
  rfl

/-- How many answers went before changes only the number a session ends with. -/
theorem runLines_plus (s : Session) (answered : Nat) (ls : List (List UInt8)) :
    (s.runLines answered none ls).output = (s.runLines 0 none ls).output ∧
      (s.runLines answered none ls).ending = (s.runLines 0 none ls).ending.plus answered := by
  rcases texts_or_unreadable (ls.map chomp) with ⟨texts, h⟩ | ⟨texts, line, rest, h, hline⟩
  · rw [← List.append_nil ls, runLines_append h, runLines_append h, Nat.zero_add]
    exact ⟨rfl, rfl⟩
  · obtain ⟨fault, hf⟩ := runLines_of_unreadable (s := s) h hline
    rw [← List.append_nil ls, hf, hf]
    exact ⟨rfl, rfl⟩

/-- A session that came to the end of its input read texts only. -/
theorem lined_of_finished {s : Session} {input : List UInt8} {n : Nat}
    (h : (s.run none input).ending = .finished n) :
    ∃ texts : List String, Lined input (texts.map encodeUtf8) := by
  rcases texts_or_unreadable ((lines input).map chomp) with
    ⟨texts, ht⟩ | ⟨texts, line, rest, ht, hline⟩
  · exact ⟨texts, lined_iff.2 ht.symm⟩
  · obtain ⟨fault, hr⟩ := run_of_unreadable (s := s) (lined_iff.2 ht.symm) hline
    rw [hr] at h
    cases h

theorem run_append_of_finished {s : Session} {a b : List UInt8} {n : Nat}
    (ha : a = [] ∨ a.getLast? = some 10) (h : (s.run none a).ending = .finished n) :
    (s.run none (a ++ b)).output = (s.run none a).output ++ (s.run none b).output ∧
      (s.run none (a ++ b)).ending = (s.run none b).ending.plus n := by
  -- all of `a` was read, so the session on `a ++ b` is at the lines of `b` after `n` answers
  obtain ⟨texts, ht⟩ := lined_of_finished h
  have hr := run_of_texts (s := s) ht
  obtain ⟨ho, he⟩ := s.runLines_plus n (lines b)
  have hn : (messageLines texts).length = n := by
    rw [hr] at h
    exact SessionEnding.finished.inj h
  rw [hr, run, lines_append ha, runLines_append ht.eq.symm, Nat.zero_add, hn]
  exact ⟨congrArg _ ho, he⟩

theorem run_append_of_unreadable {s : Session} {a b : List UInt8} {fault : Utf8Fault}
    (ha : a = [] ∨ a.getLast? = some 10) (h : (s.run none a).ending = .unreadable fault) :
    s.run none (a ++ b) = s.run none a := by
  rcases texts_or_unreadable ((lines a).map chomp) with
    ⟨texts, ht⟩ | ⟨texts, line, rest, ht, hline⟩
  · rw [run_of_texts (lined_iff.2 ht.symm)] at h
    cases h
  · obtain ⟨fault, hf⟩ := runLines_of_unreadable (s := s) ht hline
    rw [run, run, lines_append ha, hf, ← List.append_nil (lines a), hf]

/-! ## What is shown of the log -/

theorem respondLog_level {r : Responder} {m : ChatMessage} {e : LogEvent}
    (h : e ∈ r.respondLog m) : e.level = .debug := by
  unfold Responder.respondLog at h
  cases hp : r.parse m with
  | ok request =>
    simp only [hp, List.mem_cons, List.not_mem_nil, or_false] at h
    rcases h with rfl | rfl <;> rfl
  | error e =>
    simp only [hp, List.mem_singleton] at h
    rw [h]
    rfl

theorem filter_logOf (s : Session) (text : String) :
    (s.logOf text).filter (fun e => e.level = .info) = s.infoOf text := by
  unfold logOf infoOf
  by_cases hb : IsBlankLine text
  · rw [if_pos hb, if_pos hb]
    rfl
  · rw [if_neg hb, if_neg hb]
    by_cases hs : IsSlashLine text
    · rw [if_pos hs, if_pos hs, noticeOf]
      split <;> rfl
    · rw [if_neg hs, if_neg hs, List.filter_cons_of_pos (by rfl), List.filter_eq_nil_iff.2]
      intro e he
      simp [respondLog_level he]

theorem filter_flatMap_logOf (s : Session) (texts : List String) :
    (texts.flatMap s.logOf).filter (fun e => e.level = .info) = texts.flatMap s.infoOf := by
  rw [List.filter_flatMap]
  exact congrArg (texts.flatMap ·) (funext s.filter_logOf)

/-! ## The main result -/

/-- A session is a faithful fold over the lines of its input. Every input is texts throughout, or up
to a line that is not UTF-8; what is written and logged is said of both, and of the second that the
session fails there. An input that ends with a line can be cut off from what follows. -/
theorem run_faithful (s : Session) :
    (∀ input : List UInt8,
      (∃ texts : List String, Lined input (texts.map encodeUtf8)) ∨
        ∃ (texts : List String) (line : List UInt8) (rest : List (List UInt8)),
          Lined input (texts.map encodeUtf8 ++ line :: rest) ∧
            ∀ text, encodeUtf8 text ≠ line) ∧
    (∀ (input : List UInt8) (texts : List String), Lined input (texts.map encodeUtf8) →
      s.run none input =
        ⟨s.repliesTo texts, texts.flatMap s.logOf ++ [.sessionEnded (messageLines texts).length],
          .finished (messageLines texts).length⟩) ∧
    (∀ (input : List UInt8) (texts : List String) (line : List UInt8) (rest : List (List UInt8)),
      Lined input (texts.map encodeUtf8 ++ line :: rest) → (∀ text, encodeUtf8 text ≠ line) →
      ∃ fault, s.run none input =
        ⟨s.repliesTo texts, texts.flatMap s.logOf, .unreadable fault⟩) ∧
    (∀ texts : List String,
      (texts.flatMap s.logOf).filter (fun e => e.level = .info) = texts.flatMap s.infoOf) ∧
    (∀ a b : List UInt8, (a = [] ∨ a.getLast? = some 10) →
      (∀ n, (s.run none a).ending = .finished n →
        (s.run none (a ++ b)).output = (s.run none a).output ++ (s.run none b).output ∧
          (s.run none (a ++ b)).ending = (s.run none b).ending.plus n) ∧
      (∀ fault, (s.run none a).ending = .unreadable fault →
        s.run none (a ++ b) = s.run none a)) := by
  refine ⟨fun input => ?_, fun _ _ => run_of_texts, fun _ _ _ _ => run_of_unreadable,
    s.filter_flatMap_logOf, fun a b ha => ⟨fun n => run_append_of_finished ha,
      fun fault => run_append_of_unreadable ha⟩⟩
  have h := lined_lines input
  rcases texts_or_unreadable ((lines input).map chomp) with
    ⟨texts, ht⟩ | ⟨texts, line, rest, ht, hline⟩
  · exact .inl ⟨texts, ht ▸ h⟩
  · exact .inr ⟨texts, line, rest, ht ▸ h, hline⟩

/-- A question, then an octet that no text has, then another question that is never read. -/
theorem run_faithful_question :
    Lined [63, 10] (["?"].map encodeUtf8) ∧
      (run ⟨⟨.empty, {}⟩, "u1", "#ops", true⟩ none [63, 10]).ending = .finished 1 ∧
      Lined [63, 10, 255, 10] (["?"].map encodeUtf8 ++ [255] :: []) ∧
      (∀ text, encodeUtf8 text ≠ [255]) ∧
      run ⟨⟨.empty, {}⟩, "u1", "#ops", true⟩ none ([63, 10, 255, 10] ++ [63]) =
        run ⟨⟨.empty, {}⟩, "u1", "#ops", true⟩ none [63, 10, 255, 10] := by
  have hq : Lined [63, 10] (["?"].map encodeUtf8) := lined_iff.2 (by decide)
  have hbad : Lined [63, 10, 255, 10] (["?"].map encodeUtf8 ++ [255] :: []) :=
    lined_iff.2 (by decide)
  have hno : ∀ text, encodeUtf8 text ≠ [255] := by
    intro text h
    have := decodeUtf8_eq_ok_iff.2 (String.ofList_toList (s := text) ▸ h.symm)
    cases this
  obtain ⟨-, hread, hfail, -, hcut⟩ := run_faithful ⟨⟨.empty, {}⟩, "u1", "#ops", true⟩
  obtain ⟨fault, hf⟩ := hfail _ _ _ _ hbad hno
  refine ⟨hq, ?_, hbad, hno, (hcut _ _ (by decide)).2 fault (by rw [hf])⟩
  rw [hread _ _ hq]
  decide

end Session

end ChatOps
