/-
Sessions on an output that has room for so many octets. As long as the replies fit, the session is the
one on an output without bounds. The first reply that does not fit is cut where the room ends, and the
session with it: what is written is the beginning of what would have been written, and nothing is
logged of the lines behind that message.
-/
import ChatOps.Proofs.Chat.Session

namespace ChatOps

open Text

/-- The event that a message arrived. -/
def LogEvent.isMessageReceived : LogEvent → Bool
  | .messageReceived .. => true
  | _ => false

namespace Session

/-! ## What a session reads and answers -/

/-- These are the texts of the lines of an input, or of those before the first that is not UTF-8. -/
def Reads (input : List UInt8) (texts : List String) : Prop :=
  Lined input (texts.map encodeUtf8) ∨
    ∃ (line : List UInt8) (rest : List (List UInt8)),
      Lined input (texts.map encodeUtf8 ++ line :: rest) ∧ ∀ text, encodeUtf8 text ≠ line

/-- The replies to the messages among these lines, each with the line feed that ends it. -/
def replies (s : Session) (texts : List String) : List (List UInt8) :=
  (messageLines texts).map fun text => encodeUtf8 (s.responder.respond (s.messageOf text) ++ "\n")

theorem exists_reads (input : List UInt8) : ∃ texts, Reads input texts := by
  have h := lined_lines input
  rcases texts_or_unreadable ((lines input).map chomp) with
    ⟨texts, ht⟩ | ⟨texts, line, rest, ht, hline⟩
  · exact ⟨texts, .inl (ht ▸ h)⟩
  · exact ⟨texts, .inr ⟨line, rest, ht ▸ h, hline⟩⟩

variable {s : Session} {input : List UInt8} {texts : List String}

theorem flatten_replies (s : Session) (texts : List String) :
    (s.replies texts).flatten = s.repliesTo texts := by
  rw [replies, repliesTo, List.flatMap_def]

theorem replies_append (s : Session) (texts texts' : List String) :
    s.replies (texts ++ texts') = s.replies texts ++ s.replies texts' := by
  rw [replies, messageLines_append, List.map_append]
  rfl

theorem length_replies (s : Session) (texts : List String) :
    (s.replies texts).length = (messageLines texts).length := List.length_map ..

/-- The lines behind those that are read are the same on every output. -/
theorem exists_runLines_of_reads (s : Session) (h : Reads input texts) :
    ∃ ls more, lines input = ls ++ more ∧ ls.map chomp = texts.map encodeUtf8 ∧
      ∀ answered room room',
        s.runLines answered room more = s.runLines answered room' more ∧
          (s.runLines answered room more).output = [] := by
  rcases h with h | ⟨line, rest, h, hline⟩
  · refine ⟨lines input, [], (List.append_nil _).symm, h.eq.symm, fun answered room room' => ?_⟩
    exact ⟨rfl, rfl⟩
  · obtain ⟨ls, more, hlines, hls, hmore⟩ := List.map_eq_append_iff.1 h.eq.symm
    obtain ⟨bad, more, rfl, rfl, -⟩ := List.map_eq_cons_iff.1 hmore
    obtain ⟨fault, hf⟩ := runLines_unreadable (s := s) hline
    refine ⟨ls, bad :: more, hlines, hls, fun answered room room' => ?_⟩
    rw [hf, hf]
    exact ⟨rfl, rfl⟩

/-- Without bounds, what is written are the replies. -/
theorem output_run (h : Reads input texts) :
    (s.run none input).output = s.repliesTo texts := by
  obtain ⟨ls, more, hlines, hls, hmore⟩ := s.exists_runLines_of_reads h
  rw [run, hlines, runLines_append hls, Transcript.after, (hmore _ none none).2, List.append_nil]

/-- A session whose replies fit does not notice the bound. -/
theorem run_of_le {room : Nat} (h : Reads input texts)
    (hroom : (s.repliesTo texts).length ≤ room) : s.run (some room) input = s.run none input := by
  obtain ⟨ls, more, hlines, hls, hmore⟩ := s.exists_runLines_of_reads h
  have hfits : hasRoom (some room) (s.repliesTo texts) = true := decide_eq_true hroom
  rw [run, run, hlines, runLines_append_of_hasRoom hls hfits, runLines_append hls]
  rw [(hmore _ _ none).1]

/-! ## The reply that does not fit -/

/-- Where pieces are too long for a room, one of them is the first that goes beyond it. -/
theorem exists_cut {α β : Type} {f : α → List β} {as : List α} {n : Nat}
    (h : n < (as.flatMap f).length) :
    ∃ before a after, as = before ++ a :: after ∧ (before.flatMap f).length ≤ n ∧
      n < ((before ++ [a]).flatMap f).length := by
  induction as generalizing n with
  | nil => exact absurd h (Nat.not_lt_zero n)
  | cons a as ih =>
    rw [List.flatMap_cons, List.length_append] at h
    by_cases ha : n < (f a).length
    · refine ⟨[], a, as, rfl, Nat.zero_le n, ?_⟩
      simpa using ha
    · have hrest : n - (f a).length < (as.flatMap f).length := by omega
      obtain ⟨before, b, after, rfl, hle, hlt⟩ := ih hrest
      refine ⟨a :: before, b, after, rfl, ?_, ?_⟩
      · rw [List.flatMap_cons, List.length_append]
        omega
      · rw [List.cons_append, List.flatMap_cons, List.length_append]
        omega

theorem repliesTo_eq_flatMap (s : Session) (texts : List String) :
    s.repliesTo texts = texts.flatMap fun text => s.repliesTo [text] := by
  induction texts with
  | nil => rw [repliesTo, messageLines, List.filter_nil, List.flatMap_nil, List.flatMap_nil]
  | cons text texts ih =>
    rw [List.flatMap_cons, ← ih, ← repliesTo_append, List.singleton_append]

/-- Only a message has a reply that may not fit. -/
theorem message_of_lt {text : String} {room : Nat} (h : room < (s.repliesTo [text]).length) :
    ¬ IsBlankLine text ∧ ¬ IsSlashLine text := by
  by_contra hno
  rw [repliesTo, messageLines, List.filter_cons_of_neg (by simpa using hno)] at h
  exact Nat.not_lt_zero room h

/-- A line whose reply does not fit ends the session. -/
theorem runLines_cons_of_lt {line : List UInt8} {text : String} {room : Nat}
    (h : chomp line = encodeUtf8 text) (hroom : room < (s.repliesTo [text]).length)
    (answered : Nat) (rest : List (List UInt8)) :
    s.runLines answered (some room) (line :: rest) =
      ⟨(s.repliesTo [text]).take room, s.logOf text, .unwritable⟩ := by
  obtain ⟨hb, hs⟩ := message_of_lt hroom
  have hreply : s.repliesTo [text] = s.replyOctets ⟨text, s.sender, s.channel⟩ := by
    simp [repliesTo, messageLines, hb, hs, replyOctets, messageOf]
  have hno : ¬ hasRoom (some room) (s.replyOctets ⟨text, s.sender, s.channel⟩) = true := by
    rw [← hreply, hasRoom, decide_eq_true_eq]
    exact Nat.not_le.2 hroom
  rw [runLines, event_encodeUtf8 h, ofLine_eq, if_neg hb, if_neg hs, logOf, if_neg hb, if_neg hs,
    hreply]
  simp only [if_neg hno, Option.getD_some, messageLog, messageOf]

/-- The session up to and with the first reply that does not fit. -/
theorem runLines_of_cut {ls rest : List (List UInt8)} {before after : List String} {text : String}
    {room : Nat} (h : ls.map chomp = (before ++ text :: after).map encodeUtf8)
    (hle : (s.repliesTo before).length ≤ room)
    (hlt : room < (s.repliesTo (before ++ [text])).length) (answered : Nat) :
    s.runLines answered (some room) (ls ++ rest) =
      ⟨(s.repliesTo (before ++ [text])).take room, (before ++ [text]).flatMap s.logOf,
        .unwritable⟩ := by
  rw [List.map_append, List.map_cons] at h
  obtain ⟨ls, ls', rfl, hls, hls'⟩ := List.map_eq_append_iff.1 h
  obtain ⟨line, ls', rfl, hline, -⟩ := List.map_eq_cons_iff.1 hls'
  have hfits : hasRoom (some room) (s.repliesTo before) = true := decide_eq_true hle
  rw [repliesTo_append, List.length_append] at hlt
  have hlt' : room - (s.repliesTo before).length < (s.repliesTo [text]).length := by omega
  rw [List.append_assoc, List.cons_append, runLines_append_of_hasRoom hls hfits, Option.map_some,
    runLines_cons_of_lt hline hlt', Transcript.after, repliesTo_append, List.take_append,
    List.take_of_length_le hle, List.flatMap_append, List.flatMap_singleton]

/-! ## What is logged -/

/-- Of what is logged for lines, the arrivals count the messages among them. -/
theorem countP_flatMap_logOf (s : Session) (texts : List String) :
    (texts.flatMap s.logOf).countP LogEvent.isMessageReceived = (messageLines texts).length := by
  have hrespond : ∀ m, (s.responder.respondLog m).countP LogEvent.isMessageReceived = 0 := by
    intro m
    unfold Responder.respondLog
    cases s.responder.parse m <;> rfl
  have hline : ∀ text, (s.logOf text).countP LogEvent.isMessageReceived =
      (messageLines [text]).length := by
    intro text
    unfold logOf messageLines
    by_cases hb : IsBlankLine text
    · simp [hb]
    · by_cases hs : IsSlashLine text
      · rw [if_neg hb, if_pos hs, noticeOf, List.filter_cons_of_neg (by simp [hs])]
        split <;> rfl
      · rw [if_neg hb, if_neg hs, List.filter_cons_of_pos (by simp [hb, hs]),
          List.countP_cons_of_pos rfl, hrespond]
        rfl
  induction texts with
  | nil => rfl
  | cons text texts ih =>
    rw [List.flatMap_cons, List.countP_append, hline, ih, ← List.length_append,
      ← messageLines_append]
    rfl

/-- The end of a session is not logged for any line. -/
theorem sessionEnded_not_mem_logOf (s : Session) (text : String) (n : Nat) :
    .sessionEnded n ∉ s.logOf text := by
  have hrespond : ∀ m, .sessionEnded n ∉ s.responder.respondLog m := by
    intro m h
    have := respondLog_level h
    cases this
  unfold logOf
  by_cases hb : IsBlankLine text
  · simp [hb]
  · by_cases hs : IsSlashLine text
    · simp only [hb, hs, if_true, if_false, noticeOf]
      split <;> simp
    · simp [hb, hs, hrespond]

/-! ## The main result -/

/-- A bound on the output costs a session its tail only. If what it writes fits, it is the session
without the bound. If not, it fails at the first reply that does not fit: what would have been written
is written up to the bound, the end is not logged, and one more message has arrived than there are
replies in full. -/
theorem run_limited (s : Session) (input : List UInt8) :
    ∃ texts : List String, Reads input texts ∧
      (s.run none input).output = (s.replies texts).flatten ∧
      ∀ room : Nat,
        ((s.run none input).output.length ≤ room →
          s.run (some room) input = s.run none input) ∧
        (room < (s.run none input).output.length →
          (s.run (some room) input).ending = .unwritable ∧
          (s.run (some room) input).output = (s.run none input).output.take room ∧
          (∀ n, .sessionEnded n ∉ (s.run (some room) input).log) ∧
          ∃ (done : List (List UInt8)) (cut : List UInt8) (rest : List (List UInt8)),
            s.replies texts = done ++ cut :: rest ∧ done.flatten.length ≤ room ∧
              room < (done ++ [cut]).flatten.length ∧
              (s.run (some room) input).log.countP LogEvent.isMessageReceived =
                done.length + 1) := by
  obtain ⟨texts, hreads⟩ := exists_reads input
  have hout := output_run (s := s) hreads
  refine ⟨texts, hreads, by rw [hout, flatten_replies], fun room => ⟨fun hle => ?_, fun hlt => ?_⟩⟩
  · exact run_of_le hreads (hout ▸ hle)
  · rw [hout] at hlt ⊢
    obtain ⟨ls, more, hlines, hls, -⟩ := s.exists_runLines_of_reads hreads
    -- the lines up to the message whose reply does not fit
    rw [repliesTo_eq_flatMap] at hlt
    obtain ⟨before, text, after, rfl, hfits, hcut⟩ := exists_cut hlt
    rw [← repliesTo_eq_flatMap] at hfits hcut
    have hrest : before ++ text :: after = (before ++ [text]) ++ after := by simp
    rw [run, hlines, runLines_of_cut hls hfits hcut]
    refine ⟨rfl, ?_, fun n hn => ?_, ?_⟩
    · rw [hrest, repliesTo_append s _ after, List.take_append_of_le_length hcut.le]
    · obtain ⟨line, -, hmem⟩ := List.mem_flatMap.1 hn
      exact s.sessionEnded_not_mem_logOf line n hmem
    · have hlast : room - (s.repliesTo before).length < (s.repliesTo [text]).length := by
        rw [repliesTo_append, List.length_append] at hcut
        omega
      have hone : messageLines [text] = [text] :=
        List.filter_cons_of_pos (by simpa using message_of_lt hlast)
      obtain ⟨cut, hreply⟩ : ∃ cut, s.replies [text] = [cut] := ⟨_, by rw [replies, hone]; rfl⟩
      refine ⟨s.replies before, cut, s.replies after, ?_, ?_, ?_, ?_⟩
      · rw [hrest, replies_append, replies_append, hreply, List.append_assoc]
        rfl
      · rwa [flatten_replies]
      · rwa [← hreply, ← replies_append, flatten_replies]
      · rw [countP_flatMap_logOf, messageLines_append, hone, List.length_append, length_replies]
        rfl

/-- Two questions on an output with room for the first reply and one octet more, and on one that has
room for both. -/
theorem run_limited_questions :
    let s : Session := ⟨⟨.empty, {}⟩, "u1", "#ops", true⟩
    let input : List UInt8 := [63, 10, 63, 10]
    let room := ((s.run none [63, 10]).output).length + 1
    room < (s.run none input).output.length ∧
      (s.run (some room) input).ending = .unwritable ∧
      (s.run none input).output.length ≤ 2 * room ∧
      s.run (some (2 * room)) input = s.run none input := by
  intro s input room
  obtain ⟨texts, -, -, h⟩ := run_limited s input
  have hlt : room < (s.run none input).output.length := by decide +kernel
  have hle : (s.run none input).output.length ≤ 2 * room := by decide +kernel
  exact ⟨hlt, ((h room).2 hlt).1, hle, (h (2 * room)).1 hle⟩

end Session

end ChatOps
