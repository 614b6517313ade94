/-
The bot keeps its secret. Two trees of settings that differ below secret keys only, where the secret
is set on both sides, are listed the same. What a loading logs and what a chat reads of the settings
is all in their listing, so what is written, logged and counted does not depend on the token.
-/
import ChatOps.Chat.Session
import ChatOps.Config.Load

namespace ChatOps

open Text

/-! ## Settings that differ in their secrets -/

namespace Config

/-- A value that is there and has no settings below it. -/
def IsSetLeaf : Json → Prop
  | .null | .object _ => False
  | _ => True

mutual

/-- Two values under a key that differ in secrets only. No secret is set on one side alone. -/
inductive SameButSecrets : String → Json → Json → Prop
  | refl (key : String) (j : Json) : SameButSecrets key j j
  | secret {key : String} {j j' : Json} (hkey : key ∈ secretKeys) (hj : IsSetLeaf j)
      (hj' : IsSetLeaf j') : SameButSecrets key j j'
  | object {key : String} {fields fields' : List (String × Json)}
      (hfields : SameFieldsButSecrets key fields fields') :
      SameButSecrets key (.object fields) (.object fields')

/-- Two sections under a key with the same names, whose values differ in secrets only. -/
inductive SameFieldsButSecrets : String → List (String × Json) → List (String × Json) → Prop
  | nil (key : String) : SameFieldsButSecrets key [] []
  | cons {key name : String} {j j' : Json} {fields fields' : List (String × Json)}
      (hj : SameButSecrets (keyIn key name) j j')
      (hfields : SameFieldsButSecrets key fields fields') :
      SameFieldsButSecrets key ((name, j) :: fields) ((name, j') :: fields')

end

theorem SameFieldsButSecrets.refl (key : String) (fields : List (String × Json)) :
    SameFieldsButSecrets key fields fields := by
  induction fields with
  | nil => exact .nil key
  | cons field fields ih => exact .cons (.refl _ field.2) ih

theorem settingsUnder_of_secret {key : String} {j : Json} (hkey : key ∈ secretKeys)
    (hj : IsSetLeaf j) : settingsUnder key j = [(key, "********")] := by
  cases j with
  | null => cases hj
  | object fields => cases hj
  | bool b => simp [settingsUnder, showValue, hkey]
  | number mantissa scale => simp [settingsUnder, showValue, hkey]
  | string s => simp [settingsUnder, showValue, hkey]
  | array items => simp [settingsUnder, showValue, hkey]

mutual

/-- A listing does not tell two secrets apart. -/
theorem SameButSecrets.settingsUnder_eq {key : String} {j j' : Json} :
    SameButSecrets key j j' → settingsUnder key j = settingsUnder key j'
  | .refl key j => rfl
  | .secret hkey hj hj' => by
    rw [settingsUnder_of_secret hkey hj, settingsUnder_of_secret hkey hj']
  | .object hfields => by
    rw [settingsUnder, settingsUnder, hfields.settingsOfFields_eq]

theorem SameFieldsButSecrets.settingsOfFields_eq {key : String}
    {fields fields' : List (String × Json)} :
    SameFieldsButSecrets key fields fields' →
      settingsOfFields key fields = settingsOfFields key fields'
  | .nil key => rfl
  | .cons hj hfields => by
    rw [settingsOfFields, settingsOfFields, hj.settingsUnder_eq, hfields.settingsOfFields_eq]

end

theorem sameButSecrets_toJson (c : Config) (token token' : String) :
    SameButSecrets "" { c with token := some token }.toJson
      { c with token := some token' }.toJson :=
  have htoken : keyIn (keyIn "" "slack") "token" ∈ secretKeys := by simp [keyIn, secretKeys]
  .object (.cons (.object (.cons (.secret htoken trivial trivial) (.refl _ _))) (.refl _ _))

theorem entries_token (c : Config) (token token' : String) :
    { c with token := some token }.entries = { c with token := some token' }.entries := by
  rw [entries, entries, (sameButSecrets_toJson c token token').settingsUnder_eq]

/-! ## Settings that are listed the same -/

variable {c c' : Config}

/-- A listing shows the name of the bot and the log level as they are. -/
theorem eq_of_entries (h : c.entries = c'.entries) :
    c.botName = c'.botName ∧ c.logLevel = c'.logLevel := by
  rw [entries_eq, entries_eq] at h
  simp only [List.cons.injEq, Prod.mk.injEq, true_and] at h
  exact ⟨h.1, h.2.1⟩

theorem lookup_of_entries (h : c.entries = c'.entries) (key : String) :
    c.lookup key = c'.lookup key := by
  rw [lookup, lookup, h]

/-- A loading logs nothing of the settings that their listing does not show. -/
theorem loadLog_of_entries (h : c.entries = c'.entries) : c.loadLog = c'.loadLog := by
  obtain ⟨hname, hlevel⟩ := eq_of_entries h
  rw [loadLog, loadLog, hname, hlevel]

end Config

/-! ## Answers -/

namespace Responder

variable {registry : Registry} {c c' : Config}

theorem configReply_of_entries (h : c.entries = c'.entries) (request : Request) :
    configReply ⟨registry, c⟩ request = configReply ⟨registry, c'⟩ request := by
  have hlookup : ∀ key, configReply.lookupReply ⟨registry, c⟩ key =
      configReply.lookupReply ⟨registry, c'⟩ key := by
    intro key
    rw [configReply.lookupReply, configReply.lookupReply, Config.lookup_of_entries h]
  unfold configReply
  simp only [h, hlookup]

theorem answer_of_entries (h : c.entries = c'.entries) (request : Request) :
    answer ⟨registry, c⟩ request = answer ⟨registry, c'⟩ request := by
  unfold answer
  rw [configReply_of_entries h]

theorem parse_of_entries (h : c.entries = c'.entries) (m : ChatMessage) :
    parse ⟨registry, c⟩ m = parse ⟨registry, c'⟩ m := by
  unfold parse
  rw [(Config.eq_of_entries h).1]

theorem respond_of_entries (h : c.entries = c'.entries) (m : ChatMessage) :
    respond ⟨registry, c⟩ m = respond ⟨registry, c'⟩ m := by
  unfold respond
  rw [parse_of_entries h]
  cases parse ⟨registry, c'⟩ m with
  | error e => rfl
  | ok request => exact answer_of_entries h request

theorem respondLog_of_entries (h : c.entries = c'.entries) (m : ChatMessage) :
    respondLog ⟨registry, c⟩ m = respondLog ⟨registry, c'⟩ m := by
  unfold respondLog
  rw [parse_of_entries h]

end Responder

/-! ## Sessions -/

namespace Session

variable {registry : Registry} {c c' : Config} {sender channel : String} {logged : Bool}

/-- Line by line: what is read is the same on both sides, and so is what is written and logged. -/
theorem runLines_of_entries (h : c.entries = c'.entries) (answered : Nat) (room : Option Nat)
    (ls : List (List UInt8)) :
    runLines ⟨⟨registry, c⟩, sender, channel, logged⟩ answered room ls =
      runLines ⟨⟨registry, c'⟩, sender, channel, logged⟩ answered room ls := by
  have hevent : ∀ line, event ⟨⟨registry, c⟩, sender, channel, logged⟩ line =
      event ⟨⟨registry, c'⟩, sender, channel, logged⟩ line := fun _ => rfl
  have hreply : ∀ m, replyOctets ⟨⟨registry, c⟩, sender, channel, logged⟩ m =
      replyOctets ⟨⟨registry, c'⟩, sender, channel, logged⟩ m := fun m => by
    rw [replyOctets, replyOctets, Responder.respond_of_entries h]
  have hlog : ∀ m, messageLog ⟨⟨registry, c⟩, sender, channel, logged⟩ m =
      messageLog ⟨⟨registry, c'⟩, sender, channel, logged⟩ m := fun m => by
    rw [messageLog, messageLog, Responder.respondLog_of_entries h]
  have hnotice : ∀ kind, unhandledLog ⟨⟨registry, c⟩, sender, channel, logged⟩ kind =
      unhandledLog ⟨⟨registry, c'⟩, sender, channel, logged⟩ kind := fun _ => rfl
  -- answers so far and room left go from line to line
  induction ls generalizing answered room with
  | nil => rfl
  | cons line ls ih =>
    rw [runLines, runLines, hevent]
    cases event ⟨⟨registry, c'⟩, sender, channel, logged⟩ line with
    | error fault => rfl
    | ok e =>
      cases e with
      | blank => exact ih answered room
      | unhandled kind => simp only [hnotice, ih]
      | message m => simp only [hreply, hlog, ih]

theorem run_of_entries (h : c.entries = c'.entries) (room : Option Nat) (input : List UInt8) :
    run ⟨⟨registry, c⟩, sender, channel, logged⟩ room input =
      run ⟨⟨registry, c'⟩, sender, channel, logged⟩ room input :=
  runLines_of_entries h 0 room (lines input)

end Session

/-- Whatever the token is, settings are listed and found the same, loading them logs the same,
messages are answered the same, and a session on any input, with any room for its output, writes and
logs the same octets and events and ends the same way. -/
theorem token_secret (c : Config) (token token' : String) :
    let shown : Config := { c with token := some token }
    let shown' : Config := { c with token := some token' }
    shown.entries = shown'.entries ∧
    (∀ key, shown.lookup key = shown'.lookup key) ∧
    shown.loadLog = shown'.loadLog ∧
    (∀ registry m, Responder.respond ⟨registry, shown⟩ m =
      Responder.respond ⟨registry, shown'⟩ m) ∧
    ∀ registry sender channel logged room input,
      Session.run ⟨⟨registry, shown⟩, sender, channel, logged⟩ room input =
        Session.run ⟨⟨registry, shown'⟩, sender, channel, logged⟩ room input := by
  have h := Config.entries_token c token token'
  exact ⟨h, Config.lookup_of_entries h, Config.loadLog_of_entries h,
    fun _ m => Responder.respond_of_entries h m,
    fun _ _ _ _ room input => Session.run_of_entries h room input⟩

end ChatOps
