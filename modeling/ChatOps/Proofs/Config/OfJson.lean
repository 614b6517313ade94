/-
Settings in JSON. A section is an object of named fields, an array of the first ones, or left out.
The settings that JSON gives are the defaults with the layer laid on them that the fields name, and
the JSON that settings are written as gives these settings again.
-/
import ChatOps.Config.Layer
import ChatOps.Config.OfJson
import Mathlib.Data.List.Basic

namespace ChatOps

namespace Config

variable {names : List String} {json : Option Json} {items : List Json}

/-! ## Sections -/

/-- The values of the fields of a section, none for a field that it leaves out. -/
inductive Fields (names : List String) : Option Json → List (Option Json) → Prop
  | absent : Fields names none (List.replicate names.length none)
  | object (fields : List (String × Json)) :
      Fields names (some (.object fields)) (names.map (Json.field? fields))
  | array {items : List Json} {missing : Nat} : items.length + missing = names.length →
      Fields names (some (.array items)) (items.map some ++ List.replicate missing none)

theorem Fields.length_eq {values : List (Option Json)} (h : Fields names json values) :
    values.length = names.length := by
  cases h with
  | absent => exact List.length_replicate
  | object fields => exact List.length_map _
  | array hlength => rw [List.length_append, List.length_map, List.length_replicate, hlength]

/-- The items by their places, and nothing behind the last. -/
theorem map_zipIdx_items (h : items.length ≤ names.length) :
    (names.zipIdx.map fun (_, i) => items[i]?) =
      items.map some ++ List.replicate (names.length - items.length) none := by
  refine List.ext_getElem? fun i => ?_
  rw [List.getElem?_map, List.getElem?_zipIdx, List.getElem?_append, List.length_map,
    List.getElem?_map, List.getElem?_replicate]
  by_cases hitems : i < items.length
  · have hnames : i < names.length := by omega
    simp [hitems, hnames]
  · by_cases hnames : i < names.length
    · have hmissing : i - items.length < names.length - items.length := by omega
      simp [hitems, hnames, hmissing]
    · have hmissing : ¬ i - items.length < names.length - items.length := by omega
      simp [hitems, hnames, hmissing]

theorem sectionOfJson?_eq_some_iff {values : List (Option Json)} :
    sectionOfJson? names json = some values ↔ Fields names json values := by
  constructor
  · intro h
    unfold sectionOfJson? at h
    split at h
    · cases h
      rw [List.map_const']
      exact .absent
    · unfold fieldsOfJson? at h
      split at h
      · cases h
        exact .object _
      · split at h
        · rename_i hlength
          cases h
          rw [map_zipIdx_items hlength]
          exact .array (by omega)
        · cases h
      · cases h
  · intro h
    cases h with
    | absent => rw [sectionOfJson?, List.map_const']
    | object fields => rfl
    | @array items missing hlength =>
      have hle : items.length ≤ names.length := by omega
      obtain rfl : missing = names.length - items.length := by omega
      rw [sectionOfJson?, fieldsOfJson?, if_pos hle, map_zipIdx_items hle]

theorem map_field?_zip {missing : Nat} (hnames : names.Nodup)
    (h : items.length + missing = names.length) :
    names.map (Json.field? (names.zip items)) = items.map some ++ List.replicate missing none := by
  induction names generalizing items with
  | nil =>
    obtain ⟨hitems, rfl⟩ := Nat.add_eq_zero_iff.1 h
    rw [List.eq_nil_of_length_eq_zero hitems]
    rfl
  | cons name names ih =>
    obtain ⟨hname, hnames⟩ := List.nodup_cons.1 hnames
    cases items with
    | nil =>
      obtain rfl : missing = (name :: names).length := by simpa using h
      exact List.map_const' ..
    | cons item items =>
      have hlength : items.length + missing = names.length := by
        simpa [Nat.add_right_comm] using h
      have hrest : names.map (Json.field? ((name, item) :: names.zip items)) =
          names.map (Json.field? (names.zip items)) := by
        refine List.map_congr_left fun other hother => ?_
        have hne : (other == name) = false := beq_eq_false_iff_ne.2 fun e => hname (e ▸ hother)
        rw [Json.field?, List.lookup_cons, hne]
        rfl
      rw [List.zip_cons_cons, List.map_cons, hrest, ih hnames hlength]
      rw [Json.field?, List.lookup_cons, beq_self_eq_true]
      rfl

/-- An array is read as the object that gives its items the names of the fields, in their order. -/
theorem fieldsOfJson?_array (hnames : names.Nodup) (h : items.length ≤ names.length) :
    fieldsOfJson? names (.array items) = fieldsOfJson? names (.object (names.zip items)) := by
  rw [fieldsOfJson?, fieldsOfJson?, if_pos h, map_zipIdx_items h,
    map_field?_zip hnames (Nat.add_sub_of_le h)]

/-! ## Settings -/

/-- The value of a field, which may be left out. -/
inductive Names {α : Type} (write : α → Json) : Option Json → Option α → Prop
  | absent : Names write none none
  | present (a : α) : Names write (some (write a)) (some a)

/-- JSON states the settings of a layer. A token that is `null` is one that is left out. -/
inductive States (json : Json) : ConfigLayer → Prop
  | intro {slack bot logging token logUnhandledEvents botName logLevel : Option Json}
      {l : ConfigLayer} :
      Fields ["slack", "bot", "logging"] (some json) [slack, bot, logging] →
      Fields ["token", "log_unhandled_events"] slack [token, logUnhandledEvents] →
      Fields ["name"] bot [botName] →
      Fields ["level"] logging [logLevel] →
      token.getD .null = .ofOption l.token →
      Names .bool logUnhandledEvents l.logUnhandledEvents →
      Names .string botName l.botName →
      Names .string logLevel l.logLevel →
      States json l

theorem tokenOfJson?_eq_some_iff {token : Option String} :
    tokenOfJson? json = some token ↔ json.getD .null = .ofOption token := by
  constructor
  · intro h
    unfold tokenOfJson? at h
    split at h <;> cases h <;> rfl
  · intro h
    cases json with
    | none =>
      cases token with
      | none => rfl
      | some token => cases h
    | some json =>
      rw [Option.getD_some] at h
      subst h
      cases token with
      | none => rfl
      | some token => rfl

theorem valueOfJson?_eq_some_iff {α : Type} {read : Json → Option α} {write : α → Json}
    (hread : ∀ {j a}, read j = some a ↔ j = write a) {default a : α} :
    valueOfJson? read default json = some a ↔
      ∃ named, Names write json named ∧ a = named.getD default := by
  constructor
  · intro h
    cases json with
    | none =>
      cases h
      exact ⟨none, .absent, rfl⟩
    | some j =>
      obtain rfl := hread.1 h
      exact ⟨some a, .present a, rfl⟩
  · rintro ⟨named, h, rfl⟩
    cases h with
    | absent => rfl
    | present a => exact hread.2 rfl

theorem bool?_eq_some_iff {j : Json} {b : Bool} : j.bool? = some b ↔ j = .bool b := by
  constructor
  · intro h
    cases j <;> cases h
    rfl
  · rintro rfl
    rfl

theorem string?_eq_some_iff {j : Json} {s : String} : j.string? = some s ↔ j = .string s := by
  constructor
  · intro h
    cases j <;> cases h
    rfl
  · rintro rfl
    rfl

theorem merge_default (l : ConfigLayer) : ({} : Config).merge l =
    { token := l.token
      logUnhandledEvents := l.logUnhandledEvents.getD ({} : Config).logUnhandledEvents
      botName := l.botName.getD ({} : Config).botName
      logLevel := l.logLevel.getD ({} : Config).logLevel } := by
  simp [merge]

/-- The settings taken from JSON are the defaults with the stated layer laid on them. -/
theorem ofJson?_eq_some_iff {json : Json} {c : Config} :
    ofJson? json = some c ↔ ∃ l, States json l ∧ c = ({} : Config).merge l := by
  constructor
  · intro h
    unfold ofJson? at h
    obtain ⟨sections, hsections, h⟩ := Option.bind_eq_some_iff.1 h
    have hsections : Fields _ (some json) sections := sectionOfJson?_eq_some_iff.1 hsections
    obtain ⟨slack, bot, logging, rfl⟩ := List.length_eq_three.1 hsections.length_eq
    obtain ⟨fields, hslack, h⟩ := Option.bind_eq_some_iff.1 h
    have hslack := sectionOfJson?_eq_some_iff.1 hslack
    obtain ⟨token, logUnhandledEvents, rfl⟩ := List.length_eq_two.1 hslack.length_eq
    obtain ⟨fields, hbot, h⟩ := Option.bind_eq_some_iff.1 h
    have hbot := sectionOfJson?_eq_some_iff.1 hbot
    obtain ⟨botName, rfl⟩ := List.length_eq_one_iff.1 hbot.length_eq
    obtain ⟨fields, hlogging, h⟩ := Option.bind_eq_some_iff.1 h
    have hlogging := sectionOfJson?_eq_some_iff.1 hlogging
    obtain ⟨logLevel, rfl⟩ := List.length_eq_one_iff.1 hlogging.length_eq
    obtain ⟨tokenValue, htoken, h⟩ := Option.bind_eq_some_iff.1 h
    obtain ⟨_, hread, h⟩ := Option.bind_eq_some_iff.1 h
    obtain ⟨unhandled, hunhandled, rfl⟩ := (valueOfJson?_eq_some_iff bool?_eq_some_iff).1 hread
    obtain ⟨_, hread, h⟩ := Option.bind_eq_some_iff.1 h
    obtain ⟨name, hname, rfl⟩ := (valueOfJson?_eq_some_iff string?_eq_some_iff).1 hread
    obtain ⟨_, hread, h⟩ := Option.bind_eq_some_iff.1 h
    obtain ⟨level, hlevel, rfl⟩ := (valueOfJson?_eq_some_iff string?_eq_some_iff).1 hread
    cases h
    refine ⟨⟨tokenValue, unhandled, name, level⟩, ?_, ?_⟩
    · exact ⟨hsections, hslack, hbot, hlogging, tokenOfJson?_eq_some_iff.1 htoken, hunhandled,
        hname, hlevel⟩
    · rw [merge_default]
  · rintro ⟨l, ⟨hsections, hslack, hbot, hlogging, htoken, hunhandled, hname, hlevel⟩, rfl⟩
    refine Option.bind_eq_some_iff.2 ⟨_, sectionOfJson?_eq_some_iff.2 hsections, ?_⟩
    refine Option.bind_eq_some_iff.2 ⟨_, sectionOfJson?_eq_some_iff.2 hslack, ?_⟩
    refine Option.bind_eq_some_iff.2 ⟨_, sectionOfJson?_eq_some_iff.2 hbot, ?_⟩
    refine Option.bind_eq_some_iff.2 ⟨_, sectionOfJson?_eq_some_iff.2 hlogging, ?_⟩
    refine Option.bind_eq_some_iff.2 ⟨_, tokenOfJson?_eq_some_iff.2 htoken, ?_⟩
    refine Option.bind_eq_some_iff.2 ⟨_,
      (valueOfJson?_eq_some_iff bool?_eq_some_iff).2 ⟨_, hunhandled, rfl⟩, ?_⟩
    refine Option.bind_eq_some_iff.2 ⟨_,
      (valueOfJson?_eq_some_iff string?_eq_some_iff).2 ⟨_, hname, rfl⟩, ?_⟩
    refine Option.bind_eq_some_iff.2 ⟨_,
      (valueOfJson?_eq_some_iff string?_eq_some_iff).2 ⟨_, hlevel, rfl⟩, ?_⟩
    rw [merge_default]
    rfl

/-- Settings are read again from the JSON they are written as. -/
theorem ofJson?_toJson (c : Config) : ofJson? c.toJson = some c := by
  obtain ⟨token, logUnhandledEvents, botName, logLevel⟩ := c
  cases token <;> rfl

end Config

end ChatOps
