/-
The language of the built-in commands, written down as a grammar of words: what each command may be
followed by, and what is then asked for. Nothing here mentions how a message is read.
-/
import ChatOps.Builtin
import ChatOps.Message.Request
import ChatOps.Proofs.Query

namespace ChatOps

open Text

namespace Builtin

/-- A run of ASCII digits with this value. -/
def IsNumber (word : String) (n : UInt64) : Prop :=
  word ≠ "" ∧ (∀ c ∈ word.toList, c.isDigit = true) ∧ digitsValue word.toList = n.toNat

def directionWords : List String := ["top", "bottom"]

def authorWords : List String := ["anyones", "mine", "none"]

def resultWords : List String := ["all", "failure", "success"]

/-- What may follow the query of `logs`: at most one direction and at most one positive number, in
either order. -/
inductive LogOptions : List String → Option String → Option UInt64 → Prop
  | none : LogOptions [] none none
  | direction {d : String} : d ∈ directionWords → LogOptions [d] (some d) none
  | lines {s : String} {n : UInt64} : IsNumber s n → 0 < n → LogOptions [s] none (some n)
  | directionLines {d s : String} {n : UInt64} : d ∈ directionWords → IsNumber s n → 0 < n →
      LogOptions [d, s] (some d) (some n)
  | linesDirection {d s : String} {n : UInt64} : d ∈ directionWords → IsNumber s n → 0 < n →
      LogOptions [s, d] (some d) (some n)

/-- What may follow the channels of `track`: at most one word for the author, at most one for the
result and any number of branches, in any order. -/
inductive TrackOptions : List String → Option String → Option String → List String → Prop
  | nil : TrackOptions [] none none []
  | author {w : String} {ws : List String} {result : Option String} {branches : List String} :
      w ∈ authorWords → TrackOptions ws none result branches →
      TrackOptions (w :: ws) (some w) result branches
  | result {w : String} {ws : List String} {author : Option String} {branches : List String} :
      w ∈ resultWords → TrackOptions ws author none branches →
      TrackOptions (w :: ws) author (some w) branches
  | branch {w : String} {ws : List String} {author result : Option String}
      {branches : List String} : w ∉ authorWords → w ∉ resultWords → w.toList.head? ≠ some '#' →
      TrackOptions ws author result branches →
      TrackOptions (w :: ws) author result (w :: branches)

/-- A command may be followed by these words. They name this subcommand, if the command has any,
and give its arguments these values. -/
inductive Form : Command → List String → Option String → List (String × Value) → Prop
  | get {q : Query} : q.WellFormed → Form get [q.display] none [("query", .query q)]
  | describe {q : Query} : q.WellFormed → Form describe [q.display] none [("query", .query q)]
  | rollout {word subcommand : String} {q : Query} : subcommand ∈ rolloutSubcommands →
      sameIgnoringCase subcommand word = true → q.WellFormed →
      Form rollout [word, q.display] (some subcommand) [("query", .query q)]
  | scale {q : Query} {s : String} {n : UInt64} : q.WellFormed → IsNumber s n →
      Form scale [q.display, s] none [("query", .query q), ("replicas", .integer n)]
  | logs {q : Query} {ws : List String} {direction : Option String} {lines : Option UInt64} :
      q.WellFormed → LogOptions ws direction lines →
      Form logs (q.display :: ws) none
        [("query", .query q), ("direction", .keyword (direction.getD "bottom")),
          ("lines", .integer (lines.getD 25))]
  | version {ws : List String} : Form version ws none []
  | track {repo : String} {channels ws : List String} {author result : Option String}
      {branches : List String} : (∀ channel ∈ channels, channel ≠ "") →
      TrackOptions ws author result branches →
      Form track (repo :: (channels.map ("#" ++ ·) ++ ws)) none
        [("repo", .text repo), ("channels", .list channels),
          ("author_filter", .keyword (author.getD "mine")),
          ("result_filter", .keyword (result.getD "all")), ("branches", .list branches)]
  | configAll : Form config [] none [("key", .unset), ("value", .unset)]
  | configKey {key : String} : Form config [key] none [("key", .text key), ("value", .unset)]
  | configValue {key value : String} :
      Form config [key, value] none [("key", .text key), ("value", .text value)]
  | help {ws : List String} : Form help ws none []

/-- The words of a message ask for this: the lowercase of the first is the name of a command, and
the others have its form. -/
def Asks (words : List String) (request : Request) : Prop :=
  ∃ head rest bound, words = head :: rest ∧ lowercase head = request.command.name ∧
    Form request.command rest request.subcommand bound ∧ request.augments = .ofList bound

theorem Form.mem_commands {c : Command} {ws : List String} {subcommand : Option String}
    {bound : List (String × Value)} (h : Form c ws subcommand bound) : c ∈ commands := by
  cases h <;> decide

/-! ## Options in any order -/

theorem not_mem_authorWords_of_mem_resultWords : ∀ w ∈ resultWords, w ∉ authorWords := by
  decide

theorem cons_eq_toList_iff {α : Type} {a : α} {as : List α} {o : Option α} :
    a :: as = o.toList ↔ o = some a ∧ as = [] := by
  cases o with
  | none => simp
  | some b => simp [eq_comm]

variable {ws : List String} {author result : Option String} {branches : List String}

/-- The words of each sort are those the options of `track` may have. -/
theorem TrackOptions.sorted (h : TrackOptions ws author result branches) :
    ws.filter (· ∈ authorWords) = author.toList ∧
      (ws.filter (· ∉ authorWords)).filter (· ∈ resultWords) = result.toList ∧
      (ws.filter (· ∉ authorWords)).filter (· ∉ resultWords) = branches ∧
      ∀ w ∈ branches, w.toList.head? ≠ some '#' := by
  induction h with
  | nil => exact ⟨rfl, rfl, rfl, by simp⟩
  | @author w ws result branches hw _ ih =>
    obtain ⟨ha, hr, hb, hno⟩ := ih
    rw [List.filter_cons_of_pos (by simpa using hw), List.filter_cons_of_neg (by simpa using hw),
      ha]
    exact ⟨rfl, hr, hb, hno⟩
  | @result w ws author branches hw _ ih =>
    obtain ⟨ha, hr, hb, hno⟩ := ih
    have hw' := not_mem_authorWords_of_mem_resultWords w hw
    rw [List.filter_cons_of_neg (by simpa using hw'),
      List.filter_cons_of_pos (by simpa using hw'), List.filter_cons_of_pos (by simpa using hw),
      List.filter_cons_of_neg (by simpa using hw), hr]
    exact ⟨ha, rfl, hb, hno⟩
  | @branch w ws author result branches hw hw' hhead _ ih =>
    obtain ⟨ha, hr, hb, hno⟩ := ih
    rw [List.filter_cons_of_neg (by simpa using hw), List.filter_cons_of_pos (by simpa using hw),
      List.filter_cons_of_neg (by simpa using hw'), List.filter_cons_of_pos (by simpa using hw'),
      hb]
    exact ⟨ha, hr, rfl, List.forall_mem_cons.2 ⟨hhead, hno⟩⟩

theorem trackOptions_of_sorted (ha : ws.filter (· ∈ authorWords) = author.toList)
    (hr : (ws.filter (· ∉ authorWords)).filter (· ∈ resultWords) = result.toList)
    (hb : (ws.filter (· ∉ authorWords)).filter (· ∉ resultWords) = branches)
    (hno : ∀ w ∈ branches, w.toList.head? ≠ some '#') :
    TrackOptions ws author result branches := by
  induction ws generalizing author result branches with
  | nil =>
    cases author with
    | some w => cases ha
    | none =>
      cases result with
      | some w => cases hr
      | none =>
        cases hb
        exact .nil
  | cons w ws ih =>
    -- the sort of the first word says which rule comes last
    by_cases hw : w ∈ authorWords
    · rw [List.filter_cons_of_pos (by simpa using hw), cons_eq_toList_iff] at ha
      rw [List.filter_cons_of_neg (by simpa using hw)] at hr hb
      obtain ⟨rfl, ha⟩ := ha
      exact .author hw (ih ha hr hb hno)
    · rw [List.filter_cons_of_neg (by simpa using hw)] at ha
      rw [List.filter_cons_of_pos (by simpa using hw)] at hr hb
      by_cases hw' : w ∈ resultWords
      · rw [List.filter_cons_of_pos (by simpa using hw'), cons_eq_toList_iff] at hr
        rw [List.filter_cons_of_neg (by simpa using hw')] at hb
        obtain ⟨rfl, hr⟩ := hr
        exact .result hw' (ih ha hr hb hno)
      · rw [List.filter_cons_of_neg (by simpa using hw')] at hr
        rw [List.filter_cons_of_pos (by simpa using hw')] at hb
        subst hb
        obtain ⟨hhead, hno⟩ := List.forall_mem_cons.1 hno
        exact .branch hw hw' hhead (ih ha hr rfl hno)

end Builtin

end ChatOps
