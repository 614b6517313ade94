/-
A text is a query exactly when it is what the query is written as, and the query has no empty
segment and no segment with a slash in it. So reading a query and writing it again changes nothing.
Every other text falls into too few pieces or too many, or one of its pieces is empty, and the error
says which.

JSON is the way around this: what states a type and a name is taken as it is. Such a query is as
sound as one that was read only if its segments are such by themselves.
-/
import ChatOps.Query
import Mathlib.Tactic.SplitIfs

namespace ChatOps

open Text

namespace Query

/-- A segment of a query: not empty, and without a slash. -/
def IsSegment (s : String) : Prop := s ≠ "" ∧ '/' ∉ s.toList

/-- A query that is written as two or three segments. -/
structure WellFormed (q : Query) : Prop where
  kind : IsSegment q.kind
  name : IsSegment q.name
  revision : ∀ revision ∈ q.revision, IsSegment revision

theorem toList_display_none (kind name : String) :
    (display ⟨kind, name, none⟩).toList = kind.toList ++ '/' :: name.toList := by
  simp [display]

theorem toList_display_some (kind name revision : String) :
    (display ⟨kind, name, some revision⟩).toList =
      kind.toList ++ '/' :: (name.toList ++ '/' :: revision.toList) := by
  simp [display]

/-! ## Segments -/

theorem ofSegments_eq_ok_iff {kind name : List Char} {revision : Option (List Char)} {q : Query} :
    ofSegments kind name revision = .ok q ↔
      kind ≠ [] ∧ name ≠ [] ∧ revision ≠ some [] ∧
        q = ⟨String.ofList kind, String.ofList name, revision.map String.ofList⟩ := by
  unfold ofSegments
  split_ifs with hk hn hr
  · simp [hk]
  · simp [hn]
  · simp [hr]
  · simp [hk, hn, hr, eq_comm]

theorem isSegment_ofList {cs : List Char} (hne : cs ≠ []) (h : ∀ c ∈ cs, (c == '/') = false) :
    IsSegment (String.ofList cs) := by
  constructor
  · intro hs
    rw [String.ofList_eq_empty_iff] at hs
    exact hne hs
  · rw [String.toList_ofList]
    intro hs
    exact absurd (h _ hs) (by decide)

theorem IsSegment.toList_ne_nil {s : String} (h : IsSegment s) : s.toList ≠ [] := by
  rw [ne_eq, String.toList_eq_nil_iff]
  exact h.1

theorem IsSegment.no_slash {s : String} (h : IsSegment s) :
    ∀ c ∈ s.toList, (c == '/') = false := by
  intro c hc
  rw [beq_eq_false_iff_ne]
  rintro rfl
  exact h.2 hc

/-! ## Reading and writing -/

theorem display_of_parse {text : String} {q : Query} (h : Query.parse text = .ok q) :
    text = q.display ∧ q.WellFormed := by
  have htext := intercalate_fields '/' text.toList
  have hslash := not_sep_of_mem_fields (· == '/') text.toList
  unfold Query.parse at h
  split at h
  · rename_i kind name hf
    rw [hf] at htext hslash
    obtain ⟨hk, hn, -, rfl⟩ := ofSegments_eq_ok_iff.1 h
    constructor
    · rw [← String.toList_inj, Option.map_none, toList_display_none, ← htext]
      simp [List.intercalate]
    · exact ⟨isSegment_ofList hk (hslash kind (by simp)),
        isSegment_ofList hn (hslash name (by simp)), by simp⟩
  · rename_i kind name revision hf
    rw [hf] at htext hslash
    obtain ⟨hk, hn, hr, rfl⟩ := ofSegments_eq_ok_iff.1 h
    constructor
    · rw [← String.toList_inj, Option.map_some, toList_display_some, ← htext]
      simp [List.intercalate]
    · refine ⟨isSegment_ofList hk (hslash kind (by simp)),
        isSegment_ofList hn (hslash name (by simp)), ?_⟩
      rintro _ ⟨rfl⟩
      exact isSegment_ofList (by simpa using hr) (hslash revision (by simp))
  · cases h

theorem WellFormed.parse_display {q : Query} (h : q.WellFormed) :
    Query.parse q.display = .ok q := by
  obtain ⟨kind, name, revision⟩ := q
  have hk := h.kind.toList_ne_nil
  have hn := h.name.toList_ne_nil
  unfold Query.parse
  cases revision with
  | none =>
    rw [toList_display_none, fields_append_sep h.kind.no_slash rfl,
      fields_of_no_sep h.name.no_slash]
    exact ofSegments_eq_ok_iff.2 ⟨hk, hn, by simp, by simp⟩
  | some revision =>
    have hr := h.revision revision rfl
    rw [toList_display_some, fields_append_sep h.kind.no_slash rfl,
      fields_append_sep h.name.no_slash rfl, fields_of_no_sep hr.no_slash]
    exact ofSegments_eq_ok_iff.2 ⟨hk, hn, by simpa using hr.1, by simp⟩

theorem parse_eq_ok_iff {text : String} {q : Query} :
    Query.parse text = .ok q ↔ text = q.display ∧ q.WellFormed := by
  constructor
  · exact display_of_parse
  · rintro ⟨rfl, h⟩
    exact h.parse_display

/-! ## The grammar -/

/-- The segments of a query, in order. -/
def segments (q : Query) : List String := q.kind :: q.name :: q.revision.toList

theorem display_eq_intercalate (q : Query) : q.display = "/".intercalate q.segments := by
  obtain ⟨kind, name, revision⟩ := q
  rw [← String.toList_inj, String.toList_intercalate]
  cases revision with
  | none => simp [segments, toList_display_none, List.intercalate]
  | some revision => simp [segments, toList_display_some, List.intercalate]

theorem wellFormed_iff {q : Query} : q.WellFormed ↔ ∀ s ∈ q.segments, IsSegment s := by
  simp only [segments, List.forall_mem_cons, Option.mem_toList]
  constructor
  · intro h
    exact ⟨h.kind, h.name, h.revision⟩
  · rintro ⟨hkind, hname, hrevision⟩
    exact ⟨hkind, hname, hrevision⟩

/-- Two or three segments are those of a query. -/
theorem exists_segments_eq {segs : List String} (h : segs.length = 2 ∨ segs.length = 3) :
    ∃ q : Query, q.segments = segs := by
  match segs, h with
  | [kind, name], _ => exact ⟨⟨kind, name, none⟩, rfl⟩
  | [kind, name, revision], _ => exact ⟨⟨kind, name, some revision⟩, rfl⟩

/-- The text falls into these pieces: none has a slash, and with slashes between them they are the
text. -/
structure Splits (text : String) (pieces : List String) : Prop where
  ne_nil : pieces ≠ []
  no_slash : ∀ s ∈ pieces, '/' ∉ s.toList
  joined : text = "/".intercalate pieces

/-- Every text falls into pieces, and in one way only. -/
theorem splits_iff {text : String} {pieces : List String} :
    Splits text pieces ↔ fields (· == '/') text.toList = pieces.map String.toList := by
  constructor
  · intro h
    rw [h.joined, String.toList_intercalate]
    refine fields_intercalate (by simpa using h.ne_nil) fun l hl => ?_
    obtain ⟨s, hs, rfl⟩ := List.mem_map.1 hl
    exact h.no_slash s hs
  · intro h
    have htext := intercalate_fields '/' text.toList
    have hslash := not_sep_of_mem_fields (· == '/') text.toList
    rw [h] at htext hslash
    refine ⟨?_, fun s hs hmem => ?_, ?_⟩
    · rintro rfl
      exact fields_ne_nil _ _ h
    · exact absurd (hslash _ (List.mem_map_of_mem hs) _ hmem) (by decide)
    · rw [← String.toList_inj, String.toList_intercalate]
      exact htext.symm

theorem exists_splits (text : String) : ∃ pieces, Splits text pieces := by
  refine ⟨(fields (· == '/') text.toList).map String.ofList, splits_iff.2 ?_⟩
  simp [Function.comp_def]

theorem Splits.unique {text : String} {pieces pieces' : List String} (h : Splits text pieces)
    (h' : Splits text pieces') : pieces = pieces' := by
  rw [← List.map_inj_right fun _ _ => String.toList_inj.1, ← splits_iff.1 h, ← splits_iff.1 h']

theorem Splits.length_eq {text : String} {pieces : List String} (h : Splits text pieces) :
    pieces.length = text.toList.count '/' + 1 := by
  rw [← List.length_map (f := String.toList), ← splits_iff.1 h, length_fields, List.count]

/-- The fault of pieces of which one is empty. Of several the first counts. -/
inductive FirstEmpty : List String → QueryError → Prop
  | type {rest : List String} : FirstEmpty ("" :: rest) .emptyType
  | name {kind : String} {rest : List String} : kind ≠ "" →
      FirstEmpty (kind :: "" :: rest) .emptyName
  | revision {kind name : String} : kind ≠ "" → name ≠ "" →
      FirstEmpty [kind, name, ""] .emptyRevision

theorem firstEmpty_iff {kind name : String} {revision : Option String} {e : QueryError} :
    FirstEmpty (kind :: name :: revision.toList) e ↔
      kind = "" ∧ e = .emptyType ∨ kind ≠ "" ∧ name = "" ∧ e = .emptyName ∨
        kind ≠ "" ∧ name ≠ "" ∧ revision = some "" ∧ e = .emptyRevision := by
  constructor
  · intro h
    cases revision with
    | none =>
      cases h with
      | type => exact .inl ⟨rfl, rfl⟩
      | name hk => exact .inr (.inl ⟨hk, rfl, rfl⟩)
    | some revision =>
      cases h with
      | type => exact .inl ⟨rfl, rfl⟩
      | name hk => exact .inr (.inl ⟨hk, rfl, rfl⟩)
      | revision hk hn => exact .inr (.inr ⟨hk, hn, rfl, rfl⟩)
  · rintro (⟨rfl, rfl⟩ | ⟨hk, rfl, rfl⟩ | ⟨hk, hn, rfl, rfl⟩)
    · exact .type
    · exact .name hk
    · exact .revision hk hn

theorem ofSegments_eq_error_iff {kind name : String} {revision : Option String} {e : QueryError} :
    ofSegments kind.toList name.toList (revision.map String.toList) = .error e ↔
      FirstEmpty (kind :: name :: revision.toList) e := by
  have hr : revision.map String.toList = some [] ↔ revision = some "" := by
    cases revision with
    | none => simp
    | some revision => simp
  rw [firstEmpty_iff, ofSegments]
  simp only [String.toList_eq_nil_iff, hr]
  split_ifs with hk hn hrevision
  · simp [hk, eq_comm]
  · simp [hk, hn, eq_comm]
  · simp [hk, hn, hrevision, eq_comm]
  · simp [hk, hn, hrevision]

/-- A text in pieces is refused when there are not two or three of them, and else when one is
empty. -/
theorem Splits.parse_eq_error_iff {text : String} {pieces : List String} (h : Splits text pieces)
    {e : QueryError} :
    Query.parse text = .error e ↔
      (pieces.length ≠ 2 ∧ pieces.length ≠ 3 ∧ e = .segmentCount pieces.length) ∨
        ((pieces.length = 2 ∨ pieces.length = 3) ∧ FirstEmpty pieces e) := by
  unfold Query.parse
  rw [splits_iff.1 h]
  match pieces with
  | [] => simp [eq_comm]
  | [_] => simp [eq_comm]
  | [kind, name] => simpa using @ofSegments_eq_error_iff kind name none e
  | [kind, name, revision] => simpa using @ofSegments_eq_error_iff kind name (some revision) e
  | _ :: _ :: _ :: _ :: rest => simp [eq_comm]

/-- Reading and writing queries. A text is a query exactly if it is two or three segments with
slashes between them, and the query is then written as that text; a query of segments is read again
from what it is written as. A text that is no query is refused for its number of pieces, one more
than it has slashes, or, if that is two or three, for the first piece that is empty. -/
theorem parse_grammar (text : String) :
    ((∃ q, Query.parse text = .ok q) ↔
      ∃ segs : List String, (segs.length = 2 ∨ segs.length = 3) ∧ (∀ s ∈ segs, IsSegment s) ∧
        text = "/".intercalate segs) ∧
    (∀ q, Query.parse text = .ok q → q.display = text) ∧
    (∀ kind name revision, IsSegment kind → IsSegment name → (∀ r ∈ revision, IsSegment r) →
      Query.parse (display ⟨kind, name, revision⟩) = .ok ⟨kind, name, revision⟩) ∧
    ∀ e, Query.parse text = .error e ↔
      (text.toList.count '/' + 1 ≠ 2 ∧ text.toList.count '/' + 1 ≠ 3 ∧
        e = .segmentCount (text.toList.count '/' + 1)) ∨
      ((text.toList.count '/' + 1 = 2 ∨ text.toList.count '/' + 1 = 3) ∧
        ∃ pieces, Splits text pieces ∧ FirstEmpty pieces e) := by
  refine ⟨⟨?_, ?_⟩, fun q h => ?_, fun kind name revision hk hn hr => ?_, fun e => ?_⟩
  · rintro ⟨q, h⟩
    obtain ⟨htext, hq⟩ := parse_eq_ok_iff.1 h
    refine ⟨q.segments, ?_, wellFormed_iff.1 hq, htext.trans q.display_eq_intercalate⟩
    cases hr : q.revision <;> simp [segments, hr]
  · rintro ⟨segs, hlength, hsegs, htext⟩
    obtain ⟨q, rfl⟩ := exists_segments_eq hlength
    exact ⟨q, parse_eq_ok_iff.2 ⟨htext.trans q.display_eq_intercalate.symm, wellFormed_iff.2 hsegs⟩⟩
  · exact (parse_eq_ok_iff.1 h).1.symm
  · exact WellFormed.parse_display ⟨hk, hn, hr⟩
  · obtain ⟨pieces, hpieces⟩ := exists_splits text
    rw [hpieces.parse_eq_error_iff, hpieces.length_eq]
    constructor
    · rintro (hcount | ⟨hcount, hempty⟩)
      · exact .inl hcount
      · exact .inr ⟨hcount, pieces, hpieces, hempty⟩
    · rintro (hcount | ⟨hcount, pieces', hpieces', hempty⟩)
      · exact .inl hcount
      · exact .inr ⟨hcount, hpieces.unique hpieces' ▸ hempty⟩

/-- Three segments, and two faults of which the first is reported. -/
theorem parse_grammar_pod :
    Query.parse "pod/web/3" = .ok ⟨"pod", "web", some "3"⟩ ∧
      Query.parse "pod//" = .error .emptyName ∧
      Query.parse "pod/web/3/4" = .error (.segmentCount 4) := by
  obtain ⟨-, -, hread, -⟩ := parse_grammar "pod/web/3"
  obtain ⟨-, -, -, hempty⟩ := parse_grammar "pod//"
  obtain ⟨-, -, -, hcount⟩ := parse_grammar "pod/web/3/4"
  refine ⟨hread "pod" "web" (some "3") ?_ ?_ ?_, (hempty _).2 (.inr ?_), (hcount _).2 (.inl ?_)⟩
  · exact ⟨by decide, by decide⟩
  · exact ⟨by decide, by decide⟩
  · rintro _ ⟨⟩
    exact ⟨by decide, by decide⟩
  · refine ⟨by decide, ["pod", "", ""], ?_, .name (by decide)⟩
    exact ⟨by decide, by decide, by decide⟩
  · decide

/-! ## Queries in JSON -/

/-- What states a query in JSON: the fields of an object, a missing revision being none, or an array
of just the three items. -/
inductive States : Json → Query → Prop
  | object {fields : List (String × Json)} {kind name : String} {revision : Option String} :
      Json.field? fields "type" = some (.string kind) →
      Json.field? fields "name" = some (.string name) →
      (Json.field? fields "revision").getD .null = .ofOption revision →
      States (.object fields) ⟨kind, name, revision⟩
  | array {kind name : String} {revision : Option String} :
      States (.array [.string kind, .string name, .ofOption revision]) ⟨kind, name, revision⟩

theorem revisionOfJson?_eq_some_iff {json : Json} {revision : Option String} :
    revisionOfJson? json = some revision ↔ json = .ofOption revision := by
  constructor
  · intro h
    unfold revisionOfJson? at h
    split at h <;> cases h <;> rfl
  · rintro rfl
    cases revision <;> rfl

/-- A query is taken from JSON exactly where it is stated. -/
theorem ofJson?_eq_some_iff {json : Json} {q : Query} : ofJson? json = some q ↔ States json q := by
  constructor
  · intro h
    unfold ofJson? at h
    split at h
    · split at h
      · rename_i hkind hname hrevision
        cases h
        exact .object hkind hname (revisionOfJson?_eq_some_iff.1 hrevision)
      · cases h
    · obtain ⟨revision, hrevision, rfl⟩ := Option.map_eq_some_iff.1 h
      rw [revisionOfJson?_eq_some_iff.1 hrevision]
      exact .array
    · cases h
  · intro h
    cases h with
    | object hkind hname hrevision =>
      simp only [ofJson?, hkind, hname, revisionOfJson?_eq_some_iff.2 hrevision]
    | array => exact Option.map_eq_some_iff.2 ⟨_, revisionOfJson?_eq_some_iff.2 rfl, rfl⟩

theorem states_toJson (q : Query) : States q.toJson q := by
  obtain ⟨kind, name, revision⟩ := q
  cases revision with
  | none => exact .object rfl rfl rfl
  | some revision => exact .object rfl rfl rfl

/-- A query is written like no other. -/
theorem toJson_inj {q q' : Query} (h : q.toJson = q'.toJson) : q = q' := by
  have hq := ofJson?_eq_some_iff.2 q.states_toJson
  rw [h, ofJson?_eq_some_iff.2 q'.states_toJson, Option.some.injEq] at hq
  exact hq.symm

/-! ## Soundness -/

/-- The promise of a query: its type and name are not empty, nor is a revision that it has, and its
text is read as this query again. -/
structure IsSound (q : Query) : Prop where
  kind : q.kind ≠ ""
  name : q.name ≠ ""
  revision : q.revision ≠ some ""
  reread : Query.parse q.display = .ok q

theorem isSound_iff_wellFormed {q : Query} : q.IsSound ↔ q.WellFormed := by
  constructor
  · intro h
    exact (parse_eq_ok_iff.1 h.reread).2
  · intro h
    exact ⟨h.kind.1, h.name.1, fun hr => (h.revision "" hr).1 rfl, h.parse_display⟩

/-- A text is read as a sound query. JSON gives a sound query exactly if no segment that it states is
empty or holds a slash, and it can state any segments at all, in an object as in an array. -/
theorem constructors_sound (text : String) (json : Json) :
    (∀ q, Query.parse text = .ok q → q.IsSound) ∧
      ((∀ q, ofJson? json = some q → q.IsSound) ↔ ∀ q, States json q → q.WellFormed) ∧
      ∀ q : Query, States q.toJson q ∧
        States (.array [.string q.kind, .string q.name, .ofOption q.revision]) q := by
  refine ⟨fun q h => ?_, ?_, fun q => ⟨q.states_toJson, .array⟩⟩
  · exact isSound_iff_wellFormed.2 (parse_eq_ok_iff.1 h).2
  · simp only [ofJson?_eq_some_iff, isSound_iff_wellFormed]

/-- A query of three segments, read from its text and from its JSON. -/
theorem constructors_sound_pod :
    Query.parse "pod/web/3" = .ok ⟨"pod", "web", some "3"⟩ ∧
      ofJson? (toJson ⟨"pod", "web", some "3"⟩) = some ⟨"pod", "web", some "3"⟩ ∧
      IsSound ⟨"pod", "web", some "3"⟩ := by
  have hparse : Query.parse "pod/web/3" = .ok ⟨"pod", "web", some "3"⟩ := by
    rfl
  obtain ⟨htext, -, hstates⟩ := constructors_sound "pod/web/3" .null
  exact ⟨hparse, ofJson?_eq_some_iff.2 (hstates _).1, htext _ hparse⟩

/-- A type that is empty is taken from an object, and from an array a name with a slash, which is
read as a name and a revision. -/
theorem constructors_unsound :
    ofJson? (.object [("type", .string ""), ("name", .string "web")]) = some ⟨"", "web", none⟩ ∧
      ¬ IsSound ⟨"", "web", none⟩ ∧
      ofJson? (.array [.string "pod", .string "web/3", .null]) = some ⟨"pod", "web/3", none⟩ ∧
      Query.parse (display ⟨"pod", "web/3", none⟩) = .ok ⟨"pod", "web", some "3"⟩ ∧
      ¬ IsSound ⟨"pod", "web/3", none⟩ := by
  have hread : Query.parse (display ⟨"pod", "web/3", none⟩) = .ok ⟨"pod", "web", some "3"⟩ := by
    rfl
  refine ⟨by decide +kernel, fun h => h.kind rfl, by decide +kernel, hread, fun h => ?_⟩
  exact absurd (Except.ok.inj (hread.symm.trans h.reread)) (by decide)

end Query

end ChatOps
