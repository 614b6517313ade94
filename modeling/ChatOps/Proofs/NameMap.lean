/-
Looking up names in a map: what a map that was made from a list of names and values has under a
name, that its look-ups are all there is to a map, and that a new name adds one entry to it.
-/
import ChatOps.NameMap
import Mathlib.Data.List.Nodup
import Mathlib.Data.List.Sort

namespace ChatOps

namespace NameMap

variable {α : Type}

/-- Looking up a name finds the entry with this name. -/
theorem get?_eq_some_iff {m : NameMap α} {name : String} {value : α} :
    m.get? name = some value ↔ (name, value) ∈ m.entries := by
  rw [get?, List.lookup_eq_some_iff]
  constructor
  · rintro ⟨before, after, h, -⟩
    rw [h]
    simp
  · intro h
    obtain ⟨before, after, h⟩ := List.append_of_mem h
    refine ⟨before, after, h, fun p hp => ?_⟩
    have hsorted := m.sorted
    rw [h, List.pairwise_append] at hsorted
    have hlt : p.1 < name := hsorted.2.2 p hp _ List.mem_cons_self
    rw [bne_iff_ne]
    rintro rfl
    exact String.lt_irrefl _ hlt

/-- Maps with the same look-ups are the same. -/
theorem ext_get? {m m' : NameMap α} (h : ∀ name, m.get? name = m'.get? name) : m = m' := by
  have hirrefl : Std.Irrefl fun a b : String × α => a.1 < b.1 := ⟨fun a => String.lt_irrefl a.1⟩
  have hantisymm : Std.Antisymm fun a b : String × α => a.1 < b.1 :=
    ⟨fun a b hab hba => absurd (String.lt_trans hab hba) (String.lt_irrefl a.1)⟩
  have hentries : m.entries = m'.entries := by
    refine m.sorted.eq_of_mem_iff m'.sorted fun e => ?_
    rw [← get?_eq_some_iff, ← get?_eq_some_iff, h]
  obtain ⟨es, hs⟩ := m
  obtain ⟨es', hs'⟩ := m'
  cases hentries
  rfl

theorem perm_insertEntry {name : String} (value : α) {es : List (String × α)}
    (h : name ∉ es.map Prod.fst) : (insertEntry name value es).Perm ((name, value) :: es) := by
  induction es with
  | nil => rfl
  | cons e es ih =>
    rw [List.map_cons, List.mem_cons, not_or] at h
    unfold insertEntry
    split
    · rfl
    · split
      · exact ((ih h.2).cons e).trans (.swap ..)
      · rename_i h1 h2
        exact absurd (String.le_antisymm h2 h1) h.1

/-- A new name adds its entry. -/
theorem entries_insert_perm {m : NameMap α} {name : String} (h : m.contains name = false)
    (value : α) : (m.insert name value).entries.Perm ((name, value) :: m.entries) := by
  refine perm_insertEntry value fun hmem => ?_
  obtain ⟨⟨n, v⟩, he, rfl⟩ := List.mem_map.1 hmem
  rw [contains, get?_eq_some_iff.2 he] at h
  cases h

/-- A new name makes the map larger by one. -/
theorem size_insert {m : NameMap α} {name : String} (h : m.contains name = false) (value : α) :
    (m.insert name value).size = m.size + 1 :=
  (entries_insert_perm h value).length_eq

theorem get?_foldl_insert {es : List (String × α)} {name : String}
    (h : name ∉ es.map Prod.fst) (m : NameMap α) :
    (es.foldl (fun m e => m.insert e.1 e.2) m).get? name = m.get? name := by
  induction es generalizing m with
  | nil => rfl
  | cons e es ih =>
    rw [List.map_cons, List.mem_cons, not_or] at h
    rw [List.foldl_cons, ih h.2, get?_insert, if_neg h.1]

/-- Of the values under one name the last counts. -/
theorem get?_ofList_append {before after : List (String × α)} {name : String} (value : α)
    (h : name ∉ after.map Prod.fst) :
    (ofList (before ++ (name, value) :: after)).get? name = some value := by
  rw [ofList, List.foldl_append, List.foldl_cons, get?_foldl_insert h, get?_insert, if_pos rfl]

/-- Among distinct names each keeps its value. -/
theorem get?_ofList {es : List (String × α)} (h : (es.map Prod.fst).Nodup) {name : String}
    {value : α} (he : (name, value) ∈ es) : (ofList es).get? name = some value := by
  obtain ⟨before, after, rfl⟩ := List.append_of_mem he
  rw [List.map_append, List.map_cons] at h
  exact get?_ofList_append value (List.nodup_cons.1 h.of_append_right).1

theorem mem_names_iff {m : NameMap α} {name : String} :
    name ∈ m.names ↔ ∃ value, m.get? name = some value := by
  simp [names, get?_eq_some_iff]

theorem mem_names_insert {m : NameMap α} {name : String} {value : α} {n : String} :
    n ∈ (m.insert name value).names ↔ n = name ∨ n ∈ m.names := by
  rw [mem_names_iff, mem_names_iff, get?_insert]
  split
  · rename_i h
    simp [h]
  · rename_i h
    simp [h]

/-- A map has the names it was made with and no others. -/
theorem mem_names_ofList {es : List (String × α)} {name : String} :
    name ∈ (ofList es).names ↔ name ∈ es.map Prod.fst := by
  suffices ∀ m : NameMap α, name ∈ (es.foldl (fun m e => m.insert e.1 e.2) m).names ↔
      name ∈ es.map Prod.fst ∨ name ∈ m.names by
    rw [ofList, this empty]
    exact or_iff_left List.not_mem_nil
  induction es with
  | nil => simp
  | cons e es ih =>
    intro m
    rw [List.foldl_cons, ih, mem_names_insert, List.map_cons, List.mem_cons, or_left_comm, or_assoc]

/-- The order of distinct names is no matter. -/
theorem ofList_perm {es es' : List (String × α)} (h : es.Perm es')
    (hnames : (es.map Prod.fst).Nodup) : ofList es = ofList es' := by
  have hnames' : (es'.map Prod.fst).Nodup := (h.map Prod.fst).nodup_iff.1 hnames
  refine ext_get? fun name => ?_
  by_cases hmem : name ∈ es.map Prod.fst
  · obtain ⟨⟨n, value⟩, he, rfl⟩ := List.mem_map.1 hmem
    rw [get?_ofList hnames he, get?_ofList hnames' (h.mem_iff.1 he)]
  · have hmem' : name ∉ es'.map Prod.fst := fun h' => hmem ((h.map Prod.fst).mem_iff.2 h')
    rw [ofList, ofList, get?_foldl_insert hmem, get?_foldl_insert hmem']

theorem lookup_map {β : Type} (f : α → β) (es : List (String × α)) (name : String) :
    (es.map fun e => (e.1, f e.2)).lookup name = (es.lookup name).map f := by
  induction es with
  | nil => rfl
  | cons e es ih =>
    rw [List.map_cons, List.lookup_cons, List.lookup_cons, ih]
    cases name == e.1 <;> rfl

/-- Maps are the same when they look the same through a function that tells their values apart. -/
theorem eq_of_map_entries {β : Type} {f : α → β} {m m' : NameMap α}
    (h : m.entries.map (fun e => (e.1, f e.2)) = m'.entries.map fun e => (e.1, f e.2))
    (hf : ∀ name v v', m.get? name = some v → m'.get? name = some v' → f v = f v' → v = v') :
    m = m' := by
  refine ext_get? fun name => ?_
  have hlookup : (m.get? name).map f = (m'.get? name).map f := by
    rw [get?, get?, ← lookup_map, ← lookup_map, h]
  cases hv : m.get? name with
  | none =>
    rw [hv, Option.map_none, eq_comm, Option.map_eq_none_iff] at hlookup
    exact hlookup.symm
  | some v =>
    rw [hv, Option.map_some, eq_comm, Option.map_eq_some_iff] at hlookup
    obtain ⟨v', hv', hff⟩ := hlookup
    rw [hv', hf name v v' hv hv' hff.symm]

end NameMap

end ChatOps
