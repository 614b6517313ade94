/-
Finite maps from names to values, kept in increasing order of the names (by code point). Two maps
with the same look-ups are the same map, so equality of maps does not see the order in which the
names were put in.
-/
namespace ChatOps

/-- Values under distinct names, in increasing order of the names. -/
structure NameMap (α : Type) where
  entries : List (String × α)
  sorted : entries.Pairwise fun a b => a.1 < b.1
deriving DecidableEq

namespace NameMap

variable {α : Type}

def empty : NameMap α := ⟨[], .nil⟩

/-- A sorted list with `value` under `name`, in place of what stood there. -/
def insertEntry (name : String) (value : α) : List (String × α) → List (String × α)
  | [] => [(name, value)]
  | e :: es =>
    if name < e.1 then (name, value) :: e :: es
    else if e.1 < name then e :: insertEntry name value es
    else (name, value) :: es

theorem mem_insertEntry {name : String} {value : α} {es : List (String × α)} {e : String × α}
    (h : e ∈ insertEntry name value es) : e = (name, value) ∨ e ∈ es := by
  induction es with
  | nil => simpa [insertEntry] using h
  | cons a es ih =>
    unfold insertEntry at h
    split at h
    · simpa using h
    · split at h
      · rcases List.mem_cons.1 h with rfl | h
        · simp
        · rcases ih h with h | h <;> simp [h]
      · rcases List.mem_cons.1 h with rfl | h <;> simp [*]

theorem sorted_insertEntry (name : String) (value : α) {es : List (String × α)}
    (h : es.Pairwise fun a b => a.1 < b.1) :
    (insertEntry name value es).Pairwise fun a b => a.1 < b.1 := by
  induction es with
  | nil => simp [insertEntry]
  | cons a es ih =>
    obtain ⟨ha, hes⟩ := List.pairwise_cons.1 h
    unfold insertEntry
    split
    · rename_i hlt
      refine List.pairwise_cons.2 ⟨fun b hb => ?_, h⟩
      rcases List.mem_cons.1 hb with rfl | hb
      · exact hlt
      · exact String.lt_trans hlt (ha b hb)
    · split
      · rename_i hlt
        refine List.pairwise_cons.2 ⟨fun b hb => ?_, ih hes⟩
        rcases mem_insertEntry hb with rfl | hb
        · exact hlt
        · exact ha b hb
      · rename_i h1 h2
        have heq : a.1 = name := String.le_antisymm h1 h2
        exact List.pairwise_cons.2 ⟨fun b hb => heq ▸ ha b hb, hes⟩

/-- The map with `value` under `name`, in place of what stood there. -/
def insert (m : NameMap α) (name : String) (value : α) : NameMap α :=
  ⟨insertEntry name value m.entries, sorted_insertEntry name value m.sorted⟩

/-- The value under a name. -/
def get? (m : NameMap α) (name : String) : Option α := m.entries.lookup name

def contains (m : NameMap α) (name : String) : Bool := (m.get? name).isSome

def size (m : NameMap α) : Nat := m.entries.length

/-- The names, in increasing order. -/
def names (m : NameMap α) : List String := m.entries.map Prod.fst

/-- The values, in increasing order of their names. -/
def values (m : NameMap α) : List α := m.entries.map Prod.snd

/-- Later entries win. -/
def ofList (es : List (String × α)) : NameMap α :=
  es.foldl (fun m e => m.insert e.1 e.2) empty

theorem lookup_insertEntry (name : String) (value : α) {es : List (String × α)}
    (h : es.Pairwise fun a b => a.1 < b.1) (n : String) :
    (insertEntry name value es).lookup n = if n = name then some value else es.lookup n := by
  have front : ∀ l : List (String × α),
      ((name, value) :: l).lookup n = if n = name then some value else l.lookup n := by
    intro l
    rw [List.lookup_cons]
    by_cases hn : n = name
    · simp [hn]
    · simp [beq_eq_false_iff_ne.2 hn, hn]
  induction es with
  | nil => exact front []
  | cons a es ih =>
    obtain ⟨ha, hes⟩ := List.pairwise_cons.1 h
    obtain ⟨k, v⟩ := a
    unfold insertEntry
    split
    · exact front _
    · split
      · rename_i hlt
        rw [List.lookup_cons, List.lookup_cons, ih hes]
        by_cases hn : n = k
        · have : k ≠ name := fun e => String.lt_irrefl name (e ▸ hlt)
          simp [hn, this]
        · simp [beq_eq_false_iff_ne.2 hn]
      · rename_i h1 h2
        have heq : k = name := String.le_antisymm h1 h2
        rw [front, List.lookup_cons]
        by_cases hn : n = name
        · simp [hn]
        · simp [hn, heq, beq_eq_false_iff_ne.2 hn]

theorem get?_insert (m : NameMap α) (name : String) (value : α) (n : String) :
    (m.insert name value).get? n = if n = name then some value else m.get? n :=
  lookup_insertEntry name value m.sorted n

end NameMap

end ChatOps
