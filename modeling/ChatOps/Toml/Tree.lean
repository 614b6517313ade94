/-
The tables of a document while it is read. A table remembers how it came to be, because that
decides what may still be added: a table is headed at most once, dotted keys extend only tables
that dotted keys made, and a value, an inline table included, is never extended.
-/
import ChatOps.Toml.Value

namespace ChatOps.Toml

/-- How a table came to be. -/
inductive Origin where
  /-- By a header of its own. -/
  | headed
  /-- On the way to a header further down. -/
  | implied
  /-- By a dotted key. -/
  | dotted
deriving DecidableEq, Repr

/-- What stands under a key. -/
inductive Node where
  | value (v : Value)
  | table (origin : Origin) (fields : List (String × Node))
  /-- Tables under one repeated header, the latest first. -/
  | tables (latest : List (String × Node)) (earlier : List (List (String × Node)))

/-- The keys of a table, in the order they came. -/
abbrev Fields := List (String × Node)

/-- Fields with another node under a key that is there. -/
def Fields.replace (key : String) (node : Node) (fs : Fields) : Fields :=
  fs.map fun f => if f.1 = key then (key, node) else f

/-- Changes the table at a path, given how that table came to be. Tables missing on the way are
made with `origin`. A dotted path does not lead through a headed table. -/
def modifyAt (origin : Origin) (change : Origin → Fields → Option Fields) :
    List String → Origin → Fields → Option Fields
  | [], own, fs => change own fs
  | key :: path, _, fs =>
    match fs.lookup key with
    | none =>
      -- a table made on the way counts as made by the same kind of key
      (modifyAt origin change path origin []).map fun inner => fs ++ [(key, .table origin inner)]
    | some (.table own inner) =>
      if origin = .dotted ∧ own = .headed then none
      else (modifyAt origin change path own inner).map fun inner =>
        fs.replace key (.table own inner)
    | some (.tables latest earlier) =>
      -- a repeated header means its latest table
      (modifyAt origin change path .headed latest).map fun latest =>
        fs.replace key (.tables latest earlier)
    | some (.value _) => none

/-- Puts a value under a key that is free, at the end of a dotted path. -/
def insertValue (path : List String) (key : String) (v : Value) (fs : Fields) : Option Fields :=
  modifyAt .dotted (fun own inner =>
    if path ≠ [] ∧ own ≠ .dotted then none
    else match inner.lookup key with
      | none => some (inner ++ [(key, .value v)])
      | some _ => none) path .headed fs

/-- Begins the table of a header. -/
def insertTable (path : List String) (key : String) (fs : Fields) : Option Fields :=
  modifyAt .implied (fun _ inner =>
    match inner.lookup key with
    | none => some (inner ++ [(key, .table .headed [])])
    | some (.table .implied own) => some (inner.replace key (.table .headed own))
    | some _ => none) path .headed fs

/-- Begins one more table of a repeated header. -/
def insertTables (path : List String) (key : String) (fs : Fields) : Option Fields :=
  modifyAt .implied (fun _ inner =>
    match inner.lookup key with
    | none => some (inner ++ [(key, .tables [] [])])
    | some (.tables latest earlier) => some (inner.replace key (.tables [] (latest :: earlier)))
    | some _ => none) path .headed fs

mutual

/-- The finished value of a node. Tables under a repeated header make an array. -/
def Node.toValue : Node → Value
  | .value v => v
  | .table _ fs => .table (toFields fs)
  | .tables latest earlier => .array ((.table (toFields latest) :: toTables earlier).reverse)

/-- The finished fields of a table. -/
def toFields : List (String × Node) → List (String × Value)
  | [] => []
  | (key, node) :: fs => (key, node.toValue) :: toFields fs

/-- The finished tables, in the same order. -/
def toTables : List (List (String × Node)) → List Value
  | [] => []
  | fs :: rest => .table (toFields fs) :: toTables rest

end

end ChatOps.Toml
