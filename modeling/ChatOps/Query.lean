/-
Queries: the name of a resource as `type/name` or `type/name/revision`. Reading a query and writing
it are inverse on texts of two or three non-empty segments. A query given as JSON is taken as it
is, so its segments may be empty or hold a slash.
-/
import ChatOps.Json
import ChatOps.Text.Fields

namespace ChatOps

open Text

/-- A resource, by its type and name, at a revision or at the current one. -/
structure Query where
  kind : String
  name : String
  revision : Option String
deriving DecidableEq, Repr

/-- Why a text is no query. -/
inductive QueryError where
  | segmentCount (segments : Nat)
  | emptyType
  | emptyName
  | emptyRevision
deriving DecidableEq, Repr

namespace QueryError

def code : QueryError → String
  | .segmentCount _ => "segment_count"
  | .emptyType => "empty_type"
  | .emptyName => "empty_name"
  | .emptyRevision => "empty_revision"

def message : QueryError → String
  | .segmentCount segments =>
    s!"expected type/name or type/name/revision, found {segments} segment(s)"
  | .emptyType => "resource type cannot be empty"
  | .emptyName => "resource name cannot be empty"
  | .emptyRevision => "revision cannot be empty"

end QueryError

namespace Query

/-- The query with these segments. Of several empty segments the first is reported. -/
def ofSegments (kind name : List Char) (revision : Option (List Char)) : Except QueryError Query :=
  if kind = [] then .error .emptyType
  else if name = [] then .error .emptyName
  else if revision = some [] then .error .emptyRevision
  else .ok ⟨String.ofList kind, String.ofList name, revision.map String.ofList⟩

/-- The query a text writes. -/
def parse (text : String) : Except QueryError Query :=
  match fields (· == '/') text.toList with
  | [kind, name] => ofSegments kind name none
  | [kind, name, revision] => ofSegments kind name (some revision)
  | segments => .error (.segmentCount segments.length)

/-- The text of a query. -/
def display (q : Query) : String :=
  match q.revision with
  | none => q.kind ++ "/" ++ q.name
  | some revision => q.kind ++ "/" ++ q.name ++ "/" ++ revision

/-- A missing revision is a missing field. -/
def toJson (q : Query) : Json :=
  .object ([("type", .string q.kind), ("name", .string q.name)] ++
    match q.revision with
    | none => []
    | some revision => [("revision", .string revision)])

/-- A revision in JSON: `null` or a string. -/
def revisionOfJson? : Json → Option (Option String)
  | .null => some none
  | .string s => some (some s)
  | _ => none

/-- The query an object or an array of three items states. Nothing is asked of its segments. -/
def ofJson? : Json → Option Query
  | .object fs =>
    match Json.field? fs "type", Json.field? fs "name",
      revisionOfJson? ((Json.field? fs "revision").getD .null) with
    | some (.string kind), some (.string name), some revision => some ⟨kind, name, revision⟩
    | _, _, _ => none
  | .array [.string kind, .string name, revision] =>
    (revisionOfJson? revision).map fun r => ⟨kind, name, r⟩
  | _ => none

end Query

end ChatOps
