import PageTree.Store.Table

/-!
Tables and indexes that a store makes for its attached fields. Making one leaves it as it is when it
is there. Tables and indexes share their names, so one may stand in the way of the other.
-/

namespace PageTree

open Sql

inductive Definition where
  | table (name : String) (affinity : Affinity)
  | index (name table column : String)
  deriving DecidableEq, Repr

namespace Definition

/-- The table of a field and an index for each of the columns that queries compare. -/
def ofField (table : String) (kind : FieldKind) : List Definition :=
  [.table table kind.affinity,
    .index ("idx_" ++ table ++ "_pages") table "pages_id",
    .index ("idx_" ++ table ++ "_data") table "data"]

end Definition

namespace Store

def hasName (names : List String) (name : String) : Bool :=
  names.any fun other => sameName other name

def systemTables : List String :=
  ["templates", "pages", "pages_parents"]

def systemIndexes : List String :=
  ["idx_pages_parent", "idx_pages_template", "idx_pages_parents_parent"]

def tableNames (store : Store) : List String :=
  systemTables ++ store.tables.map FieldTable.name

def indexNames (store : Store) : List String :=
  systemIndexes ++ store.indexes

/-- The store with a table or an index, when that can be made or is there. -/
def define? (store : Store) : Definition → Option Store
  | .table name affinity =>
    if !isTableName name || isEngineName name then none
    else if hasName store.tableNames name then some store
    else if hasName store.indexNames name then none
    else some { store with tables := store.tables ++ [{ name, affinity, rows := [] }] }
  | .index name table column =>
    if !isBareName name || hasName store.tableNames name then none
    else
      match store.source? table with
      | none => none
      | some source =>
        if hasName store.indexNames name then some store
        else if source.hasColumn column then some { store with indexes := store.indexes ++ [name] }
        else none

/-- Makes tables and indexes in order; a failure leaves those before it. -/
def defineAll (store : Store) : List Definition → Store × Except Error Unit
  | [] => (store, .ok ())
  | definition :: definitions =>
    match store.define? definition with
    | some next => defineAll next definitions
    | none => (store, .error (.database .rejectedStatement))

/-- Makes the tables of all fields; a failure leaves what was made before it. -/
def ensureTables (store : Store) : List Field → Store × Except Error Unit
  | [] => (store, .ok ())
  | field :: fields =>
    match field.kind? with
    | .error error => (store, .error error)
    | .ok kind =>
      match store.defineAll (Definition.ofField field.table kind) with
      | (next, .ok ()) => ensureTables next fields
      | (next, .error error) => (next, .error error)

end Store

end PageTree
