import PageTree.Store.Basic

/-!
Writes, one statement after the other. Where a statement fails, what the statements before it did
stays done, unless they are one transaction. Main statements: the addition of a page and the change
of a value are such transactions, so a failure takes them back as a whole.
-/

namespace PageTree

open Sql

namespace FieldTable

def remove (table : FieldTable) (page : Int) : FieldTable :=
  { table with rows := table.rows.filter fun row => row.page ≠ page }

def add (table : FieldTable) (page : Int) (value : String) : FieldTable :=
  { table with
    rows := table.rows ++
      [{ key := Store.FieldTable.nextKey table.rows, page
         data := Value.store table.affinity (.text value), sort := 0 }] }

theorem add_remove (table : FieldTable) (page : Int) (value : String) :
    (table.remove page).add page value = Store.FieldTable.set table page value :=
  rfl

theorem name_set (page : Int) (value : String) (table : FieldTable) :
    (Store.FieldTable.set table page value).name = table.name :=
  rfl

end FieldTable

/-- The store with the tables of a name changed. -/
def Store.changeTable (store : Store) (name : String) (change : FieldTable → FieldTable) : Store :=
  { store with
    tables := store.tables.map fun table =>
      if sameName table.name name then change table else table }

namespace Store

variable (store : Store) {change : FieldTable → FieldTable}

theorem name_ite_change (named : ∀ table, (change table).name = table.name) (name : String)
    (table : FieldTable) :
    (if sameName table.name name then change table else table).name = table.name := by
  split
  · exact named table
  · rfl

theorem table?_changeTable (named : ∀ table, (change table).name = table.name)
    (name other : String) :
    (store.changeTable name change).table? other =
      (store.table? other).map fun table =>
        if sameName table.name name then change table else table := by
  rw [table?, changeTable, List.find?_map]
  simp only [Function.comp_def, name_ite_change named]
  rfl

theorem table?_changeTable_set (name : String) (page : Int) (text other : String) :
    (store.changeTable name (FieldTable.set · page text)).table? other =
      (store.table? other).map fun table =>
        if sameName table.name name then FieldTable.set table page text else table :=
  store.table?_changeTable (FieldTable.name_set page text) name other

theorem changeTable_changeTable (named : ∀ table, (change table).name = table.name) (name : String)
    (next : FieldTable → FieldTable) :
    (store.changeTable name change).changeTable name next =
      store.changeTable name fun table => next (change table) := by
  rw [changeTable, changeTable, changeTable, List.map_map]
  refine congrArg (fun tables => { store with tables }) (List.map_congr_left fun table _ => ?_)
  dsimp only [Function.comp_apply]
  by_cases same : sameName table.name name = true
  · rw [if_pos same, named, if_pos same, if_pos same]
  · rw [if_neg same, if_neg same, if_neg same]

end Store

/-- Work on a store. Where it fails, it leaves the store as it was at that moment. -/
abbrev Work := ExceptT Error (StateM Store)

namespace Work

variable {α β : Type}

/-- The result of the work, and the store that it leaves. -/
def carryOut (work : Work α) (store : Store) : Except Error α × Store :=
  work.run.run store

def ofResult : Except Error α → Work α
  | .ok a => pure a
  | .error error => throw error

/-- Work that a failure takes back to where it began. -/
def transaction (work : Work α) : Work α :=
  ExceptT.mk fun store =>
    match work.carryOut store with
    | (.ok a, next) => (.ok a, next)
    | (.error error, _) => (.error error, store)

/-! ### Statements -/

/-- Adds the row of a page and gives its number. -/
def insertRow (page : NewPage) (created : String) : Work Int := do
  let store ← get
  if (store.child? page.parent page.name).isSome then
    throw (.database .duplicatePage)
  else
    let row : Page :=
      { id := store.nextPageId, parent := page.parent, template := page.template, name := page.name,
        status := page.status, created, modified := created }
    set { store with pages := store.pages ++ [row] }
    return row.id

/-- Lists pages above another, unless they are listed there. -/
def addAncestors (page : Int) (above : List Ancestry → List Int) : Work Unit :=
  modify fun store =>
    { store with ancestry := Store.addAncestors store.ancestry page (above store.ancestry) }

/-- Removes what a table holds of a page. The ancestry of pages is a table with pages, too. -/
def deleteValues (table : String) (page : Int) : Work Unit := do
  let store ← get
  if (store.table? table).isSome then
    set (store.changeTable table (·.remove page))
  else if sameName table "pages_parents" then
    set { store with ancestry := store.ancestry.filter fun entry => entry.page ≠ page }
  else
    throw (.database .rejectedStatement)

/-- Adds a value of a page to the table of a field; no other table has a place for it. -/
def insertValue (table : String) (page : Int) (value : String) : Work Unit := do
  let store ← get
  if (store.table? table).isSome then
    if Store.textLimit < value.utf8ByteSize then
      throw (.database .rejectedStatement)
    else
      set (store.changeTable table (·.add page value))
  else
    throw (.database .rejectedStatement)

def markModified (now : Date.Moment) (page : Int) : Work Unit :=
  modify fun store =>
    { store with
      pages := store.pages.map fun row =>
        if row.id = page then { row with modified := now.text } else row }

/-! ### Writes -/

def insertPage (now : Date.Moment) (page : NewPage) : Work Int := do
  let created ← ofResult (Store.createdText now page)
  transaction do
    let id ← insertRow page created
    if page.parent ≠ 0 then
      addAncestors id fun _ => [page.parent]
      addAncestors id fun ancestry => Store.ancestors ancestry page.parent
    return id

def setField (schema : Schema) (now : Date.Moment) (name : String) (page : Int) (value : String) :
    Work Unit :=
  match schema.field? name with
  | none => throw (.unknownField name)
  | some field => do
    let text ← ofResult (Store.storedText now field value)
    transaction do
      deleteValues field.table page
      insertValue field.table page text
      markModified now page

/-! ### Carrying out -/

variable (store : Store)

@[simp]
theorem carryOut_pure (a : α) : (pure a : Work α).carryOut store = (.ok a, store) :=
  rfl

@[simp]
theorem carryOut_throw (error : Error) :
    (throw error : Work α).carryOut store = (.error error, store) :=
  rfl

@[simp]
theorem carryOut_get : (get : Work Store).carryOut store = (.ok store, store) :=
  rfl

@[simp]
theorem carryOut_set (next : Store) : (set next : Work PUnit).carryOut store = (.ok ⟨⟩, next) :=
  rfl

@[simp]
theorem carryOut_modify (change : Store → Store) :
    (modify change : Work PUnit).carryOut store = (.ok ⟨⟩, change store) :=
  rfl

@[simp]
theorem carryOut_bind (work : Work α) (next : α → Work β) :
    (work >>= next).carryOut store =
      match work.carryOut store with
      | (.ok a, between) => (next a).carryOut between
      | (.error error, between) => (.error error, between) := by
  change (match work.carryOut store with
    | (result, between) => (ExceptT.bindCont next result).run between) = _
  rcases work.carryOut store with ⟨_ | a, between⟩ <;> rfl

theorem carryOut_transaction (work : Work α) :
    work.transaction.carryOut store =
      match work.carryOut store with
      | (.ok a, next) => (.ok a, next)
      | (.error error, _) => (.error error, store) :=
  rfl

@[simp]
theorem carryOut_ite (p : Prop) [Decidable p] (work other : Work α) :
    (if p then work else other).carryOut store =
      if p then work.carryOut store else other.carryOut store := by
  split <;> rfl

/-! ### Transactions as changes of a store -/

/-- What a change leaves of a store: the new one, or the old one where it fails. -/
def outcome : Except Error (α × Store) → Except Error α × Store
  | .ok (a, next) => (.ok a, next)
  | .error error => (.error error, store)

theorem carryOut_insertPage (now : Date.Moment) (page : NewPage) :
    (insertPage now page).carryOut store = outcome store (store.insertPage now page) := by
  unfold insertPage Store.insertPage
  cases Store.createdText now page with
  | error error => rfl
  | ok created =>
      change (transaction _).carryOut store = outcome store (ite _ _ _)
      rw [carryOut_transaction, Store.extendAncestry]
      simp only [insertRow, addAncestors, carryOut_bind, carryOut_get, carryOut_ite, carryOut_set,
        carryOut_pure, carryOut_throw, carryOut_modify, ite_not, ne_eq]
      by_cases taken : (store.child? page.parent page.name).isSome = true
      · simp only [if_pos taken, outcome]
      · by_cases rooted : page.parent = 0
        · simp only [if_neg taken, if_pos rooted, outcome]
        · simp only [if_neg taken, if_neg rooted, outcome]

theorem carryOut_setField (schema : Schema) (now : Date.Moment) (name : String) (page : Int)
    (value : String) :
    (setField schema now name page value).carryOut store =
      outcome store ((store.setField schema now name page value).map ((), ·)) := by
  unfold setField Store.setField
  cases schema.field? name with
  | none => rfl
  | some field =>
      dsimp only
      cases Store.storedText now field value with
      | error error => rfl
      | ok text =>
          have named (table : FieldTable) : (table.remove page).name = table.name := rfl
          change (transaction _).carryOut store = _
          rw [carryOut_transaction]
          simp only [deleteValues, insertValue, markModified, carryOut_bind, carryOut_get,
            carryOut_ite, carryOut_set, carryOut_throw, carryOut_modify]
          cases found : store.table? field.table with
          | none =>
              have still (ancestry : List Ancestry) :
                  ({ store with ancestry } : Store).table? field.table = none := found
              by_cases parents : sameName field.table "pages_parents" = true
              · simp only [Option.isSome_none, Bool.false_eq_true, if_false, if_pos parents, still]
                rfl
              · simp only [Option.isSome_none, Bool.false_eq_true, if_false, if_neg parents]
                rfl
          | some table =>
              have still : ((store.changeTable field.table (·.remove page)).table?
                  field.table).isSome = true := by
                rw [Store.table?_changeTable store named, found]
                rfl
              by_cases long : Store.textLimit < text.utf8ByteSize
              · simp only [Option.isSome_some, if_true, still, bind, Except.bind, if_pos long]
                rfl
              · simp only [Option.isSome_some, if_true, still, bind, Except.bind, if_neg long,
                  Store.changeTable_changeTable store named, FieldTable.add_remove]
                rfl

/-- The ancestry of pages loses its rows to a field that is given its table, but for the
transaction. -/
example :
    let change := do
      deleteValues "pages_parents" rootId
      insertValue "pages_parents" rootId "home"
    let store := Store.new ⟨0, false⟩
    (change.carryOut store).2.ancestry = [] ∧
      (change.transaction.carryOut store).2.ancestry = [⟨rootId, rootId⟩] :=
  ⟨rfl, rfl⟩

end Work

end PageTree
