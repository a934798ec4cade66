import PageTree.Proofs.Store.Seeding

/-!
Texts that seeds give to pages. A path with slashes around it stands for a page that is there when
the path is read: a page from before the import, one listed above, or the page itself. Main
statement: any other scalar is what a field of texts holds after the import, as it is written.
-/

namespace PageTree

/-- A scalar as text. -/
def Datum.ownText? : Datum → Option String
  | .text s => some s
  | .integer n => some (toString n)
  | .real x => some x.compact
  | .bool b => some (if b then "1" else "0")
  | _ => none

namespace Store

variable {schema : Schema} {now : Date.Moment} {store next moment : Store}

/-! ### References -/

/-- The scalar is a path that stands for the page with this number. -/
def Refers (store : Store) (value : Datum) (id : Int) : Prop :=
  ∃ path, value = .text path ∧ HasOuterSlashes path ∧ store.pageId? path = some id ∧
    (id ≠ rootId ∨ path = "/")

theorem Refers.ownText?_ne {value : Datum} {id : Int} (refers : store.Refers value id) (n : Int) :
    value.ownText? ≠ some (toString n) := by
  obtain ⟨path, rfl, slashes, -⟩ := refers
  intro same
  obtain rfl : path = toString n := Option.some.inj same
  exact Text.notMem_toString rfl (by decide) n (List.mem_of_head? slashes.1)

/-- A scalar that stands for no page is written as it is. -/
theorem IsSpelled.exists_ownText? {value : Datum} {text : String}
    (spelled : store.IsSpelled value text) :
    ∃ own, value.ownText? = some own ∧ (text = own ↔ ∀ id, ¬store.Refers value id) ∧
      ∀ id, store.Refers value id → text = toString id := by
  have verbatim : ∀ value : Datum, value.ownText? = some text →
      (∀ id, ¬store.Refers value id) → ∃ own, value.ownText? = some own ∧
        (text = own ↔ ∀ id, ¬store.Refers value id) ∧
          ∀ id, store.Refers value id → text = toString id :=
    fun value own free => ⟨text, own, iff_of_true rfl free, fun id refers =>
      absurd refers (free id)⟩
  cases spelled with
  | @page path id slashes found proper =>
      have refers : store.Refers (.text path) id := ⟨path, rfl, slashes, found, proper⟩
      refine ⟨path, rfl, iff_of_false (fun same => ?_) (fun free => free id refers), ?_⟩
      · exact refers.ownText?_ne id (congrArg some same.symm)
      · rintro other ⟨_, ⟨⟩, -, isOther, -⟩
        rw [Option.some.inj (found.symm.trans isOther)]
  | text plain =>
      refine verbatim _ rfl ?_
      rintro id ⟨_, ⟨⟩, slashes, found, proper⟩
      obtain ⟨isRoot, other⟩ := plain slashes id found
      exact proper.elim (absurd isRoot) (absurd · other)
  | integer => exact verbatim _ rfl (by rintro id ⟨_, ⟨⟩, -⟩)
  | real => exact verbatim _ rfl (by rintro id ⟨_, ⟨⟩, -⟩)
  | bool => exact verbatim _ rfl (by rintro id ⟨_, ⟨⟩, -⟩)

/-! ### Earlier pages -/

theorem Seeded.isTree (seeded : Seeded schema store) : store.IsTree IsPathName := by
  have grown : Grown schema IsPathName store := by
    induction seeded with
    | fresh made => exact .fresh made
    | importSeed now seed _ induction => exact .importSeed now seed induction
  exact grown.isTree fun _ isName => isName

/-- Parents are older than the pages below them, so what leads to an old page was there when the
page was the newest. -/
theorem IsExtended.leads_iff (extended : moment.IsExtended next)
    (before : moment.IsTree IsPathName) (after : next.IsTree IsPathName) {names : List String}
    {id : Int} : moment.Leads names id ↔ next.Leads names id ∧ id ≤ moment.pages.length := by
  constructor
  · intro leads
    have isPage := before.hasPage_of_leads leads
    exact ⟨leads.mono extended.subset_places,
      ((hasPage_iff_of_isNumbered before.numbered).1 isPage).2⟩
  · rintro ⟨leads, old⟩
    induction leads with
    | root => exact .root
    | @child names id parent name above isPlace induction =>
        obtain ⟨-, older⟩ := after.parents _ isPlace (after.ne_root_of_leads above isPlace)
        have positive := ((hasPage_iff_of_isNumbered after.numbered).1 (hasPage_of_mem isPlace)).1
        have isHere : moment.HasPage id :=
          (hasPage_iff_of_isNumbered before.numbered).2 ⟨positive, old⟩
        obtain ⟨place, isOld, same⟩ := List.mem_map.1 isHere
        obtain rfl := after.eq_of_id_eq (extended.subset_places isOld) isPlace same
        dsimp only at older
        exact .child (induction (by omega)) isOld

theorem IsExtended.refers_iff (extended : moment.IsExtended next)
    (before : moment.IsTree IsPathName) (after : next.IsTree IsPathName) {value : Datum} {id : Int} :
    moment.Refers value id ↔ next.Refers value id ∧ id ≤ moment.pages.length := by
  unfold Refers
  rw [← exists_and_right]
  refine exists_congr fun path => ?_
  rw [pageId?_eq_some_iff before.siblings, pageId?_eq_some_iff after.siblings,
    extended.leads_iff before after]
  constructor
  · rintro ⟨isPath, slashes, ⟨found, old⟩, proper⟩
    exact ⟨⟨isPath, slashes, found, proper⟩, old⟩
  · rintro ⟨⟨isPath, slashes, found, proper⟩, old⟩
    exact ⟨isPath, slashes, ⟨found, old⟩, proper⟩

/-! ### The import up to a page -/

theorem importPages_append {report : SeedReport} {pages more : List SeedPage}
    (done : (importPages schema now store report (pages ++ more)).fault = none) :
    (importPages schema now store report pages).fault = none ∧
      importPages schema now store report (pages ++ more) =
        importPages schema now (importPages schema now store report pages).store
          (importPages schema now store report pages).report more := by
  induction pages generalizing store report with
  | nil => exact ⟨rfl, rfl⟩
  | cons page pages induction =>
      have first := fault_importPage done
      rw [List.cons_append, importPages_cons _ first] at done ⊢
      rw [importPages_cons _ first]
      exact induction done

/-- What is read at the moment of a page stands for an old page or for the page itself. -/
theorem refers_importPages_take (own : schema.HasOwnTables) (reached : Reachable schema store)
    (tree : store.IsTree IsPathName) (belong : store.RowsBelong) {pages : List SeedPage}
    (names : ∀ page ∈ pages, page.fields.names.Nodup) (report : SeedReport)
    (done : (importPages schema now store report pages).fault = none) {index : Nat}
    (inside : index < pages.length) {value : Datum} {id : Int} :
    (importPages schema now store report (pages.take (index + 1))).store.Refers value id ↔
      (importPages schema now store report pages).store.Refers value id ∧
        id ≤ store.nextPageId + index := by
  have whole := List.take_append_drop (index + 1) pages
  have namesTake : ∀ page ∈ pages.take (index + 1), page.fields.names.Nodup :=
    fun page member => names page (List.mem_of_mem_take member)
  have namesDrop : ∀ page ∈ pages.drop (index + 1), page.fields.names.Nodup :=
    fun page member => names page (List.mem_of_mem_drop member)
  obtain ⟨doneTake, split⟩ := importPages_append (whole.symm ▸ done)
  rw [whole] at split
  have run : ImportRun schema now store _ := .importPages (pages.take (index + 1)) store report
  have runRest : ImportRun schema now _ _ := .importPages (pages.drop (index + 1))
    (importPages schema now store report (pages.take (index + 1))).store
    (importPages schema now store report (pages.take (index + 1))).report
  obtain ⟨before, -⟩ := importPages_areAdded own reached belong namesTake report doneTake
  obtain ⟨after, -⟩ := importPages_areAdded own (reached.importRun run)
    (belong.importPages report _) namesDrop _ (split ▸ done)
  have treeBefore := tree.run (tree.run_of_importRun (fun _ isName => isName) run)
  have treeAfter := treeBefore.run (treeBefore.run_of_importRun (fun _ isName => isName) runRest)
  rw [split, after.extended.refers_iff treeBefore treeAfter, before.length, List.length_take,
    nextPageId]
  refine and_congr_right fun _ => ?_
  omega

/-! ### Seeds -/

theorem IsKeptAs.eq_text {kind : FieldKind} {text : String} {value : Sql.Value}
    (kept : IsKeptAs now kind text value) (isWords : kind = .text ∨ kind = .textarea) :
    value = .text text := by
  cases kept with
  | words => rfl
  | date => simp at isWords
  | number isNumber => rcases isNumber with rfl | rfl <;> simp at isWords

/-- A field of texts holds the scalar's own text, unless that is a path that leads to a page of the
store which is no newer than the page with the field. -/
theorem importSeed_keeps_texts (own : schema.HasOwnTables) (seeded : Seeded schema store)
    {seed : Seed} (names : ∀ page ∈ seed.pages, page.fields.names.Nodup)
    (done : (store.importSeed schema now seed).fault = none) (index : Nat) {page : SeedPage}
    (isPage : seed.pages[index]? = some page) {name : String} {value : Datum}
    (isValue : (name, value) ∈ page.fields) {field : Field}
    (isField : schema.field? name = some field) {kind : FieldKind} (isKind : field.kind? = .ok kind)
    (isWords : kind = .text ∨ kind = .textarea) :
    let next := (store.importSeed schema now seed).store
    let number := store.nextPageId + index
    ∃ text, value.ownText? = some text ∧
      (next.valuesOf field.table number = [.text text] ↔
        ∀ id ≤ number, ¬next.Refers value id) ∧
      ∀ id ≤ number, next.Refers value id →
        next.valuesOf field.table number = [.text (toString id)] := by
  intro next number
  have run : ImportRun schema now store _ := .importTemplates seed.templates store ⟨0, 0, 0⟩
  have pages := (importTemplates_hasTemplatesAdded seed.templates store ⟨0, 0, 0⟩).pages
  have reached := seeded.reachable.importRun run
  have belong := seeded.rowsBelong.importTemplates seed.templates ⟨0, 0, 0⟩
  have tree := seeded.isTree.run (seeded.isTree.run_of_importRun (fun _ isName => isName) run)
  have inside : index < seed.pages.length := (List.getElem?_eq_some_iff.1 isPage).1
  have length : (store.importTemplates ⟨0, 0, 0⟩ seed.templates).1.nextPageId + index = number := by
    rw [nextPageId, pages, ← nextPageId]
  have refers (id : Int) : Store.Refers _ value id ↔ next.Refers value id ∧ id ≤ number :=
    length ▸ refers_importPages_take own reached tree belong names _ done inside
  obtain ⟨added, -⟩ := importPages_areAdded own reached belong names _ done
  obtain ⟨_, _, text, stored, isHere, hasKind, spelled, kept, values⟩ :=
    (added.lands index page isPage).values name value isValue
  cases isField.symm.trans isHere
  cases isKind.symm.trans hasKind
  obtain rfl := kept.eq_text isWords
  obtain ⟨text', isOwn, verbatim, referred⟩ := spelled.exists_ownText?
  simp only [refers] at verbatim referred
  have numbered : ((store.pages.length + index + 1 : Nat) : Int) = number := by
    rw [← length, nextPageId, pages]
    omega
  have held : next.valuesOf field.table number = [.text text] := by
    rw [← numbered, ← pages]
    exact values
  refine ⟨text', isOwn, ?_, fun id old isPath => ?_⟩
  · rw [held, List.singleton_inj, Sql.Value.text.injEq, verbatim]
    exact forall_congr' fun id => not_and'
  · rw [held, referred id ⟨isPath, old⟩]

theorem importSeed_keeps_texts_newsSeed :
    let next := (emptyTitledStore.importSeed titleSchema ⟨0, false⟩ newsSeed).store
    next.valuesOf "field_title" 2 = [.text "News"] ∧
      next.valuesOf "field_title" 3 = [.text "2"] := by
  have done : (emptyTitledStore.importSeed titleSchema ⟨0, false⟩ newsSeed).fault = none := rfl
  constructor
  · obtain ⟨_, ⟨⟩, verbatim, -⟩ :=
      importSeed_keeps_texts (by decide) seeded_emptyTitledStore (by decide) done
        0 rfl (List.mem_singleton_self _) rfl rfl (.inl rfl)
    refine verbatim.2 ?_
    rintro id - ⟨_, ⟨⟩, slashes, -⟩
    exact absurd slashes (by decide)
  · obtain ⟨_, -, -, referred⟩ :=
      importSeed_keeps_texts (by decide) seeded_emptyTitledStore (by decide) done
        1 rfl (List.mem_singleton_self _) rfl rfl (.inl rfl)
    exact referred 2 (by decide) ⟨"/news/", rfl, by decide, rfl, by decide⟩

end Store

/-- The title of a page is its own path. -/
def selfTitledSeed : Seed where
  templates := []
  pages := [{ path := "/a/", template := none, status := none, created := none
              fields := [("title", .text "/a/")] }]

theorem Store.importSeed_selfTitledSeed :
    let imported := emptyTitledStore.importSeed titleSchema ⟨0, false⟩ selfTitledSeed
    titleSchema.HasOwnTables ∧ Store.Seeded titleSchema emptyTitledStore ∧ imported.fault = none ∧
      imported.store.pageId? "/a/" = some 2 ∧
      imported.store.valuesOf "field_title" 2 = [.text "2"] ∧
      imported.store.valuesOf "field_title" 2 ≠ [.text "/a/"] := by
  refine ⟨by decide, seeded_emptyTitledStore, rfl, rfl, rfl, by decide⟩

end PageTree
