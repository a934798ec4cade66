import PageTree.Proofs.Finder.Answers
import PageTree.Proofs.Finder.Complement

/-!
Several values in one term. Every value of a term picks pages by itself, but a path is asked for by
its first value alone, and a search for no words asks for nothing beside another value. Main
statement: a term that is not negated selects the pages that the terms on the values it heeds
select, and succeeds when they all do.
-/

namespace PageTree

open Sql

/-! ### Single values -/

namespace Term

/-- The term that asks for other values. -/
def withValues (term : Term) (values : List String) (text : String) : Term :=
  { term with values, text }

/-- The values of a term that are compiled. -/
def heeded (term : Term) : List String :=
  match term.kind with
  | .path => term.values.take 1
  | .attached =>
    if term.asks then term.values.filter fun value => (term.withValues [value] "").asks
    else term.values
  | _ => term.values

variable {term : Term} {values : List String} {text : String}

theorem heeded_subset (term : Term) : term.heeded ⊆ term.values := by
  unfold heeded
  split
  · exact List.take_subset 1 _
  · split
    · exact List.filter_subset_self _
    · exact List.Subset.refl _
  · exact List.Subset.refl _

theorem heeded_ne_nil (some : term.values ≠ []) : term.heeded ≠ [] := by
  unfold heeded
  split
  · simpa using some
  · split
    · next asks =>
      obtain ⟨value, isValue, asking⟩ := List.any_eq_true.1 asks
      refine List.ne_nil_of_mem (a := value) (List.mem_filter.2 ⟨isValue, ?_⟩)
      rw [Term.asks, withValues, List.any_cons, asking, Bool.true_or]
    · exact some
  · exact some

theorem values_ne_nil_of_asks (asks : term.asks = true) : term.values ≠ [] := by
  rintro none
  rw [Term.asks, none] at asks
  cases asks

theorem mem_heeded (attached : term.kind = .attached) {value : String}
    (isValue : value ∈ term.values) (asks : (term.withValues [value] text).asks = true) :
    value ∈ term.heeded := by
  unfold heeded
  rw [attached]
  dsimp only
  split
  · exact List.mem_filter.2 ⟨isValue, asks⟩
  · exact isValue

theorem asks_of_mem_heeded (attached : term.kind = .attached) {value : String}
    (isHeeded : value ∈ term.heeded) : (term.withValues [value] text).asks = term.asks := by
  unfold heeded at isHeeded
  rw [attached] at isHeeded
  dsimp only at isHeeded
  split at isHeeded
  · next asks => exact (List.mem_filter.1 isHeeded).2.trans asks.symm
  · next silent =>
    rw [Bool.not_eq_true] at silent
    rw [silent]
    have each := List.any_eq_false.1 silent value isHeeded
    rw [Term.asks, withValues, List.any_cons, List.any_nil, Bool.or_false]
    exact Bool.eq_false_iff.2 each

end Term

namespace Member

/-- The member that asks for one of the values. -/
def restrict (member : Member) (branch : Branch) : Member :=
  { member with condition := Condition.disj branch.filters, blank := branch.isBlank }

namespace IsFor

variable {catalog : Catalog} {term : Term} {name : String} {field : Field} {kind : FieldKind}
  {branches : List Branch} {member : Member}
  (isFor : member.IsFor catalog term name field kind branches) (positive : term.negated = false)

include isFor positive

theorem restrict {value : String} {found : Branch}
    (branched : branch catalog.now kind (member.column name) term.operator value = .ok found)
    (text : String) :
    (member.restrict found).IsFor catalog (term.withValues [value] text) name field kind
      [found] where
  isField := isFor.isField
  isKind := isFor.isKind
  branched := .cons branched .nil
  table := isFor.table
  condition := by
    rw [Term.withValues, positive, Condition.negateIf, if_neg Bool.false_ne_true,
      List.flatMap_singleton]
    rfl
  blank := by
    rw [List.any_cons, List.any_nil, Bool.or_false]
    rfl

theorem condition_eq : member.condition = .disj (branches.flatMap Branch.filters) := by
  rw [isFor.condition, positive, Condition.negateIf, if_neg Bool.false_ne_true]

theorem readsOnly_iff {p : String → Prop} :
    member.condition.ReadsOnly p ↔
      ∀ found ∈ branches, (member.restrict found).condition.ReadsOnly p := by
  simp only [isFor.condition_eq positive, Member.restrict, Condition.ReadsOnly,
    Condition.forall_disj, List.forall_mem_flatMap]

theorem truthIn_iff {table : FieldTable} {row : Option FieldRow} :
    member.truthIn table row = .yes ↔
      ∃ found ∈ branches, (member.restrict found).truthIn table row = .yes := by
  simp only [truthIn, isFor.condition_eq positive, Member.restrict, Condition.eval_disj,
    ← Truth.isYes_iff, Truth.isYes_any, List.any_map, List.any_eq_true, Function.comp_apply,
    List.mem_flatMap]
  exact ⟨fun ⟨filter, ⟨found, isFound, among⟩, yes⟩ => ⟨found, isFound, filter, among, yes⟩,
    fun ⟨found, isFound, filter, among, yes⟩ => ⟨filter, ⟨found, isFound, among⟩, yes⟩⟩

/-- A lack of rows fulfils a member only where a blank value asks for it, so that the member and the
one for that value speak of the same rows. -/
theorem picks_iff {table : FieldTable} {page : Page} :
    member.Picks false table page ↔
      ∃ found ∈ branches, (member.restrict found).Picks false table page := by
  have blank {found : Branch} (isFound : found ∈ branches)
      (yes : (member.restrict found).truthIn table none = .yes) : found.isBlank = true := by
    obtain ⟨value, -, branched⟩ := exists_of_mem_forall₂ isFor.branched isFound
    exact (isFor.restrict positive branched "").blank_of_isYes positive rfl
      (Truth.isYes_iff.2 yes)
  constructor
  · rintro (⟨row, isRow, same, yes⟩ | ⟨-, yes, absent⟩)
    · obtain ⟨found, isFound, yes⟩ := (isFor.truthIn_iff positive).1 yes
      exact ⟨found, isFound, .inl ⟨row, isRow, same, yes⟩⟩
    · obtain ⟨found, isFound, yes⟩ := (isFor.truthIn_iff positive).1 yes
      refine ⟨found, isFound, .inr ⟨rfl, yes, fun _ => absent ?_⟩⟩
      rw [isFor.blank]
      exact List.any_eq_true.2 ⟨found, isFound, blank isFound yes⟩
  · rintro ⟨found, isFound, ⟨row, isRow, same, yes⟩ | ⟨-, yes, absent⟩⟩
    · exact .inl ⟨row, isRow, same, (isFor.truthIn_iff positive).2 ⟨found, isFound, yes⟩⟩
    · exact .inr ⟨rfl, (isFor.truthIn_iff positive).2 ⟨found, isFound, yes⟩,
        fun _ => absent (blank isFound yes)⟩

/-- Each value has a branch. -/
theorem exists_restrict {value : String} (isValue : value ∈ term.values) (text : String) :
    ∃ found ∈ branches,
      (member.restrict found).StandsByName catalog (term.withValues [value] text) name := by
  obtain ⟨found, isFound, branched⟩ := exists_of_mem_left_forall₂ isFor.branched isValue
  exact ⟨found, isFound, field, kind, [found], isFor.restrict positive branched text⟩

/-- Each branch with filters is that of a value that asks for something. -/
theorem exists_value {found : Branch} (isFound : found ∈ branches) (some : found.filters ≠ [])
    (texts : String → String) :
    ∃ value ∈ term.values, (term.withValues [value] (texts value)).asks = true ∧
      (member.restrict found).StandsByName catalog (term.withValues [value] (texts value))
        name := by
  obtain ⟨value, isValue, branched⟩ := exists_of_mem_forall₂ isFor.branched isFound
  have single := isFor.restrict positive branched (texts value)
  have asking := isEmpty_flatMap_filters single.branched
  rw [List.flatMap_singleton, List.isEmpty_eq_false_iff.2 some] at asking
  exact ⟨value, isValue, by simpa using asking.symm, field, kind, [found], single⟩

end IsFor

end Member

/-! ### Values of one name -/

namespace Store

variable {store : Store} {catalog : Catalog} {term : Term} (positive : term.negated = false)
  (attached : term.kind = .attached) {name : String} {member : Member}
  (stands : member.StandsByName catalog term name) (texts : String → String)

include positive attached stands

/-- The columns that a name needs are those that it needs for every value. -/
theorem fitsName_iff_heeded : store.FitsName catalog term name ↔
    ∀ value ∈ term.heeded,
      store.FitsName catalog (term.withValues [value] (texts value)) name := by
  obtain ⟨field, kind, branches, isFor⟩ := stands
  constructor
  · intro fits value isHeeded asks other again
    obtain ⟨found, isFound, single⟩ :=
      isFor.exists_restrict positive (term.heeded_subset isHeeded) (texts value)
    rw [Term.asks_of_mem_heeded attached isHeeded] at asks
    obtain ⟨table, isTable, columns⟩ := fits asks member ⟨field, kind, branches, isFor⟩
    exact single.fits again ⟨table, isTable, (isFor.readsOnly_iff positive).1 columns found isFound⟩
  · intro fits asks other again
    refine Member.StandsByName.fits ⟨field, kind, branches, isFor⟩ again ?_
    obtain ⟨value, isHeeded⟩ := List.exists_mem_of_ne_nil _
      (Term.heeded_ne_nil (Term.values_ne_nil_of_asks asks))
    obtain ⟨found, isFound, single⟩ :=
      isFor.exists_restrict positive (term.heeded_subset isHeeded) (texts value)
    obtain ⟨table, isTable, -⟩ := fits value isHeeded
      ((Term.asks_of_mem_heeded attached isHeeded).trans asks) _ single
    refine ⟨table, isTable, (isFor.readsOnly_iff positive).2 fun found isFound => ?_⟩
    by_cases none : found.filters = []
    · rw [Member.restrict, none]
      exact (Condition.forall_disj _).2 fun _ isFilter => absurd isFilter List.not_mem_nil
    · obtain ⟨value, isValue, asking, single⟩ := isFor.exists_value positive isFound none texts
      obtain ⟨other, isOther, columns⟩ :=
        fits value (Term.mem_heeded attached isValue asking) asking _ single
      obtain rfl : other = table := Option.some.inj (isOther.symm.trans isTable)
      exact columns

/-- A name picks the pages that it picks for some value. -/
theorem selectsByName_iff_heeded (asks : term.asks = true) {page : Page} :
    store.SelectsByName catalog term name page ↔
      ∃ value ∈ term.heeded,
        store.SelectsByName catalog (term.withValues [value] (texts value)) name page := by
  obtain ⟨field, kind, branches, isFor⟩ := stands
  constructor
  · intro selects
    obtain ⟨other, table, again, isTable, picks⟩ := selects asks
    obtain ⟨otherField, otherKind, others, isOther⟩ := again
    obtain ⟨found, isFound, picked⟩ := (isOther.picks_iff positive).1 picks
    have filtered : found.filters ≠ [] := fun none => by
      have never (row : Option FieldRow) : (other.restrict found).truthIn table row ≠ .yes := by
        simp [Member.truthIn, Member.restrict, none, Condition.eval_disj, Truth.any]
      rcases picked with ⟨row, -, -, yes⟩ | ⟨-, yes, -⟩
      · exact never _ yes
      · exact never _ yes
    obtain ⟨value, isValue, asking, single⟩ := isOther.exists_value positive isFound filtered texts
    exact ⟨value, Term.mem_heeded attached isValue asking,
      fun _ => ⟨other.restrict found, table, single, isTable, picked⟩⟩
  · rintro ⟨value, isHeeded, selects⟩ -
    obtain ⟨other, table, again, isTable, picks⟩ :=
      selects ((Term.asks_of_mem_heeded attached isHeeded).trans asks)
    obtain ⟨found, isFound, single⟩ :=
      isFor.exists_restrict positive (term.heeded_subset isHeeded) (texts value)
    refine ⟨member, table, ⟨field, kind, branches, isFor⟩, ?_,
      (isFor.picks_iff positive).2 ⟨found, isFound, again.picks single picks⟩⟩
    exact (again.isAlike single).1 ▸ isTable

end Store

/-! ### Compiled values -/

theorem Term.kind_withValues (term : Term) (values : List String) (text : String) :
    (term.withValues values text).kind = term.kind := rfl

theorem Term.exists_nativeFilter_withValues {catalog : Catalog} {term : Term} {filter : Filter}
    (filtered : term.nativeFilter catalog = .ok filter) {value : String}
    (isValue : value ∈ term.values) (text : String) :
    ∃ single, (term.withValues [value] text).nativeFilter catalog = .ok single := by
  unfold nativeFilter at filtered ⊢
  dsimp only [withValues]
  cases relation : term.operator.relation? with
  | none =>
      rw [relation] at filtered
      cases filtered
  | some relation =>
      simp only [relation] at filtered
      obtain ⟨resolved, each, -⟩ := bind_eq_ok.1 filtered
      obtain ⟨one, -, isOne⟩ := exists_of_mem_left_forall₂ (mapM_eq_ok.1 each) isValue
      exact ⟨_, bind_eq_ok.2 ⟨[one], mapM_eq_ok.2 (.cons isOne .nil), rfl⟩⟩

theorem Member.exists_contributions_withValues {catalog : Catalog} {term : Term}
    {names used : List String} {found : List Contribution}
    (compiled : contributions catalog term used names = .ok found) {value : String}
    (isValue : value ∈ term.values) (text : String) :
    ∃ single, contributions catalog (term.withValues [value] text) used names = .ok single := by
  refine exists_contributions_iff.2 fun name isName => ?_
  obtain ⟨one, isOne⟩ := exists_contributions_iff.1 ⟨found, compiled⟩ name isName
  obtain ⟨field, kind, branches, isField, isKind, branched, -⟩ :=
    exists_of_contribution_eq_ok isOne
  obtain ⟨branch, -, isBranch⟩ := exists_of_mem_left_forall₂ branched isValue
  exact contribution_of_branched isField isKind (.cons isBranch .nil)

/-- Where a term can be compiled, it can be compiled for each of its values. -/
theorem Part.exists_ofTerm_withValues {catalog : Catalog} {term : Term} {part : Part}
    (compiled : ofTerm catalog [] term = .ok part) {value : String} (isValue : value ∈ term.values)
    (text : String) : ∃ single, ofTerm catalog [] (term.withValues [value] text) = .ok single := by
  unfold ofTerm at compiled ⊢
  rw [Term.kind_withValues]
  cases kind : term.kind with
  | sort => exact ⟨_, rfl⟩
  | window => exact ⟨_, rfl⟩
  | path => exact ⟨_, rfl⟩
  | ancestors =>
      rw [kind] at compiled
      obtain ⟨ids, named, -⟩ := bind_eq_ok.1 compiled
      obtain ⟨id, -, one⟩ := exists_of_mem_left_forall₂ (mapM_eq_ok.1 named) isValue
      exact ⟨_, bind_eq_ok.2 ⟨[id], mapM_eq_ok.2 (.cons one .nil), rfl⟩⟩
  | native =>
      rw [kind] at compiled
      obtain ⟨filter, filtered, -⟩ := bind_eq_ok.1 compiled
      obtain ⟨single, isSingle⟩ := Term.exists_nativeFilter_withValues filtered isValue text
      exact ⟨_, bind_eq_ok.2 ⟨single, isSingle, rfl⟩⟩
  | attached =>
      rw [kind] at compiled
      obtain ⟨found, contributed, -⟩ := bind_eq_ok.1 compiled
      obtain ⟨single, isSingle⟩ := Member.exists_contributions_withValues contributed isValue text
      exact ⟨_, bind_eq_ok.2 ⟨single, isSingle, rfl⟩⟩

/-! ### Unions -/

namespace Finder

variable {finder : Finder} {catalog : Catalog} {store : Store} {query : Query}

/-- The find for a term comes to what the finds for the values that it heeds come to together. -/
def Unites (finder : Finder) (catalog : Catalog) (store : Store) (term : Term)
    (texts : String → String) : Prop :=
  ∃ (possible : String → Prop) (selected : String → Page → Prop),
    finder.Answers catalog store [term] (∀ value ∈ term.heeded, possible value)
      (fun page => ∃ value ∈ term.heeded, selected value page) ∧
    ∀ value ∈ term.heeded,
      finder.Answers catalog store [term.withValues [value] (texts value)] (possible value)
        (selected value)

section

variable (reached : Store.Reachable catalog.schema store) (unchecked : finder.checkStatus = false)
  {term : Term} (compiled : finder.queryFor catalog [term] false = .ok query)
  {texts : String → String}
  (comment : finder.debug = true →
    ∀ text ∈ term.text :: term.values.map texts, isPlainComment text.toList = true)

include unchecked compiled

theorem exists_queryFor_withValues {value : String} (isValue : value ∈ term.values)
    (text : String) :
    ∃ single, finder.queryFor catalog [term.withValues [value] text] false = .ok single := by
  obtain ⟨part, isPart⟩ := (exists_queryFor_singleton_iff unchecked).1 ⟨query, compiled⟩
  exact (exists_queryFor_singleton_iff unchecked).2 (Part.exists_ofTerm_withValues isPart isValue text)

include comment

theorem unites_of_each (possible : String → Prop) (selected : String → Page → Prop)
    (all : (finder.debug = true → isPlainComment term.text.toList = true) →
      finder.Answers catalog store [term] (∀ value ∈ term.heeded, possible value)
        fun page => ∃ value ∈ term.heeded, selected value page)
    (each : ∀ value ∈ term.heeded, ∀ single,
      finder.queryFor catalog [term.withValues [value] (texts value)] false = .ok single →
      (finder.debug = true → isPlainComment (texts value).toList = true) →
        finder.Answers catalog store [term.withValues [value] (texts value)] (possible value)
          (selected value)) : finder.Unites catalog store term texts := by
  refine ⟨possible, selected, all fun debug => comment debug _ (List.mem_cons_self ..),
    fun value isHeeded => ?_⟩
  have isValue := term.heeded_subset isHeeded
  obtain ⟨single, isSingle⟩ := exists_queryFor_withValues unchecked compiled isValue (texts value)
  exact each value isHeeded single isSingle fun debug =>
    comment debug _ (List.mem_cons_of_mem _ (List.mem_map_of_mem isValue))

include reached

theorem unites_of_native (positive : term.negated = false) (kind : term.kind = .native) :
    finder.Unites catalog store term texts := by
  have heeded : term.heeded = term.values := by rw [Term.heeded, kind]
  refine unites_of_each unchecked compiled comment (fun _ => True)
    (fun value page => term.isSatisfiedByColumn catalog page value = true) (fun plain => ?_)
      fun value isHeeded single isSingle plain => ?_
  · refine (answers_native reached.nodup_ids unchecked compiled plain kind).congr (by simp)
      fun page _ => ?_
    rw [heeded, Term.isSatisfiedNatively, positive, Bool.bne_false, List.any_eq_true]
  · refine (answers_native reached.nodup_ids unchecked isSingle plain kind).congr Iff.rfl
      fun page _ => ?_
    rw [Term.isSatisfiedNatively, Term.withValues, positive, Bool.bne_false, List.any_cons,
      List.any_nil, Bool.or_false]
    rfl

theorem unites_of_ancestors (kind : term.kind = .ancestors) :
    finder.Unites catalog store term texts := by
  have heeded : term.heeded = term.values := by rw [Term.heeded, kind]
  refine unites_of_each unchecked compiled comment (fun _ => True)
    (store.SelectsByAncestor catalog) (fun plain => ?_)
      fun value isHeeded single isSingle plain => ?_
  · rw [heeded]
    exact (answers_ancestors reached.nodup_ids unchecked compiled plain kind).congr (by simp)
      fun _ _ => Iff.rfl
  · refine (answers_ancestors reached.nodup_ids unchecked isSingle plain kind).congr Iff.rfl
      fun page _ => ?_
    simp only [Term.withValues, List.mem_singleton, exists_eq_left]

theorem unites_of_path (some : term.values ≠ []) (kind : term.kind = .path) :
    finder.Unites catalog store term texts := by
  obtain ⟨first, rest, values⟩ := List.exists_cons_of_ne_nil some
  have heeded : term.heeded = [first] := by
    rw [Term.heeded, kind, values]
    rfl
  have value : term.value = first := by
    rw [Term.value, values]
    rfl
  refine unites_of_each unchecked compiled comment store.TakesPath store.SelectsByPath
    (fun plain => ?_) fun value isHeeded single isSingle plain => ?_
  · simp only [heeded, List.mem_singleton, forall_eq, exists_eq_left]
    exact value ▸ answers_path reached.nodup_ids unchecked plain kind
  · exact answers_path reached.nodup_ids unchecked plain kind

omit unchecked compiled comment in
/-- In a reachable store, a field's table is no free alias only for its name. -/
theorem isQualifier_eq_false_of_unfree {field : Field} {name : String}
    (isField : catalog.schema.field? name = some field)
    (unopened : beginsQuery field.table = false) (unfree : ¬IsFreeAlias field.table) :
    isQualifier field.table = false := by
  by_contra qualified
  obtain ⟨-, -, ordinary⟩ := reached.exists_table? (Schema.mem_fields_of_field? isField)
  refine unfree ⟨by simpa using qualified, unopened, fun same => ?_⟩
  rw [Store.hasName, List.any_eq_false] at ordinary
  exact ordinary "pages" (by decide) (decide_eq_true same.symm)

theorem unites_of_unasking (some : term.values ≠ []) (kind : term.kind = .attached)
    (unasking : term.asks = false) : finder.Unites catalog store term texts := by
  have singleKind (value : String) :
      (term.withValues [value] (texts value)).kind = .attached := kind
  obtain ⟨first, isFirst⟩ := List.exists_mem_of_ne_nil _ (Term.heeded_ne_nil some)
  refine unites_of_each unchecked compiled comment (fun _ => True) (fun _ _ => True)
    (fun plain => ?_) fun value isHeeded single isSingle plain => ?_
  · exact (answers_unasking reached unchecked kind compiled plain unasking).congr (by simp)
      fun _ _ => iff_of_true trivial ⟨first, isFirst, trivial⟩
  · exact answers_unasking reached unchecked (singleKind value) isSingle plain
      ((Term.asks_of_mem_heeded kind isHeeded).trans unasking)

section

variable (kind : term.kind = .attached) {name : String} (lone : term.fields = [name])
  (asks : term.asks = true)

include kind lone asks

theorem unites_of_free (positive : term.negated = false)
    (free : ∀ field, catalog.schema.field? (Member.splitName name).1 = some field →
      IsFreeAlias field.table) : finder.Unites catalog store term texts := by
  have singleLone (value : String) : (term.withValues [value] (texts value)).fields = [name] := lone
  have singlePositive (value : String) :
      (term.withValues [value] (texts value)).negated = false := positive
  have singleKind (value : String) :
      (term.withValues [value] (texts value)).kind = .attached := kind
  obtain ⟨member, -, sole, -, -, isForTerm, -⟩ :=
    exists_sole_member unchecked kind lone compiled asks
  have stand := isForTerm.stand
  rw [lone] at stand
  have stands := (List.forall₂_cons.1 stand).1
  refine unites_of_each unchecked compiled comment
    (fun value => store.FitsName catalog (term.withValues [value] (texts value)) name)
    (fun value => store.SelectsByName catalog (term.withValues [value] (texts value)) name)
    (fun plain => ?_) fun value isHeeded single isSingle plain => ?_
  · exact (answers_name reached unchecked positive kind lone compiled plain asks free).congr
      (Store.fitsName_iff_heeded positive kind stands texts) fun page _ =>
        Store.selectsByName_iff_heeded positive kind stands texts asks
  · exact answers_name reached unchecked (singlePositive value) (singleKind value)
      (singleLone value) isSingle plain ((Term.asks_of_mem_heeded kind isHeeded).trans asks) free

/-- No find on a table that cannot be named succeeds. -/
theorem unites_of_unreadable (some : term.values ≠ [])
    (unreadable : ∀ field, catalog.schema.field? (Member.splitName name).1 = .some field →
      isQualifier field.table = false) : finder.Unites catalog store term texts := by
  have singleKind (value : String) :
      (term.withValues [value] (texts value)).kind = .attached := kind
  have singleLone (value : String) : (term.withValues [value] (texts value)).fields = [name] := lone
  obtain ⟨first, isFirst⟩ := List.exists_mem_of_ne_nil _ (Term.heeded_ne_nil some)
  refine unites_of_each unchecked compiled comment (fun _ => False) (fun _ _ => True)
    (fun plain => ?_) fun value isHeeded single isSingle plain => ?_
  · exact (answers_name_of_unreadable reached unchecked kind lone compiled plain asks
      unreadable _).congr ⟨False.elim, fun all => all first isFirst⟩ fun _ _ => Iff.rfl
  · exact answers_name_of_unreadable reached unchecked (singleKind value) (singleLone value)
      isSingle plain ((Term.asks_of_mem_heeded kind isHeeded).trans asks) unreadable _

end

theorem unites_of_attached (positive : term.negated = false) (some : term.values ≠ [])
    (kind : term.kind = .attached) {name : String} (lone : term.fields = [name])
    (unopened : ∀ field, catalog.schema.field? (Member.splitName name).1 = .some field →
      beginsQuery field.table = false) :
    finder.Unites catalog store term texts := by
  cases asks : term.asks with
  | false => exact unites_of_unasking reached unchecked compiled comment some kind asks
  | true =>
      by_cases free : ∀ field, catalog.schema.field? (Member.splitName name).1 = .some field →
          IsFreeAlias field.table
      · exact unites_of_free reached unchecked compiled comment kind lone asks positive free
      · refine unites_of_unreadable reached unchecked compiled comment kind lone asks some
          fun field isField => isQualifier_eq_false_of_unfree reached isField
            (unopened field isField) fun isFree => free fun other isOther => ?_
        obtain rfl : field = other := Option.some.inj (isField.symm.trans isOther)
        exact isFree

theorem unites (positive : term.negated = false) (some : term.values ≠ [])
    (filters : term.kind ≠ .sort ∧ term.kind ≠ .window) (lone : term.fields = [term.field])
    (unopened : term.kind = .attached → ∀ field,
      catalog.schema.field? (Member.splitName term.field).1 = .some field →
        beginsQuery field.table = false) : finder.Unites catalog store term texts := by
  cases kind : term.kind with
  | sort => exact absurd kind filters.1
  | window => exact absurd kind filters.2
  | path => exact unites_of_path reached unchecked compiled comment some kind
  | ancestors => exact unites_of_ancestors reached unchecked compiled comment kind
  | native => exact unites_of_native reached unchecked compiled comment positive kind
  | attached =>
      exact unites_of_attached reached unchecked compiled comment positive some kind lone
        (unopened kind)

end

/-- A term that is not negated selects the pages that the terms on the values it heeds select. They
may be asked at different moments where they do not read the clock. The engine answers as without
bounds on the size of statements and patterns where it keeps to them. -/
theorem find_values (reached : Store.Reachable catalog.schema store)
    (unchecked : finder.checkStatus = false) {term : Term} (positive : term.negated = false)
    (filters : term.kind ≠ .sort ∧ term.kind ≠ .window) (lone : term.fields = [term.field])
    (some : term.values ≠ [])
    (unopened : term.kind = .attached → ∀ field,
      catalog.schema.field? (Member.splitName term.field).1 = .some field →
        beginsQuery field.table = false)
    (compiled : finder.queryFor catalog [term] false = .ok query) {texts : String → String}
    {moments : String → Date.Moment}
    (clockless : ∀ value ∈ term.values,
      finder.queryFor { catalog with now := moments value }
          [term.withValues [value] (texts value)] false =
        finder.queryFor catalog [term.withValues [value] (texts value)] false)
    (comment : finder.debug = true →
      ∀ text ∈ term.text :: term.values.map texts, isPlainComment text.toList = true) :
    (∀ value ∈ term.values, ∃ single,
      finder.queryFor { catalog with now := moments value }
        [term.withValues [value] (texts value)] false = .ok single) ∧
    ((∃ rows, (finder.find catalog store.unboundedEngine [term] false).rows = .ok rows) ↔
      ∀ value ∈ term.heeded, ∃ rows, (finder.find { catalog with now := moments value }
        store.unboundedEngine [term.withValues [value] (texts value)] false).rows = .ok rows) ∧
    (∀ rows, (finder.find catalog store.unboundedEngine [term] false).rows = .ok rows →
      ∃ selected : String → Page → Prop,
        (∀ value ∈ term.heeded, ∃ others, (finder.find { catalog with now := moments value }
          store.unboundedEngine [term.withValues [value] (texts value)] false).rows = .ok others ∧
            store.Shows others (selected value)) ∧
        store.Shows rows fun page => ∃ value ∈ term.heeded, selected value page) ∧
    (query.isWithinLimits = true → query.hasLongPattern = false →
      (finder.find catalog store.engine [term] false).rows =
        (finder.find catalog store.unboundedEngine [term] false).rows) ∧
    ∀ value ∈ term.values, ∀ single,
      finder.queryFor { catalog with now := moments value }
          [term.withValues [value] (texts value)] false = .ok single →
        single.isWithinLimits = true → single.hasLongPattern = false →
          (finder.find { catalog with now := moments value } store.engine
              [term.withValues [value] (texts value)] false).rows =
            (finder.find { catalog with now := moments value } store.unboundedEngine
              [term.withValues [value] (texts value)] false).rows := by
  obtain ⟨possible, selected, all, each⟩ :=
    unites reached unchecked compiled comment positive some filters lone unopened
  have moved {value : String} (isHeeded : value ∈ term.heeded) :=
    find_congr (clockless value (term.heeded_subset isHeeded)) store.unboundedEngine
  refine ⟨fun value isValue => ?_, ?_, fun rows ok => ⟨selected, fun value isHeeded => ?_,
    all.shows rows ok⟩, fun small short => ?_, fun value _ single isSingle small short => ?_⟩
  · rw [clockless value isValue]
    exact exists_queryFor_withValues unchecked compiled isValue (texts value)
  · refine all.succeeds.trans (forall₂_congr fun value isHeeded => ?_)
    rw [moved isHeeded]
    exact (each value isHeeded).succeeds.symm
  · obtain ⟨others, found⟩ :=
      (each value isHeeded).succeeds.2 (all.succeeds.1 ⟨rows, ok⟩ value isHeeded)
    rw [moved isHeeded]
    exact ⟨others, found, (each value isHeeded).shows others found⟩
  · rw [find_engine_eq compiled small short]
  · rw [find_engine_eq isSingle small short]

/-- A search for either of two texts. -/
def twoTexts : Term :=
  { fields := ["title"], values := ["us", "them"], operator := .equal, negated := false
    text := "title=us|them" }

theorem find_values_textsStore :
    ∃ rows, Selector.read "title=us|them" = .ok [twoTexts] ∧ twoTexts.heeded = ["us", "them"] ∧
      (anyStatus.find textsCatalog textsStore.engine [twoTexts] false).rows = .ok rows ∧
      textsStore.Shows rows fun page => page.id = 1 ∨ page.id = 2 := by
  have reached := Store.reachable_textsStore
  have found : textsCatalog.schema.field? (Member.splitName twoTexts.field).1 =
      some { name := "title", kind := "text", table := "field_title" } := rfl
  have unopened : ∀ field,
      textsCatalog.schema.field? (Member.splitName twoTexts.field).1 = some field →
        beginsQuery field.table = false := by
    intro field isField
    rw [found] at isField
    cases isField
    decide
  have us (now : Date.Moment) : anyStatus.queryFor { textsCatalog with now }
      [twoTexts.withValues ["us"] ("title=" ++ "us")] false =
        .ok (valueQuery "field_title" "us") := rfl
  have them (now : Date.Moment) : anyStatus.queryFor { textsCatalog with now }
      [twoTexts.withValues ["them"] ("title=" ++ "them")] false =
        .ok (valueQuery "field_title" "them") := rfl
  have clockless : ∀ value ∈ twoTexts.values,
      anyStatus.queryFor { textsCatalog with now := ⟨1, false⟩ }
          [twoTexts.withValues [value] ("title=" ++ value)] false =
        anyStatus.queryFor textsCatalog [twoTexts.withValues [value] ("title=" ++ value)] false :=
    List.forall_mem_cons.2 ⟨(us _).trans (us _).symm,
      List.forall_mem_singleton.2 ((them _).trans (them _).symm)⟩
  obtain ⟨-, succeeds, shows, bounded, singles⟩ := find_values reached
    (rfl : anyStatus.checkStatus = false) (rfl : twoTexts.negated = false) (by decide) rfl
    (by decide) (fun _ => unopened) (rfl : anyStatus.queryFor textsCatalog [twoTexts] false = _)
    clockless (fun debug => absurd debug Bool.false_ne_true)
  have heeded : twoTexts.heeded = ["us", "them"] := by decide
  obtain ⟨first, isFirst, showFirst⟩ := find_shows_of_runnablePlan? reached.nodup_ids
    (by decide : (valueQuery "field_title" "us").isPlain = true) rfl (us ⟨1, false⟩) rfl
    (by decide : ∀ page ∈ textsStore.pages, _ ↔ page.id = 2)
  obtain ⟨second, isSecond, showSecond⟩ := find_shows_of_runnablePlan? reached.nodup_ids
    (by decide : (valueQuery "field_title" "them").isPlain = true) rfl (them ⟨1, false⟩) rfl
    (by decide : ∀ page ∈ textsStore.pages, _ ↔ page.id = 1)
  rw [singles "us" (by decide) _ (us _) (by decide) (by decide)] at isFirst
  rw [singles "them" (by decide) _ (them _) (by decide) (by decide)] at isSecond
  rw [heeded, List.forall_mem_cons, List.forall_mem_singleton] at succeeds
  obtain ⟨rows, ok⟩ := succeeds.2 ⟨⟨first, isFirst⟩, second, isSecond⟩
  obtain ⟨selected, each, shown⟩ := shows rows ok
  rw [heeded, List.forall_mem_cons, List.forall_mem_singleton] at each
  obtain ⟨⟨others, isOthers, showOthers⟩, more, isMore, showMore⟩ := each
  obtain rfl : first = others := Except.ok.inj (isFirst.symm.trans isOthers)
  obtain rfl : second = more := Except.ok.inj (isSecond.symm.trans isMore)
  refine ⟨rows, rfl, heeded, (bounded (by decide) (by decide)).trans ok,
    shown.congr fun page isPage => ?_⟩
  have same := (showOthers.iff reached.nodup_ids isPage).symm.trans
    (showFirst.iff reached.nodup_ids isPage)
  have sameToo := (showMore.iff reached.nodup_ids isPage).symm.trans
    (showSecond.iff reached.nodup_ids isPage)
  simp [heeded, same, sameToo, or_comm]

end Finder

end PageTree
