import Mathlib.Data.List.Pairwise
import PageTree.Proofs.Compile.Naming

/-!
Aliases of joined tables. A table that is used again gets a number after its name, so a table whose
name is another one with digits after it could meet an alias of that one. Main statement: where no
name continues another one by digits, all aliases differ, and not by the case of letters alone.
-/

namespace PageTree

open Sql

/-! ### Names without regard to case -/

theorem toList_foldName_append (name other : String) :
    (foldName (name ++ other)).toList = (foldName name).toList ++ (foldName other).toList := by
  simp only [foldName, String.toList_append, List.map_append, String.toList_ofList]

theorem foldName_ne_of_head? {name other : String} {c d : Char}
    (begins : name.toList.head? = some c) (beginsToo : other.toList.head? = some d)
    (differ : c.toLower ≠ d.toLower) : foldName name ≠ foldName other := by
  intro same
  have heads := congrArg (fun name : String => name.toList.head?) same
  simp only [foldName, String.toList_ofList, List.head?_map, begins, beginsToo, Option.map_some,
    Option.some.injEq] at heads
  exact differ heads

theorem toLower_of_isDigit {c : Char} (digit : c.isDigit = true) : c.toLower = c := by
  simp only [Char.isDigit, Bool.and_eq_true, decide_eq_true_eq] at digit
  unfold Char.toLower
  split
  · next upper =>
    have above : (65 : UInt32) ≤ c.val := upper.1
    have below : c.val ≤ (57 : UInt32) := digit.2
    exact absurd (UInt32.le_trans above below) (by decide)
  · rfl

theorem toLower_of_isNameRest {c : Char} (rest : Schema.isNameRest c = true) : c.toLower = c := by
  simp only [Schema.isNameRest, Bool.or_eq_true, decide_eq_true_eq] at rest
  rcases rest with (lower | digit) | rfl
  · unfold Char.toLower
    split
    · next upper =>
      have below : c.val ≤ (90 : UInt32) := upper.2
      have above : (97 : UInt32) ≤ c.val := of_decide_eq_true ((Bool.and_eq_true _ _).mp lower).1
      exact absurd (UInt32.le_trans above below) (by decide)
    · rfl
  · exact toLower_of_isDigit digit
  · rfl

theorem map_toLower_of_letters {cs : List Char} (letters : ∀ c ∈ cs, Schema.isNameRest c = true) :
    cs.map Char.toLower = cs :=
  (List.map_congr_left fun c member => toLower_of_isNameRest (letters c member)).trans
    (List.map_id _)

theorem foldName_of_letters {name : String}
    (letters : ∀ c ∈ name.toList, Schema.isNameRest c = true) : foldName name = name := by
  rw [foldName, map_toLower_of_letters letters, String.ofList_toList]

theorem toList_foldName_ofDigits {digits : List Char} (all : ∀ c ∈ digits, c.isDigit = true) :
    (foldName (String.ofList digits)).toList = digits := by
  rw [foldName, String.toList_ofList, String.toList_ofList]
  exact (List.map_congr_left fun c member => toLower_of_isDigit (all c member)).trans
    (List.map_id digits)

/-- Is `name` the other name with digits after it, or with nothing, whatever the case of letters? -/
def continuesByDigits (name other : String) : Bool :=
  (foldName other).toList.isPrefixOf (foldName name).toList &&
    ((foldName name).toList.drop (foldName other).toList.length).all Char.isDigit

theorem continuesByDigits_iff {name other : String} :
    continuesByDigits name other = true ↔
      ∃ digits : List Char, (∀ c ∈ digits, c.isDigit = true) ∧
        (foldName name).toList = (foldName other).toList ++ digits := by
  rw [continuesByDigits, Bool.and_eq_true, List.isPrefixOf_iff_prefix, List.all_eq_true]
  constructor
  · rintro ⟨⟨digits, spelled⟩, all⟩
    rw [← spelled, List.drop_left] at all
    exact ⟨digits, all, spelled.symm⟩
  · rintro ⟨digits, all, spelled⟩
    rw [spelled, List.drop_left]
    exact ⟨List.prefix_append .., all⟩

/-- Neither of two names continues the other one by digits. -/
structure AreApart (name other : String) : Prop where
  left : continuesByDigits name other = false
  right : continuesByDigits other name = false

instance (name other : String) : Decidable (AreApart name other) :=
  decidable_of_iff (continuesByDigits name other = false ∧ continuesByDigits other name = false)
    ⟨fun both => ⟨both.1, both.2⟩, fun apart => ⟨apart.left, apart.right⟩⟩

namespace AreApart

variable {name other : String}

theorem symm (apart : AreApart name other) : AreApart other name :=
  ⟨apart.right, apart.left⟩

theorem sameName_eq_false (apart : AreApart name other) : sameName name other = false := by
  rw [Bool.eq_false_iff]
  intro same
  refine Bool.eq_false_iff.1 apart.left (continuesByDigits_iff.2 ⟨[], by simp, ?_⟩)
  rw [of_decide_eq_true same, List.append_nil]

/-- Digits after names that are apart do not make them the same. -/
theorem append_ne (apart : AreApart name other) {digits others : List Char}
    (all : ∀ c ∈ digits, c.isDigit = true) (allOthers : ∀ c ∈ others, c.isDigit = true) :
    (foldName name).toList ++ digits ≠ (foldName other).toList ++ others := by
  intro same
  rcases List.append_eq_append_iff.1 same with ⟨rest, spelled, later⟩ | ⟨rest, spelled, later⟩
  · refine Bool.eq_false_iff.1 apart.right (continuesByDigits_iff.2 ⟨rest, ?_, spelled⟩)
    exact fun c member => all c (later ▸ List.mem_append_left _ member)
  · refine Bool.eq_false_iff.1 apart.left (continuesByDigits_iff.2 ⟨rest, ?_, spelled⟩)
    exact fun c member => allOthers c (later ▸ List.mem_append_left _ member)

theorem append (apart : AreApart name other) (front : String) :
    AreApart (front ++ name) (front ++ other) := by
  have same (name other : String) :
      continuesByDigits (front ++ name) (front ++ other) = continuesByDigits name other := by
    rw [Bool.eq_iff_iff, continuesByDigits_iff, continuesByDigits_iff]
    simp only [toList_foldName_append, List.append_assoc, List.append_cancel_left_eq]
  exact ⟨(same name other).trans apart.left, (same other name).trans apart.right⟩

end AreApart

/-! ### Fields of a schema -/

namespace Schema

/-- Does no field name continue another one by digits, whatever the case of letters? -/
def HasApartNames (schema : Schema) : Prop :=
  schema.fields.Pairwise fun field other => AreApart field.name other.name

instance (schema : Schema) : Decidable schema.HasApartNames :=
  inferInstanceAs (Decidable (List.Pairwise _ _))

def defaultTable (name : String) : String :=
  "field_" ++ name

/-- Are all fields stored in the tables that are named for them? -/
def HasDefaultTables (schema : Schema) : Prop :=
  ∀ field ∈ schema.fields, field.table = defaultTable field.name

instance (schema : Schema) : Decidable schema.HasDefaultTables :=
  inferInstanceAs (Decidable (∀ field ∈ schema.fields, _))

variable {schema : Schema}

theorem mem_fields_of_field? {name : String} {field : Field}
    (found : schema.field? name = some field) : field ∈ schema.fields := by
  obtain ⟨declaration, isDeclared, rfl⟩ := Option.map_eq_some_iff.1 found
  exact List.mem_map.2 ⟨_, Dictionary.mem_of_find? isDeclared, rfl⟩

theorem name_eq_of_field? {name : String} {field : Field}
    (found : schema.field? name = some field) : field.name = name := by
  obtain ⟨declaration, -, rfl⟩ := Option.map_eq_some_iff.1 found
  rfl

theorem pairwise_tables (apart : schema.HasApartNames) (default : schema.HasDefaultTables) :
    schema.fields.Pairwise fun field other => AreApart field.table other.table := by
  refine List.Pairwise.imp_of_mem (fun isField isOther names => ?_) apart
  rw [default _ isField, default _ isOther]
  exact names.append "field_"

theorem areApart_tables (apart : schema.HasApartNames) (default : schema.HasDefaultTables)
    {field other : Field} (isField : field ∈ schema.fields) (isOther : other ∈ schema.fields)
    (different : field.table ≠ other.table) : AreApart field.table other.table := by
  have symmetric : Std.Symm fun field other : Field => AreApart field.table other.table :=
    ⟨fun _ _ => AreApart.symm⟩
  apply (pairwise_tables apart default).forall isField isOther
  exact fun same => different (congrArg Field.table same)

/-- Names that begin otherwise are none of some words. -/
theorem foldName_notMem {front : String} {words : List String}
    (none : words.all (fun word => !front.toList.isPrefixOf word.toList) = true) {name : String}
    (named : front.toList <+: (foldName name).toList) : foldName name ∉ words := by
  intro member
  have differs := List.all_eq_true.1 none _ member
  rw [Bool.not_eq_true', Bool.eq_false_iff] at differs
  exact differs (List.isPrefixOf_iff_prefix.2 named)

theorem isQualifier_of_notMem {name : String} (word : isWord name = true)
    (other : foldName name ∉ reservedWords ++ valueWords) : isQualifier name = true := by
  rw [List.mem_append, not_or] at other
  rw [isQualifier, isBareName, word, List.contains_eq_mem, List.contains_eq_mem,
    decide_eq_false other.1, decide_eq_false other.2]
  rfl

theorem prefix_foldName_defaultTable (name : String) :
    "field_".toList <+: (foldName (defaultTable name)).toList := by
  rw [defaultTable, toList_foldName_append]
  exact (by decide : (foldName "field_").toList = "field_".toList) ▸ List.prefix_append ..

end Schema

/-! ### Numbered aliases -/

/-- What stands after the name of a table that was used so often before. -/
def aliasDigits : Nat → List Char
  | 0 => []
  | n + 1 => Nat.toDigits 10 (n + 1)

theorem isDigit_of_mem_aliasDigits {n : Nat} {c : Char} (member : c ∈ aliasDigits n) :
    c.isDigit = true := by
  cases n with
  | zero => simp [aliasDigits] at member
  | succ n => exact Text.isDigit_of_mem_toDigits c member

theorem eq_of_aliasDigits_eq {n m : Nat} (same : aliasDigits n = aliasDigits m) : n = m := by
  have value (n : Nat) : Nat.ofDigitChars 10 (aliasDigits n) 0 = n := by
    cases n with
    | zero => rfl
    | succ n => exact Nat.ofDigitChars_ten_toDigits
  rw [← value n, same, value m]

theorem toList_nextAlias (used : List String) (table : String) :
    (nextAlias used table).toList = table.toList ++ aliasDigits (used.count table) := by
  unfold nextAlias
  split
  · next unused => rw [unused, aliasDigits, List.append_nil]
  · next n uses =>
    rw [uses, String.toList_append, Nat.toString_eq_ofList_toDigits, String.toList_ofList]
    rfl

theorem toList_foldName_nextAlias (used : List String) (table : String) :
    (foldName (nextAlias used table)).toList =
      (foldName table).toList ++ aliasDigits (used.count table) := by
  have digits : (aliasDigits (used.count table)).map Char.toLower =
      aliasDigits (used.count table) :=
    (List.map_congr_left fun c member =>
      toLower_of_isDigit (isDigit_of_mem_aliasDigits member)).trans (List.map_id _)
  rw [foldName, foldName, String.toList_ofList, String.toList_ofList, toList_nextAlias,
    List.map_append, digits]

/-- The aliases for uses of some tables, after the uses of the tables in `used`. -/
def nextAliases (used : List String) : List String → List String
  | [] => []
  | table :: tables => nextAlias used table :: nextAliases (used ++ [table]) tables

theorem nextAliases_append (used tables others : List String) :
    nextAliases used (tables ++ others) =
      nextAliases used tables ++ nextAliases (used ++ tables) others := by
  induction tables generalizing used with
  | nil => rw [List.append_nil]; rfl
  | cons table tables induction =>
      rw [List.cons_append, nextAliases, induction, nextAliases, List.cons_append,
        List.append_assoc]
      rfl

theorem exists_nextAlias_of_mem {used tables : List String} {aliasName : String}
    (member : aliasName ∈ nextAliases used tables) :
    ∃ table ∈ tables, ∃ before, used.count table ≤ before.count table ∧
      aliasName = nextAlias before table := by
  induction tables generalizing used with
  | nil => simp [nextAliases] at member
  | cons table tables induction =>
      rcases List.mem_cons.1 member with rfl | later
      · exact ⟨table, List.mem_cons_self .., used, Nat.le_refl _, rfl⟩
      · obtain ⟨other, isOther, before, atLeast, spelled⟩ := induction later
        refine ⟨other, List.mem_cons_of_mem _ isOther, before, Nat.le_trans ?_ atLeast, spelled⟩
        rw [List.count_append]
        exact Nat.le_add_right ..

/-- Aliases differ however they are spelled, as long as the digits are, where the tables with digits
after them do. -/
theorem nodup_map_nextAliases {spell : String → List Char}
    (spelled : ∀ used table,
      spell (nextAlias used table) = spell table ++ aliasDigits (used.count table))
    {used tables : List String}
    (apart : ∀ table ∈ tables, ∀ other ∈ tables, table ≠ other → ∀ n m,
      spell table ++ aliasDigits n ≠ spell other ++ aliasDigits m) :
    ((nextAliases used tables).map spell).Nodup := by
  induction tables generalizing used with
  | nil => exact List.nodup_nil
  | cons table tables induction =>
      rw [nextAliases, List.map_cons, List.nodup_cons]
      constructor
      · intro repeated
        obtain ⟨aliasName, member, same⟩ := List.mem_map.1 repeated
        obtain ⟨other, isOther, before, atLeast, rfl⟩ := exists_nextAlias_of_mem member
        rw [spelled, spelled] at same
        by_cases equal : other = table
        · subst equal
          have counts := eq_of_aliasDigits_eq (List.append_cancel_left same)
          rw [List.count_append, List.count_singleton_self] at atLeast
          omega
        · exact apart other (List.mem_cons_of_mem _ isOther) table (List.mem_cons_self ..) equal
            _ _ same
      · exact induction fun table isTable other isOther =>
          apart table (List.mem_cons_of_mem _ isTable) other (List.mem_cons_of_mem _ isOther)

theorem nodup_nextAliases {used tables : List String}
    (apart : ∀ table ∈ tables, ∀ other ∈ tables, table ≠ other → AreApart table other) :
    ((nextAliases used tables).map foldName).Nodup := by
  have nodup : ((nextAliases used tables).map fun name => (foldName name).toList).Nodup :=
    nodup_map_nextAliases toList_foldName_nextAlias fun table isTable other isOther different _ _ =>
      (apart table isTable other isOther different).append_ne
        (fun _ => isDigit_of_mem_aliasDigits) fun _ => isDigit_of_mem_aliasDigits
  rw [List.Nodup, List.pairwise_map] at nodup ⊢
  exact nodup.imp fun differ same => differ (congrArg String.toList same)

end PageTree
