import PageTree.Proofs.Number.Lengths
import PageTree.Proofs.Store.Values
import PageTree.Proofs.Text.Bytes

/-!
The length of stored texts. A column of numbers keeps a number in place of its text, and a number is
written shortly, so what a field holds is never longer than the engine allows a text. Main statement:
no text of a reachable store exceeds the limit.
-/

namespace PageTree

open Number Sql Text

namespace Sql.Value

theorem length_text?_ofNumberText? {s : String} {value : Value} (read : ofNumberText? s = some value)
    {text : String} (given : value.text? = some text) : text.length ≤ 100000 := by
  unfold ofNumberText? at read
  dsimp only at read
  split at read
  · next n isInteger =>
    cases read
    cases given
    exact (length_toString_le_of_inInt64 (inInt64_of_readInt64? isInteger)).trans (by decide)
  · obtain ⟨decimal, -, rfl⟩ := Option.map_eq_some_iff.1 read
    cases given
    exact Binary64.length_fifteenDigits_ofScaledText_le ..

theorem inInt64_of_toInteger? {x : Binary64} {n : Int} (whole : toInteger? x = some n) :
    InInt64 n := by
  unfold toInteger? at whole
  dsimp only at whole
  split at whole
  · next inRange =>
    cases whole
    exact ⟨inRange.1.le, inRange.2.1.le⟩
  · cases whole

/-- A column keeps a text as it is or in place of it a number. -/
theorem length_text?_store_le {limit : Nat} (large : 100000 ≤ limit) (affinity : Affinity)
    {s : String} (short : s.length ≤ limit) {text : String}
    (given : (Value.store affinity (.text s)).text? = some text) : text.length ≤ limit := by
  cases affinity with
  | text =>
      cases given
      exact short
  | integer =>
      unfold Value.store at given
      dsimp only at given
      split at given
      · next x read =>
        cases whole : toInteger? x with
        | none =>
            rw [whole] at given
            exact (length_text?_ofNumberText? read given).trans large
        | some n =>
            rw [whole] at given
            cases given
            exact (length_toString_le_of_inInt64 (inInt64_of_toInteger? whole)).trans
              (le_trans (by decide) large)
      · next number _ read => exact (length_text?_ofNumberText? read given).trans large
      · cases given
        exact short

end Sql.Value

namespace Store

def HasBoundedTexts (store : Store) : Prop :=
  ∀ row ∈ store.fieldRows, ∀ text, row.data.text? = some text → text.length ≤ textLimit

variable {schema : Schema} {store : Store}

/-- Every row is one from before or holds the value that is given. -/
theorem mem_fieldRows_changeTable {name text : String} {page : Int} {row : FieldRow}
    (member : row ∈ (store.changeTable name (FieldTable.set · page text)).fieldRows) :
    row ∈ store.fieldRows ∨ ∃ affinity, row.data = Value.store affinity (.text text) := by
  obtain ⟨next, isNext, isRow⟩ := List.mem_flatMap.1 member
  obtain ⟨table, isTable, rfl⟩ := List.mem_map.1 isNext
  split at isRow
  · dsimp only [FieldTable.set] at isRow
    rcases List.mem_append.1 isRow with kept | new
    · exact .inl (List.mem_flatMap.2 ⟨table, isTable, (List.mem_filter.1 kept).1⟩)
    · cases List.mem_singleton.1 new
      exact .inr ⟨_, rfl⟩
  · exact .inl (List.mem_flatMap.2 ⟨table, isTable, isRow⟩)

theorem isKept_hasBoundedTexts (schema : Schema) : IsKept schema HasBoundedTexts where
  addTemplate store name bounded := by
    rw [HasBoundedTexts, fieldRows, tables_addTemplate]
    exact bounded
  insertPage store next now page id inserted bounded := by
    rw [HasBoundedTexts, fieldRows, (insertPage_eq_ok inserted).tables]
    exact bounded
  setField store next now name page value set bounded := by
    obtain ⟨field, text, table, -, -, -, short, rfl⟩ := exists_of_setField set
    intro row member text' given
    rcases mem_fieldRows_changeTable member with kept | ⟨affinity, data⟩
    · exact bounded row kept text' given
    · rw [data] at given
      exact Value.length_text?_store_le (by decide) affinity
        ((length_le_utf8ByteSize text).trans short) given

theorem Reachable.hasBoundedTexts (reached : Reachable schema store) : store.HasBoundedTexts := by
  refine (isKept_hasBoundedTexts schema).of_reachable (fun now fresh made row member => ?_) reached
  obtain ⟨table, isTable, isRow⟩ := List.mem_flatMap.1 member
  rw [rows_of_ensureTables_new made table isTable] at isRow
  cases isRow

end Store

end PageTree
