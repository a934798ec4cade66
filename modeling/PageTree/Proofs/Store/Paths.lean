import PageTree.Compile.Path
import PageTree.Proofs.Query.Comment
import PageTree.Proofs.Text.Pieces
import PageTree.Store.Seed

/-!
Paths in writing. A name that a path can hold is not empty and has no slash in it. Main statement:
such names with slashes between them are read back from their path, whether it ends with a slash or
not.
-/

namespace PageTree

open Text
open Sql.Statement (HasLoneSlashes)

namespace Store

/-- A name that can stand in a path. -/
def IsPathName (name : String) : Prop :=
  name ≠ "" ∧ '/' ∉ name.toList

theorem isPathName_split {path : String} (named : (SeedPage.split path).2 ≠ "") :
    IsPathName (SeedPage.split path).2 := by
  refine ⟨named, ?_⟩
  unfold SeedPage.split
  dsimp only
  split
  · next found =>
    rw [String.toList_ofList]
    exact (splitLast?_eq_some found).2
  · next whole =>
    rw [String.toList_ofList]
    exact splitLast?_eq_none_iff.1 whole

/-- A path along these names, which may end with a slash or not. -/
def IsPathText (names : List String) (path : String) : Prop :=
  path = "/" ++ "/".intercalate names ∨ path = pathText names

theorem toList_pathText (names : List String) :
    (pathText names).toList = ([] :: names.map String.toList).flatMap (· ++ ['/']) := by
  rw [pathText, String.toList_append, String.toList_join, List.flatMap_cons, List.flatMap_map,
    List.flatMap_map]
  simp only [String.toList_append]
  rfl

theorem slash_append_intercalate_concat (names : List String) (last : String) :
    "/" ++ "/".intercalate (names ++ [last]) = pathText names ++ last := by
  induction names with
  | nil => simp [pathText]
  | cons name names induction =>
      have further : names ++ [last] ≠ [] := List.concat_ne_nil last names
      obtain ⟨next, rest, listed⟩ := List.exists_cons_of_ne_nil further
      rw [pathText, String.append_assoc, String.append_right_inj] at induction
      rw [List.cons_append, listed, String.intercalate_cons_cons, ← listed, String.append_assoc,
        induction, pathText, List.map_cons, String.join_cons]
      simp only [String.append_assoc]

theorem isPathText_nil_iff {path : String} : IsPathText [] path ↔ path = "/" := by
  simp [IsPathText, pathText]

theorem pathText_eq {names : List String} (some : names ≠ []) :
    pathText names = "/" ++ "/".intercalate names ++ "/" := by
  obtain ⟨above, last, rfl⟩ := List.eq_nil_or_concat names |>.resolve_left some
  rw [List.concat_eq_append, slash_append_intercalate_concat, pathText, pathText, List.map_append,
    String.join_append]
  simp [String.append_assoc]

section

variable {names : List String} (named : ∀ name ∈ names, IsPathName name)

include named

theorem splitAt_pathText : splitAt '/' (pathText names).toList
    = ([] :: names.map String.toList) ++ [[]] := by
  rw [toList_pathText, ← List.append_nil (List.flatMap _ _)]
  refine splitAt_flatMap_append ?_ List.not_mem_nil
  rw [List.forall_mem_cons, List.forall_mem_map]
  exact ⟨List.not_mem_nil, fun name member => (named name member).2⟩

theorem splitAt_slash_intercalate (some : names ≠ []) :
    splitAt '/' ("/" ++ "/".intercalate names).toList = [] :: names.map String.toList := by
  obtain ⟨above, last, rfl⟩ := List.eq_nil_or_concat names |>.resolve_left some
  simp only [List.concat_eq_append] at named ⊢
  rw [List.forall_mem_append, List.forall_mem_singleton] at named
  rw [slash_append_intercalate_concat, String.toList_append, toList_pathText,
    splitAt_flatMap_append ?_ named.2.2, List.map_append, List.cons_append]
  · rfl
  · rw [List.forall_mem_cons, List.forall_mem_map]
    exact ⟨List.not_mem_nil, fun name member => (named.1 name member).2⟩

theorem filter_map_toList :
    (names.map String.toList).filter (fun piece => !piece.isEmpty) = names.map String.toList := by
  rw [List.filter_eq_self, List.forall_mem_map]
  intro name member
  simpa using (named name member).1

theorem pathNames_pathText : pathNames (pathText names) = names := by
  rw [pathNames, splitAt_pathText named, List.filter_append, List.filter_cons_of_neg (by simp),
    filter_map_toList named]
  simp

theorem pathNames_of_isPathText {path : String} (spelled : IsPathText names path) :
    pathNames path = names := by
  rcases spelled with rfl | rfl
  · rcases eq_or_ne names [] with rfl | some
    · rfl
    · rw [pathNames, splitAt_slash_intercalate named some, List.filter_cons_of_neg (by simp),
        filter_map_toList named]
      simp
  · exact pathNames_pathText named

end

theorem toList_pathText_cons (name : String) (names : List String) :
    (pathText (name :: names)).toList = ('/' :: name.toList) ++ (pathText names).toList := by
  rw [toList_pathText, toList_pathText]
  simp

theorem hasLoneSlashes_pathText {names : List String} (named : ∀ name ∈ names, IsPathName name) :
    HasLoneSlashes (pathText names).toList := by
  induction names with
  | nil => exact List.isChain_singleton _
  | cons name names induction =>
      obtain ⟨⟨filled, free⟩, named⟩ := List.forall_mem_cons.1 named
      obtain ⟨c, cs, letters⟩ := List.exists_cons_of_ne_nil
        (by simpa using filled : name.toList ≠ [])
      rw [letters] at free
      rw [toList_pathText_cons, letters]
      have first : c ≠ '/' := fun same => free (same ▸ List.mem_cons_self ..)
      have lone : HasLoneSlashes ('/' :: c :: cs) :=
        List.isChain_cons_cons.2 ⟨fun _ => first, HasLoneSlashes.of_notMem free⟩
      refine lone.append (induction named) (.inl fun last => ?_)
      rw [List.getLast?_cons_cons] at last
      exact free (List.mem_of_mem_getLast? last)

theorem hasLoneSlashes_of_isPathText {names : List String} (named : ∀ name ∈ names, IsPathName name)
    {path : String} (spelled : IsPathText names path) :
    HasLoneSlashes path.toList := by
  have closed := hasLoneSlashes_pathText named
  rcases spelled with rfl | rfl
  · rcases eq_or_ne names [] with rfl | some
    · exact closed
    · rw [pathText_eq some, String.toList_append] at closed
      exact List.IsChain.left_of_append closed
  · exact closed

theorem notMem_of_isPathText {c : Char} (other : c ≠ '/') {names : List String}
    (free : ∀ name ∈ names, c ∉ name.toList) {path : String} (spelled : IsPathText names path) :
    c ∉ path.toList := by
  have closed : c ∉ (pathText names).toList := by
    rw [toList_pathText]
    simp only [List.mem_flatMap, List.mem_append, List.mem_cons, List.mem_map, List.not_mem_nil,
      or_false]
    rintro ⟨_, rfl | ⟨name, isName, rfl⟩, inner | slash⟩
    · cases inner
    · exact other slash
    · exact free name isName inner
    · exact other slash
  rcases spelled with rfl | rfl
  · rcases eq_or_ne names [] with rfl | some
    · exact closed
    · rw [pathText_eq some, String.toList_append, List.mem_append, not_or] at closed
      exact closed.1
  · exact closed

theorem dropEndWhile_slash_intercalate {names : List String}
    (named : ∀ name ∈ names, IsPathName name) (some : names ≠ []) :
    dropEndWhile (fun c => c = '/') ("/" ++ "/".intercalate names).toList
      = ("/" ++ "/".intercalate names).toList := by
  obtain ⟨above, last, rfl⟩ := List.eq_nil_or_concat names |>.resolve_left some
  simp only [List.concat_eq_append] at named ⊢
  obtain ⟨filled, free⟩ := named last (by simp)
  obtain ⟨front, c, spelled⟩ := List.eq_nil_or_concat last.toList
    |>.resolve_left (by simpa using filled)
  rw [List.concat_eq_append] at spelled
  have other : c ≠ '/' := by
    rintro rfl
    exact free (by simp [spelled])
  rw [slash_append_intercalate_concat, String.toList_append, spelled, ← List.append_assoc,
    dropEndWhile_eq_rdropWhile, List.rdropWhile_concat_neg _ _ _ (by simpa using other)]

/-- What a query reads of a path: the root is an empty name before the others. -/
theorem segments_of_isPathText {names : List String}
    (named : ∀ name ∈ names, IsPathName name) (some : names ≠ []) {path : String}
    (spelled : IsPathText names path) : Path.segments path = "" :: names := by
  have trimmed : dropEndWhile (fun c => c = '/') path.toList
      = ("/" ++ "/".intercalate names).toList := by
    rcases spelled with rfl | rfl
    · exact dropEndWhile_slash_intercalate named some
    · rw [pathText_eq some, String.toList_append, dropEndWhile_eq_rdropWhile]
      exact (List.rdropWhile_concat_pos _ _ _ (by decide)).trans
        (dropEndWhile_slash_intercalate named some)
  rw [Path.segments, trimmed, splitAt_slash_intercalate named some]
  simp

/-! ### Slashes anywhere -/

/-- The pieces of a text between slashes, without the empty ones. -/
def filledPieces (cs : List Char) : List (List Char) :=
  (splitAt '/' cs).filter fun piece => !piece.isEmpty

theorem filledPieces_append_slash (front back : List Char) :
    filledPieces (front ++ '/' :: back) = filledPieces front ++ filledPieces back := by
  unfold filledPieces
  rw [splitAt_eq_splitOn, List.splitOn_eq_splitOnP, List.splitOnP_append_cons front back rfl,
    List.filter_append, ← List.splitOn_eq_splitOnP, ← List.splitOn_eq_splitOnP,
    ← splitAt_eq_splitOn, ← splitAt_eq_splitOn]

theorem filledPieces_of_notMem {piece : List Char} (some : piece ≠ []) (free : '/' ∉ piece) :
    filledPieces piece = [piece] := by
  rw [filledPieces, splitAt_of_notMem free]
  simpa using some

theorem filledPieces_slashes_append {front : List Char} (slashes : ∀ c ∈ front, c = '/')
    (cs : List Char) : filledPieces (front ++ cs) = filledPieces cs := by
  induction front with
  | nil => rfl
  | cons c front induction =>
      obtain ⟨rfl, others⟩ := List.forall_mem_cons.1 slashes
      exact (filledPieces_append_slash [] (front ++ cs)).trans (induction others)

theorem filledPieces_append_slashes {back : List Char} (slashes : ∀ c ∈ back, c = '/')
    (cs : List Char) : filledPieces (cs ++ back) = filledPieces cs := by
  cases back with
  | nil => rw [List.append_nil]
  | cons c back =>
      obtain ⟨rfl, others⟩ := List.forall_mem_cons.1 slashes
      have nothing : filledPieces back = [] := by
        rw [← List.append_nil back, filledPieces_slashes_append others]
        rfl
      rw [filledPieces_append_slash, nothing, List.append_nil]

theorem filledPieces_trimWhere (cs : List Char) :
    filledPieces (trimWhere (fun c => c = '/') cs) = filledPieces cs := by
  obtain ⟨front, back, whole, before, behind⟩ :=
    exists_eq_append_trimWhere (fun c => c = '/') cs
  rw [whole, filledPieces_slashes_append fun c member => of_decide_eq_true (before c member),
    filledPieces_append_slashes fun c member => of_decide_eq_true (behind c member), ← whole]

theorem pathNames_eq (path : String) :
    pathNames path = (filledPieces path.toList).map String.ofList :=
  rfl

/-- A path leads through the page that its parent's path leads to, wherever it has more slashes than
it needs. -/
theorem pathNames_split {path : String} (named : (SeedPage.split path).2 ≠ "") :
    pathNames path = pathNames (SeedPage.split path).1 ++ [(SeedPage.split path).2] := by
  rw [pathNames_eq, pathNames_eq, ← filledPieces_trimWhere path.toList]
  unfold SeedPage.split at named ⊢
  dsimp only at named ⊢
  cases found : splitLast? '/' (trimWhere (fun c => c = '/') path.toList) with
  | none =>
      rw [found] at named
      have some : trimWhere (fun c => c = '/') path.toList ≠ [] := by
        intro empty
        rw [empty] at named
        exact named rfl
      have root : filledPieces "/".toList = [] := by decide
      dsimp only
      rw [filledPieces_of_notMem some (splitLast?_eq_none_iff.1 found), root]
      rfl
  | some parts =>
      obtain ⟨parent, name⟩ := parts
      rw [found] at named
      obtain ⟨whole, free⟩ := splitLast?_eq_some found
      have some : name ≠ [] := by
        rintro rfl
        exact named rfl
      have above : filledPieces ('/' :: parent ++ ['/']) = filledPieces parent := by
        rw [filledPieces_append_slashes (by simp)]
        exact filledPieces_append_slash [] parent
      rw [whole, filledPieces_append_slash, filledPieces_of_notMem some free, List.map_append]
      dsimp only
      rw [String.toList_ofList, above]
      rfl

end Store

end PageTree
