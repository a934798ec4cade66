import PageTree.Proofs.Finder.Scores
import PageTree.Proofs.Finder.Single
import PageTree.Proofs.Query.CommentEnds
import PageTree.Site.Command

/-!
The footer under the pages that a command prints. No other output ends like one, so a footer is read
off what was printed. Main statement: the pages that a footer says are shown are some of those that
it counts, unless the selector ends the comment that shows it in the statement.
-/

namespace PageTree

open Number Sql Text

/-! ### Texts of footers -/

namespace Footer

theorem toList_text_window (first last total : Int) :
    (window first last total).text.toList =
      "Showing ".toList ++ ((toString first).toList ++ '-' :: ((toString last).toList ++
        ' ' :: ("of ".toList ++ ((toString total).toList ++ ' ' :: "pages".toList)))) := by
  simp [text]

theorem toList_text_whole (total : Int) :
    (whole total).text.toList = (toString total).toList ++ ' ' :: "pages".toList := by
  simp [text]

theorem text_whole_ne_window (first last total other : Int) :
    (whole other).text ≠ (window first last total).text := by
  intro same
  have member : 'S' ∈ (whole other).text.toList := by
    rw [same, toList_text_window]
    exact List.mem_append_left _ (by decide)
  rw [toList_text_whole, List.mem_append] at member
  exact member.elim (notMem_toString rfl (by decide) other) (by decide)

theorem text_injective : Function.Injective text := by
  intro footer other same
  cases footer with
  | window first last total =>
      cases other with
      | window first' last' total' =>
          have spelled := congrArg String.toList same
          rw [toList_text_window, toList_text_window, List.append_cancel_left_eq] at spelled
          obtain ⟨rfl, afterFirst⟩ := toString_append_inj (by decide) (by decide) spelled
          rw [List.cons.injEq] at afterFirst
          obtain ⟨rfl, afterLast⟩ := toString_append_inj (by decide) (by decide) afterFirst.2
          rw [List.cons.injEq, List.append_cancel_left_eq] at afterLast
          obtain ⟨rfl, -⟩ := toString_append_inj (by decide) (by decide) afterLast.2
          rfl
      | whole => exact absurd same.symm (text_whole_ne_window _ _ _ _)
  | whole total =>
      cases other with
      | window => exact absurd same (text_whole_ne_window _ _ _ _)
      | whole total' =>
          have spelled := congrArg String.toList same
          rw [toList_text_whole, toList_text_whole] at spelled
          rw [(toString_append_inj (by decide) (by decide) spelled).1]

theorem newline_notMem_text (footer : Footer) : '\n' ∉ footer.text.toList := by
  have free (n : Int) : '\n' ∉ n.repr.toList := notMem_toString rfl (by decide) n
  cases footer with
  | window first last total =>
      rw [toList_text_window]
      simp [free]
  | whole total =>
      rw [toList_text_whole]
      simp [free]

theorem exists_text_eq_concat (footer : Footer) :
    ∃ front, footer.text.toList = front ++ ['s'] := by
  have pages : " pages".toList = " page".toList ++ ['s'] := rfl
  cases footer with
  | window first last total =>
      exact ⟨_, by rw [text, String.toList_append, pages, ← List.append_assoc]⟩
  | whole total => exact ⟨_, by rw [text, String.toList_append, pages, ← List.append_assoc]⟩

end Footer

/-! ### What was printed -/

theorem toList_lines_footer (above : List String) (footer : Footer) :
    (lines (above ++ ["", footer.text])).toList =
      (lines above).toList ++ '\n' :: footer.text.toList ++ ['\n'] := by
  simp [lines]

namespace Outcome

/-- What was printed ends with a blank line and a footer. -/
def Ends (outcome : Outcome) (footer : Footer) : Prop :=
  ∃ above, outcome.output = lines (above ++ ["", footer.text])

variable {outcome : Outcome} {footer other : Footer}

/-- The footer is the last line. -/
theorem Ends.unique (ends : outcome.Ends footer) (again : outcome.Ends other) : footer = other := by
  obtain ⟨above, printed⟩ := ends
  obtain ⟨above', printed'⟩ := again
  have same := congrArg String.toList (printed.symm.trans printed')
  rw [toList_lines_footer, toList_lines_footer, List.append_cancel_right_eq] at same
  have cut := congrArg (splitLast? '\n') same
  rw [splitLast?_append_sep _ footer.newline_notMem_text,
    splitLast?_append_sep _ other.newline_notMem_text, Option.some.injEq, Prod.mk.injEq] at cut
  exact Footer.text_injective (String.toList_inj.1 cut.2)

theorem Ends.exists_toList_eq (ends : outcome.Ends footer) :
    ∃ front, outcome.output.toList = front ++ ['s', '\n'] := by
  obtain ⟨above, printed⟩ := ends
  obtain ⟨front, spelled⟩ := footer.exists_text_eq_concat
  exact ⟨_ ++ '\n' :: front, by rw [printed, toList_lines_footer, spelled]; simp; rfl⟩

theorem not_ends_of_toList_eq {front : List Char} {c : Char} (other : c ≠ 's')
    (printed : outcome.output.toList = front ++ [c, '\n']) : ¬outcome.Ends footer := by
  intro ends
  obtain ⟨front', printed'⟩ := ends.exists_toList_eq
  have lasts := (List.append_inj' (printed.symm.trans printed') rfl).2
  exact other (List.cons.inj lasts).1

theorem not_ends_failed (files : Files) (failure : Failure) :
    ¬(failed files failure).Ends footer := by
  intro ends
  obtain ⟨front, printed⟩ := ends.exists_toList_eq
  cases front <;> cases printed

end Outcome

theorem exists_jsonListing_eq (rows : List Row) :
    ∃ front, (jsonListing rows).toList = front ++ [']', '\n'] := by
  have closed (items : List Datum) : ∃ front, (Datum.list items).json = front ++ "]" := by
    rw [Datum.json, Datum.jsonAt, Datum.bracketed]
    split <;> exact ⟨_, rfl⟩
  obtain ⟨front, spelled⟩ := closed (rows.map Row.datum)
  exact ⟨front.toList, by rw [jsonListing, spelled]; simp [lines]⟩

namespace Command

variable {files : Files} {now : Date.Moment} {paths : SitePaths} {settings : Settings}
  {text : String} {options : FindOptions} {footer : Footer}

def finder (settings : Settings) (options : FindOptions) : Finder :=
  { Finder.new with checkStatus := !options.allStatus, debug := settings.debug }

/-- A footer is that of a find on the opened site, which found pages. -/
theorem runFind_ends_iff :
    (runFind files now paths settings text options).Ends footer ↔ options.json = false ∧
      ∃ opened site selector rows, Site.open? files now paths = (opened, .ok site) ∧
        readSelector settings text = .ok selector ∧ rows ≠ [] ∧
        let found := (finder settings options).find (site.catalog now options.pageNumber)
          site.store.engine selector options.single
        found.rows = .ok rows ∧ footer = .ofFinder found.finder rows.length := by
  constructor
  · intro ends
    unfold runFind Site.withOpen at ends
    split at ends
    · exact absurd ends (Outcome.not_ends_failed _ _)
    next opened site isOpen =>
    dsimp only at ends
    split at ends
    · exact absurd ends (Outcome.not_ends_failed _ _)
    next selector read =>
    split at ends
    · exact absurd ends (Outcome.not_ends_failed _ _)
    next rows found =>
    split at ends
    · obtain ⟨front, printed⟩ := exists_jsonListing_eq rows
      exact absurd ends (Outcome.not_ends_of_toList_eq (by decide) printed)
    next plain =>
    rw [listing] at ends
    split at ends
    · have printed : (lines ["No pages found."]).toList = "No pages found".toList ++ ['.', '\n'] :=
        rfl
      exact absurd ends (Outcome.not_ends_of_toList_eq (by decide) printed)
    next some =>
    exact ⟨Bool.eq_false_iff.2 plain, opened, site, selector, rows, isOpen, read, by simpa using some,
      found, ends.unique ⟨_, rfl⟩⟩
  · rintro ⟨plain, opened, site, selector, rows, isOpen, read, some, found, rfl⟩
    have isEmpty : ¬rows.isEmpty = true := fun empty => some (List.isEmpty_iff.1 empty)
    refine ⟨rows.map (Row.line site.store), ?_⟩
    unfold runFind Site.withOpen
    rw [isOpen]
    dsimp only
    rw [read]
    dsimp only [finder] at found ⊢
    rw [found, plain]
    dsimp only [Outcome.done]
    rw [if_neg Bool.false_ne_true, listing, if_neg isEmpty]

end Command

/-! ### Windows of finds -/

theorem Selector.start_nonneg_of_window? {selector : Selector} {pageNumber : Option Int}
    {window : Window} (isWindow : selector.window? pageNumber = some window) : 0 ≤ window.start := by
  unfold window? at isWindow
  split at isWindow
  · cases isWindow
  next count _ =>
  split at isWindow
  · next positive =>
    cases isWindow
    dsimp only [Window.start]
    split
    · exact Int.le_max_right _ _
    · cases pageNumber with
      | none => exact Int.le_refl 0
      | some page =>
          rw [Option.bind_some, pageOffset?, checkInt64]
          split
          · exact Int.mul_nonneg (by omega) (Int.le_of_lt positive)
          · exact Int.le_refl 0
  · cases isWindow

namespace Finder

variable {finder : Finder} {schema : Schema} {store : Store} {now : Date.Moment}
  {pageNumber : Option Int} {selector : Selector} {rows : List Row}

theorem window_find {catalog : Catalog} {engine : Engine} {single : Bool} {query : Query}
    (compiled : finder.queryFor catalog selector single = .ok query) :
    (finder.find catalog engine selector single).finder.limit = query.limit ∧
      (finder.find catalog engine selector single).finder.start = query.start := by
  unfold find
  rw [compiled]
  dsimp only
  split
  · exact ⟨rfl, rfl⟩
  · split
    · exact ⟨rfl, rfl⟩
    · split <;> exact ⟨rfl, rfl⟩

theorem window_of_prepare {single : Bool} {query : Query}
    (compiled : finder.queryFor (store.catalog schema now pageNumber) selector single = .ok query) :
    query.window = (finder.prepare selector single).window? pageNumber := by
  obtain ⟨parts, -, rfl⟩ := exists_parts_of_queryFor compiled
  rfl

theorem window?_prepare_single (finder : Finder) (selector : Selector) (pageNumber : Option Int) :
    (finder.prepare selector true).window? pageNumber = some ⟨some 0, 1⟩ :=
  Selector.window?_withSingleWindow _ pageNumber

/-- A lookup of one page begins with the first and counts what it returns. -/
theorem footer_single (found : (finder.find (store.catalog schema now pageNumber) store.engine
      selector true).rows = .ok rows) :
    Footer.ofFinder (finder.find (store.catalog schema now pageNumber) store.engine selector
      true).finder rows.length = .window 1 rows.length rows.length := by
  obtain ⟨query, -, compiled, -⟩ := exists_of_find_ok found
  obtain ⟨total, limit, start⟩ := shows_of_single compiled found
  have window := (window_of_prepare compiled).trans (finder.window?_prepare_single selector pageNumber)
  rw [Query.limit, window] at limit
  rw [Query.start, window] at start
  rw [Footer.ofFinder, limit, start, total]
  simp [Window.start]

/-- A page of a find lies within its rows without the window, and these are counted. -/
theorem footer_window (names : schema.HasWordNames) (tables : schema.HasWordTables)
    (plain : finder.debug = true → ∀ term ∈ selector, isPlainComment term.text.toList = true)
    (found : (finder.find (store.catalog schema now pageNumber) store.engine selector
      false).rows = .ok rows) (some : rows ≠ []) {first last total : Int}
    (footer : Footer.ofFinder (finder.find (store.catalog schema now pageNumber) store.engine
      selector false).finder rows.length = .window first last total) :
    1 ≤ first ∧ first ≤ last ∧ last ≤ total := by
  obtain ⟨query, result, compiled, executed, rfl⟩ := exists_of_find_ok found
  have isPlain := isPlain_of_isPlainComment names tables plain compiled
  obtain ⟨plan, runnable, rfl⟩ := Store.exists_runnablePlan?_of_execute isPlain executed
  have counted := (find_of_runnablePlan? isPlain runnable compiled).2 some
  have windowed : (finder.find (store.catalog schema now pageNumber) store.engine selector
      false).finder.limit = query.limit ∧ _ := window_find compiled
  obtain ⟨limit, start⟩ := windowed
  rw [Footer.ofFinder, limit, start, counted] at footer
  split at footer
  · next limited =>
    cases isWindow : query.window with
    | none => simp [Query.limit, isWindow] at limited
    | some window =>
        have least := Selector.start_nonneg_of_window?
          ((window_of_prepare compiled).symm.trans isWindow)
        have length := plan.length_rows_resultSet_of_window query isWindow
        have shown := List.length_pos_of_ne_nil some
        rw [ResultSet.assemble, List.length_map, length] at shown
        rw [ResultSet.assemble, List.length_map, length, Query.start, isWindow] at footer
        cases footer
        dsimp only [Option.map_some, Option.getD_some]
        omega
  · cases footer

end Finder

/-! ### Sites -/

theorem Schema.valid_of_load {files : Files} {path : String} {schema : Schema}
    (loaded : Schema.load files path = .ok schema) : schema.Valid := by
  unfold Schema.load at loaded
  split at loaded
  · split at loaded
    · cases loaded
    · split at loaded
      · cases loaded
      · split at loaded
        · next valid =>
          cases loaded
          exact valid
        · cases loaded
  · cases loaded
    decide

/-- The schema of a site was checked, and the engine took the names of its tables. -/
theorem Site.hasWords_of_open? {files opened : Files} {now : Date.Moment} {paths : SitePaths}
    {site : Site} (isOpen : Site.open? files now paths = (opened, .ok site)) :
    site.schema.HasWordNames ∧ site.schema.HasWordTables := by
  unfold Site.open? at isOpen
  split at isOpen
  · cases isOpen
  next schema loaded =>
  split at isOpen
  · cases isOpen
  next store home _ =>
  split at isOpen
  · cases isOpen
  next made =>
  cases isOpen
  refine ⟨(Schema.valid_of_load loaded).hasWordNames, fun field isField => ?_⟩
  have named := Store.isTableName_of_ensureTables made field isField
  rw [isTableName, Bool.and_eq_true] at named
  exact isWord_of_isBareName named.1

namespace Command

theorem isInfix_of_mem_pieces {cs piece : List Char} (isPiece : piece ∈ Selector.pieces cs) :
    piece <:+: cs := by
  obtain ⟨raw, isRaw, rfl⟩ := List.mem_map.1 (List.mem_filter.1 isPiece).1
  obtain ⟨front, back, whole, -⟩ := exists_eq_append_trim raw
  have trimmed : trim raw <:+: raw := ⟨front, back, by rw [List.append_assoc, ← whole]⟩
  have within : raw <:+: [','].intercalate (splitUnquoted ',' cs) := isInfix_intercalate isRaw
  rw [intercalate_splitUnquoted] at within
  exact trimmed.trans within

/-- The terms of a text end a comment no sooner than the text does, and the page size never. -/
theorem isPlainComment_of_readSelector {settings : Settings} {text : String} {selector : Selector}
    (read : readSelector settings text = .ok selector)
    (plain : isPlainComment text.toList = true) :
    ∀ term ∈ selector, isPlainComment term.text.toList = true := by
  obtain ⟨terms, isTerms, rfl⟩ := map_eq_ok.1 read
  have written : ∀ term ∈ terms, isPlainComment term.text.toList = true := by
    intro term member
    obtain ⟨piece, isPiece, found⟩ :=
      exists_of_mem_forall₂ (Selector.forall₂_of_read isTerms) member
    rw [Term.text_eq_of_read found, String.toList_ofList]
    exact Statement.isPlainComment_of_infix (isInfix_of_mem_pieces isPiece) plain
  have sized (size : Int) :
      isPlainComment (Term.single "limit" .equal (toString size)).text.toList = true := by
    have spelled : (Term.single "limit" .equal (toString size)).text.toList =
        "limit=".toList ++ (toString size).toList := by
      simp [Term.single, Operator.token]
    rw [spelled]
    refine Statement.isPlainComment_of_notMem ?_ ?_ <;> rw [List.mem_append, not_or]
    · exact ⟨by decide, notMem_toString rfl (by decide) size⟩
    · exact ⟨by decide, notMem_toString rfl (by decide) size⟩
  unfold Settings.withPageSize
  split
  · split
    · rw [List.forall_mem_append, List.forall_mem_singleton]
      exact ⟨written, sized _⟩
    · exact written
  · exact written

/-- The pages that a footer says are shown are some of those that it counts. With the selector shown in
the statement, nothing in it may end the comment, unless one page is looked up. -/
theorem footer_of_runFind {files : Files} {now : Date.Moment} {paths : SitePaths}
    {settings : Settings} {text : String} {options : FindOptions}
    (plain : settings.debug = true → options.single = false → isPlainComment text.toList = true)
    {first last total : Int}
    (printed : (runFind files now paths settings text options).Ends (.window first last total)) :
    1 ≤ first ∧ first ≤ last ∧ last ≤ total ∧
      (InInt64 total → InInt64 first ∧ InInt64 last) := by
  have ordered : 1 ≤ first ∧ first ≤ last ∧ last ≤ total := by
    obtain ⟨-, opened, site, selector, rows, isOpen, read, some, found, footer⟩ :=
      runFind_ends_iff.1 printed
    obtain ⟨names, tables⟩ := Site.hasWords_of_open? isOpen
    cases single : options.single with
    | true =>
        rw [single] at found footer
        have shown := List.length_pos_of_ne_nil some
        cases footer.trans (Finder.footer_single found)
        omega
    | false =>
        rw [single] at found footer
        exact Finder.footer_window names tables
          (fun debug => isPlainComment_of_readSelector read (plain debug single)) found some
          footer.symm
  obtain ⟨least, between, greatest⟩ := ordered
  refine ⟨least, between, greatest, fun inRange => ?_⟩
  unfold InInt64 minInt64 at *
  omega

/-- The second page of size one, with the selector shown in the statement. -/
def smallPages : Settings :=
  { Settings.standard with debug := true, pageSize := some 1 }

def secondPage : FindOptions :=
  { single := false, allStatus := false, pageNumber := some 2, json := false }

def titledFiles : Files :=
  { here := [], items := [(["pages.db"], .store titledStore false)] }

def secondPageQuery : Query :=
  { ordinaryQuery with
    window := some ⟨some 1, 1⟩, comment := "Selector: limit=1, status<1024" }

theorem footer_of_runFind_titledFiles :
    (runFind titledFiles ⟨0, false⟩ ⟨"pages.db", "schema.yaml"⟩ smallPages "" secondPage).Ends
        (.window 2 2 2) ∧
      (1 : Int) ≤ 2 ∧ InInt64 2 := by
  let site : Site :=
    { schema := [], store := titledStore, home := some { place := ["pages.db"], isLogged := true } }
  let plan : Plan := ⟨[], [], titledStore.baseSource⟩
  obtain ⟨opened, isOpen⟩ : ∃ opened,
      Site.open? titledFiles ⟨0, false⟩ ⟨"pages.db", "schema.yaml"⟩ = (opened, .ok site) := ⟨_, rfl⟩
  have read : readSelector smallPages "" = .ok [.single "limit" .equal "1"] := rfl
  have compiled : (finder smallPages secondPage).queryFor (site.catalog ⟨0, false⟩ (some 2))
      [.single "limit" .equal "1"] false = .ok secondPageQuery := rfl
  have runnable : titledStore.runnablePlan? secondPageQuery = some plan := rfl
  have both : (plan.groupedRows secondPageQuery).length = 2 := by decide
  have one : (plan.resultSet secondPageQuery).assemble.length = 1 := by
    rw [ResultSet.assemble, List.length_map,
      plan.length_rows_resultSet_of_window secondPageQuery rfl, both]
    rfl
  have some : (plan.resultSet secondPageQuery).assemble ≠ [] :=
    List.ne_nil_of_length_pos (one ▸ Nat.one_pos)
  obtain ⟨found, total⟩ := Finder.find_of_runnablePlan? (by decide) runnable compiled
  obtain ⟨limit, start⟩ : ((finder smallPages secondPage).find (site.catalog ⟨0, false⟩ (.some 2))
      site.store.engine [.single "limit" .equal "1"] false).finder.limit = _ ∧ _ :=
    Finder.window_find compiled
  have footer : Footer.ofFinder ((finder smallPages secondPage).find
      (site.catalog ⟨0, false⟩ (.some 2)) site.store.engine [.single "limit" .equal "1"]
      false).finder 1 = .window 2 2 2 := by
    rw [Footer.ofFinder, limit, start, total some, both]
    rfl
  have ends : (runFind titledFiles ⟨0, false⟩ ⟨"pages.db", "schema.yaml"⟩ smallPages ""
      secondPage).Ends (.window 2 2 2) := by
    refine runFind_ends_iff.2 ⟨rfl, opened, site, _, _, isOpen, read, some, found, ?_⟩
    rw [one]
    exact footer.symm
  obtain ⟨least, -, -, inRange⟩ := footer_of_runFind (fun _ _ => by decide) ends
  exact ⟨ends, least, (inRange (by decide)).1⟩

end Command

end PageTree
