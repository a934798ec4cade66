import PageTree.Data.Json
import PageTree.Finder
import PageTree.Store.Basic

/-!
What is printed of a find and of the counts of a store: one line for each page and a footer that
says which part of how many pages it was.
-/

namespace PageTree

open Number

/-- The text with blanks before it, up to a width. -/
def padStart (width : Nat) (s : String) : String :=
  String.ofList (List.replicate (width - s.length) ' ') ++ s

/-- The text with blanks after it, up to a width. -/
def padEnd (width : Nat) (s : String) : String :=
  s ++ String.ofList (List.replicate (width - s.length) ' ')

def lines (parts : List String) : String :=
  String.join (parts.map fun part => part ++ "\n")

namespace Row

def integer? (row : Row) (name : String) : Option Int :=
  match row.find? name with
  | some (.integer n) => some n
  | _ => none

def positiveScore? (row : Row) : Option Binary64 :=
  match row.find? "score" with
  | some (.real x) => if x.isPositive then some x else none
  | _ => none

def datum (row : Row) : Datum :=
  .mapping (List.map (fun entry => (.text entry.1, entry.2)) row)

/-- The path of a page; one without a path goes by its number. -/
def pageLabel (store : Store) (id : Int) : String :=
  (store.pagePath? id).getD ("#" ++ toString id)

def templateLabel (store : Store) (id : Int) : String :=
  (store.templateName? id).getD "-"

/-- The line of a page: number, path, template and a score above zero. -/
def line (store : Store) (row : Row) : String :=
  let id := (row.integer? "id").getD 0
  let template := ((row.integer? "templates_id").map (templateLabel store)).getD ""
  let page := padStart 5 (toString id) ++ "  " ++ padEnd 40 (pageLabel store id) ++ " "
  match row.positiveScore? with
  | some score => page ++ padEnd 12 template ++ " score " ++ score.plain
  | none => page ++ template

end Row

inductive Footer where
  | window (first last total : Int)
  | whole (total : Int)
  deriving DecidableEq, Repr

namespace Footer

/-- The footer of a find that returned `count` rows. -/
def ofFinder (finder : Finder) (count : Nat) : Footer :=
  if 0 < finder.limit then .window (finder.start + 1) (finder.start + count) finder.total
  else .whole finder.total

def text : Footer → String
  | .window first last total =>
    "Showing " ++ toString first ++ "-" ++ toString last ++ " of " ++ toString total ++ " pages"
  | .whole total => toString total ++ " pages"

end Footer

def listing (store : Store) (finder : Finder) (rows : List Row) : String :=
  if rows.isEmpty then
    lines ["No pages found."]
  else
    lines (rows.map (Row.line store) ++ ["", (Footer.ofFinder finder rows.length).text])

/-- The rows of a find as JSON. -/
def jsonListing (rows : List Row) : String :=
  lines [(Datum.list (rows.map Row.datum)).json]

/-- What is printed of the counts of a store. -/
def Store.Statistics.listing (statistics : Store.Statistics) : String :=
  lines <|
    ["Site Statistics", "===============", "Pages:      " ++ toString statistics.pages,
      "Hidden:     " ++ toString statistics.hidden,
      "Templates:  " ++ toString statistics.templates]
    ++ if statistics.values.isEmpty then []
      else
        ["", "Field values:"]
          ++ statistics.values.map fun entry =>
            "  " ++ padEnd 16 entry.1 ++ " " ++ toString entry.2

end PageTree
