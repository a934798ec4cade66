import PageTree.Proofs.Compile.Naming
import PageTree.Store.Rows

/-!
Selectors and statements. Whatever a selector says, it says it inside of literals: the statement of
its query has no code of the selector's making.
-/

namespace PageTree

open Sql

/-- Nothing in a selector ends a literal or the statement, or begins a comment. -/
theorem Finder.contained_render {catalog : Catalog} (valid : catalog.schema.Valid)
    {finder : Finder} (quiet : finder.debug = false) {written : String} {selector : Selector}
    (parsed : Selector.read written = .ok selector) {single : Bool} {query : Query}
    (compiled : finder.queryFor catalog selector single = .ok query) :
    Contained query.render := by
  have named := isWellNamed_queryFor valid quiet (Selector.isNamed_of_read parsed) compiled
  exact named.clean_render.contained

theorem Finder.contained_render_apostrophe :
    ∃ selector query, Selector.read "title*=it's; --" = .ok selector ∧
      Finder.new.queryFor ((Store.new ⟨0, false⟩).catalog titleSchema ⟨0, false⟩ none) selector
        false = .ok query ∧ Contained query.render := by
  let term : Term :=
    { fields := ["title"], values := ["it's; --"], operator := .containsPhrase, negated := false
      text := "title*=it's; --" }
  let score : Score := { subject := ⟨"field_title", "data"⟩, phrase := "it's; --" }
  let query : Query :=
    { joins :=
        [{ kind := .inner, table := "field_title", aliasName := "field_title"
           on := .all
            [pageLink "field_title", .fragment (.contains ⟨"field_title", "data"⟩ "it's; --")] }]
      conjuncts := [.enclosed (.test (.compare ⟨"pages", "status"⟩ .less (.digits "1024")))]
      scores := [score], orders := [.ofScore score], window := none, comment := "" }
  have valid : titleSchema.Valid := by decide
  have parsed : Selector.read "title*=it's; --" = .ok [term] := rfl
  have compiled : Finder.new.queryFor ((Store.new ⟨0, false⟩).catalog titleSchema ⟨0, false⟩ none)
      [term] false = .ok query := rfl
  exact ⟨[term], query, parsed, compiled, Finder.contained_render valid rfl parsed compiled⟩

end PageTree
