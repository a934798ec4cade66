import PageTree.Proofs.Store.Values

/-!
Templates of a store. Main statement: the number that the addition of a template gives is the number
under which its name is found, and it stays so whatever is added later.
-/

namespace PageTree

namespace Store

variable {schema : Schema} {store next : Store}

/-- Templates have numbers of their own, none of them above the last one given. -/
structure HasNumberedTemplates (store : Store) : Prop where
  apart : (store.templates.map Template.id).Nodup
  given : ∀ template ∈ store.templates, template.id ≤ store.lastTemplate

theorem templates_addTemplate (store : Store) (name : String) :
    (store.addTemplate name).2.lastTemplate = store.lastTemplate + 1 ∧
      ((store.templateId? name = some (store.addTemplate name).1 ∧
          (store.addTemplate name).2.templates = store.templates) ∨
        (store.addTemplate name).1 = store.lastTemplate + 1 ∧
          (store.addTemplate name).2.templates =
            store.templates ++ [⟨store.lastTemplate + 1, name⟩]) := by
  unfold addTemplate
  dsimp only
  split
  · next id found => exact ⟨rfl, .inl ⟨found, rfl⟩⟩
  · exact ⟨rfl, .inr ⟨rfl, rfl⟩⟩

theorem prefix_templates_addTemplate (store : Store) (name : String) :
    store.templates <+: (store.addTemplate name).2.templates := by
  obtain ⟨-, ⟨-, templates⟩ | ⟨-, templates⟩⟩ := templates_addTemplate store name
  · exact templates ▸ List.prefix_refl _
  · exact templates ▸ List.prefix_append _ _

theorem HasNumberedTemplates.addTemplate (numbered : store.HasNumberedTemplates) (name : String) :
    (store.addTemplate name).2.HasNumberedTemplates := by
  obtain ⟨last, ⟨-, templates⟩ | ⟨-, templates⟩⟩ := templates_addTemplate store name
  · constructor
    · rw [templates]
      exact numbered.apart
    · rw [templates, last]
      intro template isTemplate
      have given := numbered.given template isTemplate
      omega
  · constructor
    · rw [templates, List.map_append]
      refine numbered.apart.append (List.nodup_singleton _) (List.disjoint_singleton.2 ?_)
      intro taken
      obtain ⟨template, isTemplate, same⟩ := List.mem_map.1 taken
      have given := numbered.given template isTemplate
      dsimp only at same
      omega
    · rw [templates, last, List.forall_mem_append, List.forall_mem_singleton]
      refine ⟨fun template isTemplate => ?_, Int.le_refl _⟩
      have given := numbered.given template isTemplate
      omega

theorem isKept_hasNumberedTemplates (schema : Schema) : IsKept schema HasNumberedTemplates where
  addTemplate store name numbered := numbered.addTemplate name
  insertPage store next now page id inserted numbered := by
    obtain ⟨created, -, -, -, rfl⟩ := exists_of_insertPage inserted
    exact ⟨numbered.apart, numbered.given⟩
  setField store next now name page value set numbered := by
    obtain ⟨field, text, table, -, -, -, -, rfl⟩ := exists_of_setField set
    exact ⟨numbered.apart, numbered.given⟩

theorem templateName?_eq_some_iff (numbered : store.HasNumberedTemplates) {id : Int}
    {name : String} : store.templateName? id = some name ↔ ⟨id, name⟩ ∈ store.templates := by
  constructor
  · intro found
    obtain ⟨template, isFirst, rfl⟩ := Option.map_eq_some_iff.1 found
    have same : template.id = id := by simpa using List.find?_some isFirst
    rw [← same]
    exact List.mem_of_find?_eq_some isFirst
  · intro isTemplate
    cases found : store.templates.find? fun template => template.id = id with
    | none =>
        have absent := List.find?_eq_none.1 found _ isTemplate
        exact absurd (decide_eq_true rfl) absent
    | some other =>
        have same : other.id = id := by simpa using List.find?_some found
        have alike := List.inj_on_of_nodup_map numbered.apart
          (List.mem_of_find?_eq_some found) isTemplate same
        rw [templateName?, found, Option.map_some, alike]

theorem mem_templates_of_templateId? {name : String} {id : Int}
    (found : store.templateId? name = some id) : ⟨id, name⟩ ∈ store.templates := by
  obtain ⟨template, isFirst, rfl⟩ := Option.map_eq_some_iff.1 found
  have same : template.name = name := by simpa using List.find?_some isFirst
  rw [← same]
  exact List.mem_of_find?_eq_some isFirst

/-- The number that a template is given is that of its name. -/
theorem templateName?_addTemplate (numbered : store.HasNumberedTemplates) (name : String) :
    (store.addTemplate name).2.templateName? (store.addTemplate name).1 = some name := by
  rw [templateName?_eq_some_iff (numbered.addTemplate name)]
  obtain ⟨-, ⟨found, templates⟩ | ⟨id, templates⟩⟩ := templates_addTemplate store name
  · rw [templates]
    exact mem_templates_of_templateId? found
  · rw [templates, id]
    exact List.mem_append_right _ (List.mem_singleton_self _)

theorem templateName?_of_prefix (numbered : next.HasNumberedTemplates)
    (grown : store.templates <+: next.templates) (before : store.HasNumberedTemplates) {id : Int}
    {name : String} (found : store.templateName? id = some name) :
    next.templateName? id = some name :=
  (templateName?_eq_some_iff numbered).2
    (grown.subset ((templateName?_eq_some_iff before).1 found))

theorem Reachable.hasNumberedTemplates (reached : Reachable schema store) :
    store.HasNumberedTemplates :=
  (isKept_hasNumberedTemplates schema).of_reachable
    (fun now store ensured => by
      obtain ⟨tables, indexes, rfl⟩ := exists_of_ensureTables_new ensured
      exact ⟨List.nodup_nil, by simp [Store.new]⟩) reached

end Store

end PageTree
