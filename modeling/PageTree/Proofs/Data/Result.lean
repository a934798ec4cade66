import Mathlib.Data.List.Forall2

/-!
Results taken apart: where a computation in steps succeeds, each of its steps does.
-/

namespace PageTree

universe u v w

theorem bind_eq_ok {ε : Type u} {α β : Type v} {result : Except ε α} {f : α → Except ε β} {b : β} :
    (result >>= f) = .ok b ↔ ∃ a, result = .ok a ∧ f a = .ok b := by
  cases result <;> simp [Bind.bind, Except.bind]

theorem map_eq_ok {ε : Type u} {α β : Type v} {result : Except ε α} {f : α → β} {b : β} :
    result.map f = .ok b ↔ ∃ a, result = .ok a ∧ f a = b := by
  cases result <;> simp [Except.map]

/-- What two results agree in decides what both are mapped to. -/
theorem map_eq_map_of_map_eq {ε : Type u} {α β γ : Type v} {result other : Except ε α} {f : α → β}
    {g h : α → γ} (same : result.map f = other.map f)
    (respects : ∀ a b, f a = f b → g a = h b) : result.map g = other.map h := by
  cases result with
  | error e =>
      cases other with
      | error e' => exact congrArg Except.error (Except.error.inj same)
      | ok b => cases same
  | ok a =>
      cases other with
      | error e' => cases same
      | ok b => exact congrArg Except.ok (respects a b (Except.ok.inj same))

theorem mapM_eq_ok {ε : Type u} {α : Type w} {β : Type v} {f : α → Except ε β} {as : List α}
    {bs : List β} : as.mapM f = .ok bs ↔ List.Forall₂ (fun a b => f a = .ok b) as bs := by
  induction as generalizing bs with
  | nil =>
      rw [List.mapM_nil, List.forall₂_nil_left_iff]
      exact ⟨fun equality => (Except.ok.inj equality).symm, fun empty => empty ▸ rfl⟩
  | cons a as induction =>
      rw [List.mapM_cons, bind_eq_ok, List.forall₂_cons_left_iff]
      constructor
      · rintro ⟨b, first, remaining⟩
        obtain ⟨rest, others, equality⟩ := bind_eq_ok.1 remaining
        exact ⟨b, rest, first, induction.1 others, (Except.ok.inj equality).symm⟩
      · rintro ⟨b, rest, first, others, rfl⟩
        exact ⟨b, first, bind_eq_ok.2 ⟨rest, induction.2 others, rfl⟩⟩

theorem mapM_eq_error {ε : Type u} {α : Type w} {β : Type v} {f : α → Except ε β} {as : List α}
    {e : ε} (failed : as.mapM f = .error e) : ∃ a ∈ as, f a = .error e := by
  induction as with
  | nil => cases failed
  | cons a as induction =>
      rw [List.mapM_cons] at failed
      cases first : f a with
      | error other =>
          simp only [first, bind, Except.bind, Except.error.injEq] at failed
          exact ⟨a, List.mem_cons_self .., failed ▸ first⟩
      | ok b =>
          simp only [first, bind, Except.bind] at failed
          cases rest : as.mapM f with
          | error other =>
              simp only [rest, Except.error.injEq] at failed
              obtain ⟨last, isLast, failed⟩ := induction (failed ▸ rest)
              exact ⟨last, List.mem_cons_of_mem _ isLast, failed⟩
          | ok bs => simp [rest, pure, Except.pure] at failed

theorem mapM_eq_some {α : Type w} {β : Type v} {f : α → Option β} {as : List α} {bs : List β} :
    as.mapM f = some bs ↔ List.Forall₂ (fun a b => f a = some b) as bs := by
  induction as generalizing bs with
  | nil =>
      rw [List.mapM_nil, List.forall₂_nil_left_iff]
      exact ⟨fun equality => (Option.some.inj equality).symm, fun empty => empty ▸ rfl⟩
  | cons a as induction =>
      rw [List.mapM_cons, List.forall₂_cons_left_iff]
      constructor
      · intro equality
        obtain ⟨b, first, remaining⟩ := Option.bind_eq_some_iff.1 equality
        obtain ⟨rest, others, whole⟩ := Option.bind_eq_some_iff.1 remaining
        exact ⟨b, rest, first, induction.1 others, (Option.some.inj whole).symm⟩
      · rintro ⟨b, rest, first, others, rfl⟩
        exact Option.bind_eq_some_iff.2
          ⟨b, first, Option.bind_eq_some_iff.2 ⟨rest, induction.2 others, rfl⟩⟩

/-- Every result comes from one of the things that were worked on. -/
theorem exists_of_mem_forall₂ {α : Type u} {β : Type v} {r : α → β → Prop} {as : List α}
    {bs : List β} (related : List.Forall₂ r as bs) {b : β} (member : b ∈ bs) :
    ∃ a ∈ as, r a b := by
  induction related with
  | nil => simp at member
  | cons first rest induction =>
      rcases List.mem_cons.1 member with rfl | among
      · exact ⟨_, List.mem_cons_self .., first⟩
      · obtain ⟨a, isOne, related⟩ := induction among
        exact ⟨a, List.mem_cons_of_mem _ isOne, related⟩

theorem any_eq_of_forall₂ {α : Type u} {β : Type v} {r : α → β → Prop} {as : List α} {bs : List β}
    (related : List.Forall₂ r as bs) {p : α → Bool} {q : β → Bool}
    (same : ∀ a b, r a b → p a = q b) : as.any p = bs.any q := by
  induction related with
  | nil => rfl
  | cons first rest induction => rw [List.any_cons, List.any_cons, same _ _ first, induction]

theorem forall_mem_iff_of_forall₂ {α : Type u} {β : Type v} {r : α → β → Prop} {as : List α}
    {bs : List β} (related : List.Forall₂ r as bs) {p : α → Prop} {q : β → Prop}
    (same : ∀ a b, r a b → (p a ↔ q b)) : (∀ a ∈ as, p a) ↔ ∀ b ∈ bs, q b := by
  induction related with
  | nil => simp
  | cons first rest induction =>
      rw [List.forall_mem_cons, List.forall_mem_cons, same _ _ first, induction]

theorem map_eq_map_of_forall₂ {α : Type u} {β : Type v} {γ : Type w} {r : α → β → Prop}
    {as : List α} {bs : List β} (related : List.Forall₂ r as bs) {f : α → γ} {g : β → γ}
    (same : ∀ a b, r a b → f a = g b) : as.map f = bs.map g := by
  induction related with
  | nil => rfl
  | cons first rest induction => rw [List.map_cons, List.map_cons, same _ _ first, induction]

theorem forall₂_trans {α : Type u} {r : α → α → Prop} (trans : ∀ a b c, r a b → r b c → r a c)
    {as bs cs : List α} (first : List.Forall₂ r as bs) (second : List.Forall₂ r bs cs) :
    List.Forall₂ r as cs := by
  induction first generalizing cs with
  | nil => exact second
  | cons related _ induction =>
      cases second with
      | cons further rest => exact .cons (trans _ _ _ related further) (induction rest)

/-- Results of the same work are related one by one. -/
theorem forall₂_of_forall₂ {α : Type u} {β : Type v} {γ : Type w} {r : α → β → Prop}
    {s : α → γ → Prop} {t : β → γ → Prop} (both : ∀ a b c, r a b → s a c → t b c) {as : List α}
    {bs : List β} {cs : List γ} (first : List.Forall₂ r as bs) (second : List.Forall₂ s as cs) :
    List.Forall₂ t bs cs := by
  induction first generalizing cs with
  | nil =>
      cases second
      exact .nil
  | cons one _ induction =>
      cases second with
      | cons other rest => exact .cons (both _ _ _ one other) (induction rest)

theorem exists_of_mem_left_forall₂ {α : Type u} {β : Type v} {r : α → β → Prop} {as : List α}
    {bs : List β} (related : List.Forall₂ r as bs) {a : α} (member : a ∈ as) :
    ∃ b ∈ bs, r a b :=
  exists_of_mem_forall₂ related.flip member

theorem exists_forall₂ {α : Type u} {β : Type v} {r : α → β → Prop} {as : List α}
    (each : ∀ a ∈ as, ∃ b, r a b) : ∃ bs, List.Forall₂ r as bs := by
  induction as with
  | nil => exact ⟨[], .nil⟩
  | cons a as induction =>
      rw [List.forall_mem_cons] at each
      obtain ⟨b, first⟩ := each.1
      obtain ⟨bs, others⟩ := induction each.2
      exact ⟨b :: bs, .cons first others⟩

end PageTree
