import PageTree.Finder
import PageTree.Store.Rows
import PageTree.Proofs.Store.Reachable
import PageTree.Proofs.Store.Transaction

/-!
A store that is changed and asked, one step after the other. Main statement: the steps of a run
answer as they do in a run without the writes that failed.
-/

namespace PageTree

namespace Store

inductive Step where
  | addTemplate (name : String)
  | insertPage (page : NewPage)
  | setField (name : String) (page : Int) (value : String)
  | templateId (name : String)
  | templateName (id : Int)
  | pageId (path : String)
  | pagePath (id : Int)
  | find (finder : Finder) (pageNumber : Option Int) (selector : Selector) (single : Bool)

inductive Answer where
  | added (template : Int)
  | inserted (page : Except Error Int)
  | changed (done : Except Error Unit)
  | id (found : Option Int)
  | text (found : Option String)
  | found (found : Found)

/-- Is this the answer to a write of a page or a value that was not made? -/
def Answer.isFailedWrite : Answer → Bool
  | inserted (.error _) => true
  | changed (.error _) => true
  | _ => false

variable (schema : Schema)

/-- What a step answers, and the store after it. -/
def take (store : Store) (now : Date.Moment) : Step → Answer × Store
  | .addTemplate name => (store.addTemplate name).map .added id
  | .insertPage page => ((Work.insertPage now page).carryOut store).map .inserted id
  | .setField name page value =>
    ((Work.setField schema now name page value).carryOut store).map .changed id
  | .templateId name => (.id (store.templateId? name), store)
  | .templateName id => (.text (store.templateName? id), store)
  | .pageId path => (.id (store.pageId? path), store)
  | .pagePath id => (.text (store.pagePath? id), store)
  | .find finder pageNumber selector single =>
    (.found (finder.find (store.catalog schema now pageNumber) store.engine selector single), store)

/-- A run: its steps, each at the moment at which it is taken. -/
abbrev Run := List (Date.Moment × Step)

def answers (store : Store) : Run → List Answer
  | [] => []
  | (now, step) :: run =>
    (store.take schema now step).1 :: answers (store.take schema now step).2 run

/-- The steps of a run with their answers, without the writes that failed. -/
def kept (store : Store) (run : Run) : List ((Date.Moment × Step) × Answer) :=
  (run.zip (store.answers schema run)).filter fun entry => !entry.2.isFailedWrite

/-- Does the answer to a step of a run change with the moments at which the steps are taken? -/
def ReadsClock (store : Store) (run : Run) (index : Nat) : Prop :=
  ∃ other : Run, other.map Prod.snd = run.map Prod.snd ∧
    (store.answers schema other)[index]? ≠ (store.answers schema run)[index]?

/-! ### Failed writes -/

variable {schema} {store : Store} {now : Date.Moment}

theorem snd_outcome_of_error {α : Type} {result : Except Error (α × Store)} {error : Error}
    (failed : (Work.outcome store result).1 = .error error) :
    (Work.outcome store result).2 = store := by
  cases result with
  | error => rfl
  | ok => cases failed

/-- A write that fails leaves the store as it was. -/
theorem take_of_isFailedWrite {step : Step}
    (failed : (store.take schema now step).1.isFailedWrite = true) :
    (store.take schema now step).2 = store := by
  cases step with
  | insertPage page =>
      rw [take, Work.carryOut_insertPage] at failed ⊢
      rcases result : (Work.outcome store (store.insertPage now page)).1 with error | id
      · exact snd_outcome_of_error result
      · simp [result, Answer.isFailedWrite] at failed
  | setField name page value =>
      rw [take, Work.carryOut_setField] at failed ⊢
      rcases result : (Work.outcome store
          ((store.setField schema now name page value).map ((), ·))).1 with error | done
      · exact snd_outcome_of_error result
      · simp [result, Answer.isFailedWrite] at failed
  | addTemplate | templateId | templateName | pageId | pagePath | find =>
      simp [take, Answer.isFailedWrite] at failed

theorem kept_cons (step : Step) (run : Run) :
    store.kept schema ((now, step) :: run) =
      let (answer, next) := store.take schema now step
      if answer.isFailedWrite then store.kept schema run
      else ((now, step), answer) :: next.kept schema run := by
  rw [kept, answers, List.zip_cons_cons, List.filter_cons]
  by_cases failed : (store.take schema now step).1.isFailedWrite = true
  · simp [failed, take_of_isFailedWrite failed, kept]
  · simp [failed, kept]

/-- At the same moments as before, all steps that stay answer as they did. -/
theorem answers_map_kept (store : Store) (run : Run) :
    store.answers schema ((store.kept schema run).map Prod.fst) =
      (store.kept schema run).map Prod.snd := by
  induction run generalizing store with
  | nil => rfl
  | cons entry run induction =>
      obtain ⟨now, step⟩ := entry
      rw [kept_cons]
      dsimp only
      split
      · exact induction store
      · rw [List.map_cons, List.map_cons, answers, induction]

/-- Without the writes that fail, a run answers as before: in full where its steps are taken at the
same moments, and at others wherever an answer does not change with the moments. -/
theorem answers_without_failures (schema : Schema) (store : Store) (run : Run) :
    let stays := (store.kept schema run).map Prod.fst
    store.answers schema stays = (store.kept schema run).map Prod.snd ∧
      ∀ later : Run, later.map Prod.snd = stays.map Prod.snd →
        ∀ index, ¬ store.ReadsClock schema stays index →
          (store.answers schema later)[index]? =
            ((store.kept schema run).map Prod.snd)[index]? := by
  refine ⟨answers_map_kept store run, fun later same index clockless => ?_⟩
  rw [← answers_map_kept]
  by_contra differs
  exact clockless ⟨later, same, differs⟩

end Store

def datedSchema : Schema :=
  titleSchema ++ [("day", { kind := "datetime", table := none, label := none })]

/-- A name that is taken, a date that is none, a field that is not there, and one without a table;
then writes that are made, and a path to the page that they add. -/
def failingRun : Store.Run :=
  [(⟨0, false⟩, .insertPage (.named 1 "about")),
    (⟨0, false⟩, .insertPage { NewPage.named 1 "team" with created := some "never" }),
    (⟨0, false⟩, .setField "body" 2 "them"),
    (⟨0, false⟩, .setField "day" 2 "2024-05-01"),
    (⟨0, false⟩, .insertPage (.named 1 "news")),
    (⟨0, false⟩, .setField "title" 3 "them"),
    (⟨0, false⟩, .pageId "/news/")]

/-- The page gets the number that it would get if nothing had failed, at any time. -/
theorem Store.answers_without_failures_failingRun :
    (titledStore.kept datedSchema failingRun).map Prod.fst = failingRun.drop 4 ∧
      ¬ titledStore.ReadsClock datedSchema (failingRun.drop 4) 0 ∧
        ∀ later : Run, later.map Prod.snd = (failingRun.drop 4).map Prod.snd →
          (titledStore.answers datedSchema later)[0]? = some (.inserted (.ok 3)) := by
  have stays : (titledStore.kept datedSchema failingRun).map Prod.fst = failingRun.drop 4 := rfl
  have numbered (now : Date.Moment) (rest : Run) :
      (titledStore.answers datedSchema ((now, .insertPage (.named 1 "news")) :: rest))[0]? =
        some (.inserted (.ok 3)) := by
    rw [answers, List.getElem?_cons_zero, take, Work.carryOut_insertPage]
    rfl
  have clockless : ¬ titledStore.ReadsClock datedSchema (failingRun.drop 4) 0 := by
    rintro ⟨other, same, differs⟩
    obtain ⟨⟨now, step⟩, rest, rfl, first, -⟩ := List.map_eq_cons_iff.mp same
    dsimp only at first
    subst first
    exact differs ((numbered now rest).trans (numbered _ _).symm)
  obtain ⟨-, answered⟩ := answers_without_failures datedSchema titledStore failingRun
  rw [stays] at answered
  exact ⟨stays, clockless, fun later same => answered later same 0 clockless⟩

end PageTree
