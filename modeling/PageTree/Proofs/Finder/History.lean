import PageTree.Finder
import PageTree.Proofs.Data.Result

/-!
What a finder remembers. Its context and its executor may answer every request as all that was asked
before makes them. Main statement: after any calls, the next find of a finder is that of a new one
with the same flags, down to the requests that it makes; its numbers are those of that find alone.
-/

namespace PageTree

universe u

/-- What a finder was made for: the context in which it compiles, and the executor of its requests.
Both may answer differently from one state to the next. -/
structure Backend (σ : Type u) where
  catalog : σ → Catalog
  execute : Query → σ → Except Error ResultSet × σ
  foundRows : σ → Except Error Int × σ

namespace Finder

/-- A call to a finder. A lookup of one page asks for the first row alone. -/
inductive Call where
  | checkStatus (enabled : Bool)
  | debug (enabled : Bool)
  | queryFor (selector : Selector) (single : Bool)
  | find (selector : Selector) (single : Bool)
  | findOne (selector : Selector)

inductive Answer where
  | done
  | query (result : Except Error Query)
  | rows (result : Except Error (List Row))
  | row (result : Except Error (Option Row))

/-- A call's answer, the finder after it, the requests made in order, and the state they leave. -/
structure Called (σ : Type u) where
  answer : Answer
  finder : Finder
  requests : List Request
  state : σ

namespace Call

/-- What the call looks for, and whether it looks for one page. -/
def lookup? : Call → Option (Selector × Bool)
  | find selector single => some (selector, single)
  | findOne selector => some (selector, true)
  | _ => none

def setFlags (finder : Finder) : Call → Finder
  | checkStatus enabled => { finder with checkStatus := enabled }
  | debug enabled => { finder with debug := enabled }
  | _ => finder

end Call

def Answer.error? : Answer → Option Error
  | query (.error error) => some error
  | rows (.error error) => some error
  | row (.error error) => some error
  | _ => none

/-- A new finder with the flags that the calls have set. -/
def flagged (calls : List Call) : Finder :=
  calls.foldl Call.setFlags .new

/-- The numbers that a finder shows after a find. -/
def Shows (finder : Finder) (total limit start : Int) : Prop :=
  finder.total = total ∧ finder.limit = limit ∧ finder.start = start

end Finder

namespace Backend

open Finder

variable {σ : Type u} (backend : Backend σ)

/-- A find that makes its requests one after the other. The total is counted by the executor when a
window may have cut off rows. -/
def find (finder : Finder) (state : σ) (selector : Selector) (single : Bool) : Found × σ :=
  match finder.queryFor (backend.catalog state) selector single with
  | .error error => ({ rows := .error error, finder := finder.reset, requests := [] }, state)
  | .ok query =>
    let windowed := { finder.reset with limit := query.limit, start := query.start }
    match backend.execute query state with
    | (.error error, next) =>
      ({ rows := .error error, finder := windowed, requests := [.execute query] }, next)
    | (.ok result, next) =>
      if result.rows.isEmpty then
        ({ rows := .ok [], finder := windowed, requests := [.execute query] }, next)
      else if !single && query.hasLimit then
        match backend.foundRows next with
        | (.error error, last) =>
          ({ rows := .error error, finder := windowed
             requests := [.execute query, .foundRows] }, last)
        | (.ok total, last) =>
          ({ rows := .ok result.assemble, finder := { windowed with total }
             requests := [.execute query, .foundRows] }, last)
      else
        ({ rows := .ok result.assemble
           finder := { windowed with total := result.assemble.length }
           requests := [.execute query] }, next)

def call (finder : Finder) (state : σ) : Call → Called σ
  | .checkStatus enabled =>
    { answer := .done, finder := { finder with checkStatus := enabled }, requests := [], state }
  | .debug enabled =>
    { answer := .done, finder := { finder with debug := enabled }, requests := [], state }
  | .queryFor selector single =>
    { answer := .query (finder.queryFor (backend.catalog state) selector single)
      finder, requests := [], state }
  | .find selector single =>
    let found := backend.find finder state selector single
    { answer := .rows found.1.rows, finder := found.1.finder, requests := found.1.requests
      state := found.2 }
  | .findOne selector =>
    let found := backend.find finder state selector true
    { answer := .row (found.1.rows.map List.head?), finder := found.1.finder
      requests := found.1.requests, state := found.2 }

/-- The finder after some calls. Each is made in the state that the others, and all that happened
between them, had led to. -/
def run (finder : Finder) : List (σ × Call) → Finder
  | [] => finder
  | (state, call) :: calls => run (backend.call finder state call).finder calls

/-! ### Finds as they are carried out -/

/-- The backend in a state, as the engine of one find. Rows are counted after the query. -/
def engine (state : σ) : Engine where
  execute query := (backend.execute query state).1
  foundRows query := (backend.foundRows (backend.execute query state).2).1

/-- The state that requests leave. -/
def after (state : σ) : List Request → σ
  | [] => state
  | .execute query :: requests => after (backend.execute query state).2 requests
  | .foundRows :: requests => after (backend.foundRows state).2 requests

/-- A find asks nothing but the requests that it lists, and is what the answers to them make it. -/
theorem find_eq (finder : Finder) (state : σ) (selector : Selector) (single : Bool) :
    backend.find finder state selector single =
      (finder.find (backend.catalog state) (backend.engine state) selector single,
        backend.after state
          (finder.find (backend.catalog state) (backend.engine state) selector single).requests) := by
  unfold find Finder.find
  cases finder.queryFor (backend.catalog state) selector single with
  | error error => rfl
  | ok query =>
      dsimp only [engine, Finder.resolveTotal]
      rcases executed : backend.execute query state with ⟨_ | result, next⟩
      · simp [after, executed]
      · dsimp only
        split
        · simp [after, executed]
        · split
          · rcases counted : backend.foundRows next with ⟨_ | total, last⟩
            · simp [after, executed, counted]
            · simp [after, executed, counted]
          · simp [after, executed]

end Backend

/-! ### What a call leaves behind -/

namespace Finder

theorem queryFor_eq_of_reset_eq {finder other : Finder} (same : finder.reset = other.reset)
    (catalog : Catalog) (selector : Selector) (single : Bool) :
    finder.queryFor catalog selector single = other.queryFor catalog selector single := by
  obtain ⟨checkStatus, debug, -⟩ := Finder.mk.inj same
  unfold queryFor prepare
  rw [checkStatus, debug]

theorem reset_setFlags (finder : Finder) (call : Call) :
    (call.setFlags finder).reset = call.setFlags finder.reset := by
  cases call <;> rfl

theorem reset_foldl_setFlags (calls : List Call) (finder : Finder) :
    (calls.foldl Call.setFlags finder).reset = calls.foldl Call.setFlags finder.reset := by
  induction calls generalizing finder with
  | nil => rfl
  | cons call calls induction => rw [List.foldl_cons, induction, reset_setFlags, List.foldl_cons]

theorem reset_find (finder : Finder) (catalog : Catalog) (engine : Engine) (selector : Selector)
    (single : Bool) : (finder.find catalog engine selector single).finder.reset = finder.reset := by
  unfold find
  split
  · rfl
  · dsimp only
    split
    · rfl
    · split
      · rfl
      · split <;> rfl

end Finder

namespace Backend

open Finder

variable {σ : Type u} (backend : Backend σ)

/-- The numbers apart, a call changes the flags alone. -/
theorem reset_call (finder : Finder) (state : σ) (call : Call) :
    (backend.call finder state call).finder.reset = (call.setFlags finder).reset := by
  cases call with
  | checkStatus enabled => rfl
  | debug enabled => rfl
  | queryFor selector single => rfl
  | find selector single =>
      rw [Backend.call, find_eq]
      exact finder.reset_find ..
  | findOne selector =>
      rw [Backend.call, find_eq]
      exact finder.reset_find ..

theorem reset_run (calls : List (σ × Call)) (finder : Finder) :
    (backend.run finder calls).reset = ((calls.map Prod.snd).foldl Call.setFlags finder).reset := by
  induction calls generalizing finder with
  | nil => rfl
  | cons entry calls induction =>
      rw [run, induction, reset_foldl_setFlags, reset_call, ← reset_foldl_setFlags]
      rfl

theorem find_eq_of_reset_eq {finder other : Finder} (same : finder.reset = other.reset) (state : σ)
    (selector : Selector) (single : Bool) :
    backend.find finder state selector single = backend.find other state selector single := by
  unfold find
  rw [queryFor_eq_of_reset_eq same, same]

theorem call_eq_of_reset_eq {finder other : Finder} (same : finder.reset = other.reset) (state : σ)
    {call : Call} (looksUp : call.lookup?.isSome) :
    backend.call finder state call = backend.call other state call := by
  cases call with
  | find selector single => rw [Backend.call, find_eq_of_reset_eq backend same, Backend.call]
  | findOne selector => rw [Backend.call, find_eq_of_reset_eq backend same, Backend.call]
  | checkStatus | debug | queryFor => cases looksUp

/-! ### Failures -/

theorem find_of_queryFor_error {finder : Finder} {state : σ} {selector : Selector} {single : Bool}
    {error : Error}
    (failed : finder.queryFor (backend.catalog state) selector single = .error error) :
    backend.find finder state selector single =
      ({ rows := .error error, finder := finder.reset, requests := [] }, state) := by
  rw [find, failed]

/-- Does the executor fail a query, or the count of its rows where that is asked for? -/
def Fails (state : σ) (query : Query) (requests : List Request) (error : Error) : Prop :=
  (backend.execute query state).1 = .error error ∨
    .foundRows ∈ requests ∧
      (backend.foundRows (backend.execute query state).2).1 = .error error

theorem find_of_fails {finder : Finder} {state : σ} {selector : Selector} {single : Bool}
    {query : Query} (compiled : finder.queryFor (backend.catalog state) selector single = .ok query)
    {error : Error}
    (failed : backend.Fails state query (backend.find finder state selector single).1.requests
      error) :
    (backend.find finder state selector single).1.rows = .error error ∧
      (backend.find finder state selector single).1.finder.Shows 0 query.limit query.start := by
  unfold Fails find at failed
  unfold find
  rw [compiled] at failed ⊢
  dsimp only at failed ⊢
  rcases executed : backend.execute query state with ⟨_ | result, next⟩
  · rw [executed] at failed
    rcases failed with failed | ⟨counts, -⟩
    · cases failed
      exact ⟨rfl, rfl, rfl, rfl⟩
    · simp at counts
  · rw [executed] at failed
    dsimp only at failed ⊢
    rcases failed with failed | ⟨counts, failed⟩
    · cases failed
    · split at counts
      · simp at counts
      · next some =>
        split at counts
        · next limited =>
          rw [if_neg some, if_pos limited]
          rcases counted : backend.foundRows next with ⟨_ | total, last⟩
          · rw [counted] at failed
            cases failed
            exact ⟨rfl, rfl, rfl, rfl⟩
          · rw [counted] at failed
            cases failed
        · simp at counts

theorem call_of_lookup? (finder : Finder) (state : σ) {call : Call} {selector : Selector}
    {single : Bool} (looksUp : call.lookup? = some (selector, single)) :
    (backend.call finder state call).finder =
        (backend.find finder state selector single).1.finder ∧
      (backend.call finder state call).requests =
        (backend.find finder state selector single).1.requests ∧
      ∀ error, (backend.find finder state selector single).1.rows = .error error →
        (backend.call finder state call).answer.error? = some error := by
  cases call with
  | find | findOne =>
      cases looksUp
      refine ⟨rfl, rfl, fun error failed => ?_⟩
      rw [Backend.call, failed]
      rfl
  | checkStatus | debug | queryFor => cases looksUp

/-- A finder carries nothing from one find to the next but its flags: each lookup is that of a new
finder with these flags. What fails shows no total, and a window only where there was a query. -/
theorem call_run (calls : List (σ × Call)) (state : σ) :
    let finder := backend.run .new calls
    let fresh := flagged (calls.map Prod.snd)
    (∀ selector single,
      let asked := backend.call finder state (.queryFor selector single)
      asked.finder = finder ∧ asked.requests = [] ∧
        asked.answer = (backend.call fresh state (.queryFor selector single)).answer) ∧
    ∀ call selector single, call.lookup? = some (selector, single) →
      let called := backend.call finder state call
      called = backend.call fresh state call ∧
        (∀ error, finder.queryFor (backend.catalog state) selector single = .error error →
          called.answer.error? = some error ∧ called.requests = [] ∧ called.finder.Shows 0 0 0) ∧
        ∀ query, finder.queryFor (backend.catalog state) selector single = .ok query →
          ∀ error, backend.Fails state query called.requests error →
            called.answer.error? = some error ∧
              called.finder.Shows 0 query.limit query.start := by
  intro finder fresh
  have same : finder.reset = fresh.reset := backend.reset_run calls .new
  refine ⟨fun selector single => ⟨rfl, rfl, ?_⟩, fun call selector single looksUp => ?_⟩
  · exact congrArg Answer.query (queryFor_eq_of_reset_eq same ..)
  · obtain ⟨numbers, requests, fails⟩ := backend.call_of_lookup? finder state looksUp
    refine ⟨backend.call_eq_of_reset_eq same state (by rw [looksUp]; rfl), ?_, ?_⟩
    · intro error failed
      have found := backend.find_of_queryFor_error failed
      rw [numbers, requests]
      refine ⟨fails error ?_, ?_, ?_⟩
      · rw [found]
      · rw [found]
      · rw [found]
        exact ⟨rfl, rfl, rfl⟩
    · intro query compiled error failed
      rw [requests] at failed
      obtain ⟨rows, shown⟩ := backend.find_of_fails compiled failed
      rw [numbers]
      exact ⟨fails error rows, shown⟩

end Backend

/-- An executor with one row, which is too busy to count rows in one of its states. -/
def busyBackend : Backend Bool where
  catalog _ :=
    { schema := [], templateId := fun _ => .ok none, pageId := fun _ => .ok none
      pageNumber := none, now := ⟨0, false⟩ }
  execute _ busy := (.ok { columns := ["id"], rows := [[.integer 1]] }, busy)
  foundRows busy := (if busy then .error (.database (.reported "busy")) else .ok 7, busy)

def firstPage : Selector :=
  [{ fields := ["limit"], values := ["1"], operator := .equal, negated := false
     text := "limit=1" }]

def firstPageQuery : Query :=
  { joins := []
    conjuncts := [.enclosed (.test (.compare ⟨"pages", "status"⟩ .less (.digits "1024")))]
    scores := [], orders := [], window := some ⟨none, 1⟩, comment := "" }

/-- A count that fails leaves nothing of the total that the find before has shown. -/
theorem Backend.call_run_busyBackend :
    let calls := [(false, Finder.Call.find firstPage false)]
    let called := busyBackend.call (busyBackend.run .new calls) true (.find firstPage false)
    Selector.read "limit=1" = .ok firstPage ∧ (busyBackend.run .new calls).Shows 7 1 0 ∧
      called = busyBackend.call .new true (.find firstPage false) ∧
        called.answer.error? = some (.database (.reported "busy")) ∧
          called.finder.Shows 0 1 0 := by
  intro calls called
  have parsed : Selector.read "limit=1" = .ok firstPage := rfl
  have shown : (busyBackend.run .new calls).Shows 7 1 0 := ⟨rfl, rfl, rfl⟩
  have compiled : (busyBackend.run .new calls).queryFor (busyBackend.catalog true) firstPage false =
      .ok firstPageQuery := rfl
  obtain ⟨-, lookups⟩ := busyBackend.call_run calls true
  obtain ⟨same, -, fails⟩ := lookups (.find firstPage false) firstPage false rfl
  have asked : called.requests = [.execute firstPageQuery, .foundRows] := rfl
  have busy : busyBackend.Fails true firstPageQuery called.requests
      (.database (.reported "busy")) := by
    rw [asked]
    exact .inr ⟨by simp, rfl⟩
  exact ⟨parsed, shown, same, fails firstPageQuery compiled _ busy⟩

end PageTree
