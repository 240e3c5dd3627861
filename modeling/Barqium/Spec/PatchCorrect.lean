import Barqium.ForStd.ReadMergeWrite
import Barqium.Spec.ConcurrentCorrect
import Barqium.Spec.PatchFields

/-!
# Two patches of one row

The SELECT and the UPDATE of a PATCH request are two statements, and the UPDATE writes
all columns. Two requests on one row are the two writers of `ReadMergeWrite`: the
statements on the row, in the order in which they ran, replay to the row's columns.

## Key results

- `Simulates.turn`: one statement of either request, on the replayed row.
- `Deployment.patches_merged_iff`: when the row ends up with the fields of both requests
-/

namespace Barqium.Native.ControlApi

open Program ReadMergeWrite

/-! ## Stored values -/

/-- The value as the column stores it; none if it does not fit. -/
def Value.stored (types : ColumnTypes) : Column → Value → Option Value
  | .budgetUsdPerDay, .text s => (types.numeric s).toOption.map .text
  | _, v => some v

def Table.storedValue (types : ColumnTypes) (t : Table) (row : t.Row) (c : Column) : Option Value :=
  (t.value row c).bind (Value.stored types c)

/-- The row has every provided value, as its column stores it. -/
def Table.Has (types : ColumnTypes) (t : Table) (row : t.Row) (provided : Column → Option Value) :
    Prop :=
  ∀ c v, provided c = some v → t.storedValue types row c = Value.stored types c v

/-- The stored values of a patch. -/
def storedPatch (types : ColumnTypes) (provided : Column → Option Value) (c : Column) :
    Option (Option Value) :=
  (provided c).map (Value.stored types c)

section Stored

variable {types : ColumnTypes} {t : Table}

/-- A row has what was patched exactly if its columns do. -/
private theorem holds_storedValue {row : t.Row} {provided : Column → Option Value} :
    Holds (t.storedValue types row) (storedPatch types provided) ↔ t.Has types row provided := by
  constructor
  · intro h c v hv
    exact h c _ (by simp [storedPatch, hv])
  · intro h c w hw
    obtain ⟨v, hv, rfl⟩ := Option.map_eq_some_iff.mp hw
    exact h c v hv

/-- Writing what was merged into the row that was read. -/
theorem SetsPatch.storedValue {provided : Column → Option Value} {existing : t.Row}
    {set : Time → t.Row → t.Row} (h : SetsPatch t provided existing set) (now : Time)
    (row : t.Row) :
    t.storedValue types (set now row) =
      merge (storedPatch types provided) (t.storedValue types existing) := by
  funext c
  rw [Table.storedValue, (h now row).2.2 c]
  cases hc : provided c with
  | none => simp [merge, storedPatch, hc, Table.storedValue]
  | some v => simp [merge, storedPatch, hc]

/-- A stored row has the values of the row that was sent, if reading a stored number
    gives the same number. -/
theorem Table.storedValue_coerce
    (hnumeric : ∀ a b, types.numeric a = .ok b → types.numeric b = .ok b) {row r : t.Row}
    (h : t.coerce types row = .ok r) : t.storedValue types r = t.storedValue types row := by
  funext c
  -- only a budget is rewritten by its column, and rewriting it again changes nothing
  cases t with
  | aiModelPolicies =>
    simp only [coerce] at h
    split at h
    · cases h
      rfl
    · rename_i budget hbudget
      cases hb : types.numeric budget with
      | error e => simp only [hb, Except.map, reduceCtorEq] at h
      | ok b =>
        simp only [hb, Except.map, Except.ok.injEq] at h
        subst h
        cases c with
        | budgetUsdPerDay =>
          have hrow : Table.aiModelPolicies.value row .budgetUsdPerDay = some (.text budget) := by
            simp [Table.value, AiModelPolicy.value, hbudget]
          rw [Table.storedValue, Table.storedValue, hrow]
          simp [Table.value, AiModelPolicy.value, Value.stored, hb, hnumeric budget b hb]
        | _ => rfl
  | rateLimitPolicies =>
    simp only [coerce] at h
    split at h
    · cases h
    · split at h
      · cases h
      · cases h
        rfl
  | wasmPlugins => rfl
  | _ =>
    cases h
    rfl

end Stored

/-! ## Interleavings of two requests -/

/-- The access to a row of the table that a handler makes next. -/
def access (t : Table) : Handler → Option Event
  | .call (.selectOne u _) _ => if u = t then some .read else none
  | .call (.updateOne u _ _) _ => if u = t then some .write else none
  | _ => none

/-- The answer of a handler that has ended. -/
def answer : Handler → Option Response
  | .done (.ok response) => some response
  | .done (.error response) => some response
  | .call _ _ => none

namespace Deployment

/-- Two PATCH requests on one database. -/
def patching (api : Deployment) (res : Resource) (call : Bool → PatchCall) (s : Postgres) :
    Serving :=
  let handler (i : Bool) := handle api.ext api.oidcMode (res.endpoint (call i)) (call i).request
  ⟨s, [handler false, handler true]⟩

/-- One of two requests runs its next statement. -/
def turn (api : Deployment) (serving : Serving) (i : Bool) : Serving :=
  serving.step (Postgres.exec api.server) i.toNat

/-- The accesses to the table, in the order of the turns. -/
def accesses (api : Deployment) (t : Table) (serving : Serving) : List Bool → List (Bool × Event)
  | [] => []
  | i :: turns =>
    ((serving.running[i.toNat]?.bind (access t)).toList.map fun e => (i, e)) ++
      api.accesses t (api.turn serving i) turns

end Deployment

/-! ## Simulation -/

section Simulation

variable (types : ColumnTypes) {t : Table} (p : t.Row → Bool)
  (provided : Bool → Column → Option Value) (init : Column → Option Value)

/-- The columns of the row after the accesses, as the two writers leave them. -/
abbrev cell (events : List (Bool × Event)) : Cell Column (Option Value) :=
  replay (fun i => storedPatch types (provided i)) init events

/-- Where a request stands, by its own accesses so far: it has to read the row, it has read
    what the cell says it has, or it has written. -/
def Phase (i : Bool) (seen : Column → Option Value) (own : List (Bool × Event)) (x : Handler) :
    Prop :=
  (own = [] ∧ Patches t p (provided i) x) ∨
    (own = [(i, .read)] ∧ ∃ existing, t.storedValue types existing = seen ∧
      Merges t p (provided i) existing x) ∨
    (own = [(i, .read), (i, .write)] ∧ ∃ row, x = .done (.ok ⟨200, .row t row⟩))

/-- The requests and the row are where the accesses have brought them. -/
structure Simulates (events : List (Bool × Event)) (handler : Bool → Handler) (s : Postgres) :
    Prop where
  phase : ∀ i, Phase types p provided i ((cell types provided init events).seen i)
    (events.filter fun e => e.1 = i) (handler i)
  row : ∃ row, (s.db.rows t).find? p = some row ∧
    t.storedValue types row = (cell types provided init events).cur

/-- A request has failed. -/
def Failing (handler : Bool → Handler) : Prop :=
  ∃ i response, handler i = .done (.error response) ∧ response.Failed

end Simulation

section Turns

variable {server : Postgres.Server} {t : Table} {p : t.Row → Bool}
  {provided : Bool → Column → Option Value} {init : Column → Option Value}
  {events : List (Bool × Event)} {handler : Bool → Handler} {s : Postgres} {i : Bool}

/-- The other request is where it was after an access of `i`. -/
theorem Simulates.phase_of_ne (h : Simulates server.types p provided init events handler s)
    {j : Bool} (hne : j ≠ i) (e : Event) (x : Handler) :
    Phase server.types p provided j
      ((cell server.types provided init (events ++ [(i, e)])).seen j)
      ((events ++ [(i, e)]).filter fun e => e.1 = j) (Function.update handler i x j) := by
  -- the other request has neither taken a step nor read anything new
  have hfilter : ((events ++ [(i, e)]).filter fun e => e.1 = j) =
      events.filter fun e => e.1 = j := by
    simp [Ne.symm hne]
  have hseen : (cell server.types provided init (events ++ [(i, e)])).seen j =
      (cell server.types provided init events).seen j := by
    rw [cell, replay_append]
    cases e with
    | read => exact Function.update_of_ne hne ..
    | write => rfl
  rw [hfilter, hseen, Function.update_of_ne hne]
  exact h.phase j

/-- One more event of a request is its last. -/
private theorem filter_append_own (events : List (Bool × Event)) (i : Bool) (e : Event) :
    ((events ++ [(i, e)]).filter fun e => e.1 = i) =
      (events.filter fun e => e.1 = i) ++ [(i, e)] := by
  simp

/-- The SELECT of a patch is a read of the cell. -/
theorem Simulates.read (h : Simulates server.types p provided init events handler s)
    {k : Except DbError t.Row → Handler}
    (hown : (events.filter fun e => e.1 = i) = [])
    (hok : ∀ existing, Merges t p (provided i) existing (k (.ok existing)))
    (herror : ∀ err, ∃ response : Response, response.Failed ∧
      k (.error err) = .done (.error response)) :
    let result := Postgres.exec server (.selectOne t p) s
    let handler' := Function.update handler i (k result.1)
    Failing handler' ∨
      Simulates server.types p provided init (events ++ [(i, .read)]) handler' result.2 := by
  intro result handler'
  obtain ⟨hdb, ⟨err, herr⟩ | ⟨row, hrow, hfind⟩⟩ := Postgres.exec_selectOne_cases server s p
  · -- a read that fails ends the request
    left
    obtain ⟨response, hfailed, hk⟩ := herror err
    refine ⟨i, response, ?_, hfailed⟩
    rw [← hk, ← herr]
    exact Function.update_self ..
  · -- a read that succeeds sees the row as it stands
    right
    obtain ⟨cur, hcur, hvalue⟩ := h.row
    obtain rfl : row = cur := Option.some.inj (hfind.symm.trans hcur)
    have hcell : cell server.types provided init (events ++ [(i, .read)]) =
        (cell server.types provided init events).step _ (i, .read) := replay_append ..
    refine ⟨fun j => ?_, row, ?_, ?_⟩
    · by_cases hj : j = i
      · subst hj
        right
        left
        refine ⟨by rw [filter_append_own, hown]; rfl, row, ?_, ?_⟩
        · rw [hcell, hvalue]
          simp [Cell.step]
        · have hhandler : handler' j = k (.ok row) := by
            rw [← hrow]
            exact Function.update_self ..
          rw [hhandler]
          exact hok row
      · exact h.phase_of_ne hj .read _
    · rw [show result.2.db = s.db from hdb]
      exact hfind
    · rw [hcell, hvalue]
      rfl

/-- A lookup in another table is no access to the row. -/
theorem Simulates.check (h : Simulates server.types p provided init events handler s)
    {u : Table} {p' : u.Row → Bool} {k : Except DbError u.Row → Handler} {existing : t.Row}
    (hown : (events.filter fun e => e.1 = i) = [(i, .read)])
    (hseen : t.storedValue server.types existing = (cell server.types provided init events).seen i)
    (hk : ∀ result, Merges t p (provided i) existing (k result)) :
    let result := Postgres.exec server (.selectOne u p') s
    Simulates server.types p provided init events (Function.update handler i (k result.1))
      result.2 := by
  intro result
  refine ⟨fun j => ?_, ?_⟩
  · -- the request has read its row already and only goes on
    by_cases hj : j = i
    · subst hj
      rw [Function.update_self]
      exact .inr (.inl ⟨hown, existing, hseen, hk _⟩)
    · rw [Function.update_of_ne hj]
      exact h.phase j
  · rw [show result.2.db = s.db from Postgres.exec_selectOne_db server s p']
    exact h.row

/-- The row that an update stored is found where the old one was. -/
theorem find?_map_replace {α : Type} {p : α → Bool} {r old : α} {l : List α} (hr : p r = true)
    (hold : l.find? p = some old) :
    (l.map fun x => if p x then r else x).find? p = some r := by
  induction l with
  | nil => exact nomatch hold
  | cons x xs ih =>
    by_cases hx : p x = true
    · simp [hx, hr]
    · rw [List.find?_cons_of_neg hx] at hold
      simp only [List.map_cons, if_neg hx]
      rw [List.find?_cons_of_neg hx]
      exact ih hold

/-- Its UPDATE is a write of the merge. -/
theorem Simulates.write (h : Simulates server.types p provided init events handler s)
    (hnumeric : ∀ a b, server.types.numeric a = .ok b → server.types.numeric b = .ok b)
    (hp : ∀ a b, t.id a = t.id b → t.tenant a = t.tenant b → p a = p b)
    {set : Time → t.Row → t.Row} {k : Except DbError t.Row → Handler} {existing : t.Row}
    (hown : (events.filter fun e => e.1 = i) = [(i, .read)])
    (hseen : t.storedValue server.types existing = (cell server.types provided init events).seen i)
    (hset : SetsPatch t (provided i) existing set)
    (hok : ∀ row, k (.ok row) = .done (.ok ⟨200, .row t row⟩))
    (herror : ∀ err, ∃ response : Response, response.Failed ∧
      k (.error err) = .done (.error response)) :
    let result := Postgres.exec server (.updateOne t p set) s
    let handler' := Function.update handler i (k result.1)
    Failing handler' ∨
      Simulates server.types p provided init (events ++ [(i, .write)]) handler' result.2 := by
  intro result handler'
  rcases Postgres.exec_updateOne_cases server s p set with
    ⟨err, herr, -⟩ | ⟨old, r, hr, -, hold, hstored, hdb⟩
  · -- a write that fails ends the request
    left
    obtain ⟨response, hfailed, hk⟩ := herror err
    refine ⟨i, response, ?_, hfailed⟩
    rw [← hk, ← herr]
    exact Function.update_self ..
  · -- a write stores the patch over the current row
    right
    have hcoerce := (Db.stored_eq_ok.mp hstored).2.1
    have hcell : cell server.types provided init (events ++ [(i, .write)]) =
        (cell server.types provided init events).step _ (i, .write) := replay_append ..
    refine ⟨fun j => ?_, r, ?_, ?_⟩
    · by_cases hj : j = i
      · subst hj
        right
        right
        refine ⟨by rw [filter_append_own, hown]; rfl, r, ?_⟩
        have hhandler : handler' j = k (.ok r) := by
          rw [← hr]
          exact Function.update_self ..
        rw [hhandler, hok r]
      · exact h.phase_of_ne hj .write _
    · rw [show result.2.db = _ from hdb, Db.setRows_rows_self]
      refine find?_map_replace ?_ hold
      -- the row keeps its id and its tenant, which is all the `WHERE` clause looks at
      obtain ⟨hid, htenant, -⟩ := hset (server.env s.executed).now old
      rw [hp r old ((Table.id_coerce hcoerce).trans hid)
        ((Table.tenant_coerce hcoerce).trans htenant)]
      exact List.find?_some hold
    · rw [hcell, Table.storedValue_coerce hnumeric hcoerce, hset.storedValue, hseen]
      rfl

/-- What a turn of `i` does to the requests, the server and the accesses. -/
theorem Simulates.turn (h : Simulates server.types p provided init events handler s)
    (hnumeric : ∀ a b, server.types.numeric a = .ok b → server.types.numeric b = .ok b)
    (hp : ∀ a b, t.id a = t.id b → t.tenant a = t.tenant b → p a = p b) (i : Bool) :
    (access t (handler i) = none ∧ ∃ result, handler i = .done result) ∨
      ∃ (β : Type) (q : Query β) (k : β → Handler), handler i = .call q k ∧
        let result := Postgres.exec server q s
        let handler' := Function.update handler i (k result.1)
        Failing handler' ∨ Simulates server.types p provided init
          (events ++ (access t (handler i)).toList.map fun e => (i, e)) handler' result.2 := by
  -- the request has yet to read, has yet to write, or is done
  rcases h.phase i with ⟨hown, hpatches⟩ | ⟨hown, existing, hseen, hmerges⟩ | ⟨-, row, hdone⟩
  · generalize hx : handler i = x at hpatches
    cases hpatches with
    | failed response hfailed => exact .inl ⟨rfl, _, rfl⟩
    | read k hok herror =>
      refine .inr ⟨_, _, k, rfl, ?_⟩
      have haccess : access t (.call (.selectOne t p) k) = some .read := by simp [access]
      rw [haccess]
      exact h.read hown hok herror
  · generalize hx : handler i = x at hmerges
    cases hmerges with
    | failed response hfailed => exact .inl ⟨rfl, _, rfl⟩
    | check u p' k hu hk =>
      -- a statement, but no access to the row
      refine .inr ⟨_, _, k, rfl, .inr ?_⟩
      have haccess : access t (.call (.selectOne u p') k) = none := by simp [access, hu]
      rw [haccess, Option.toList_none, List.map_nil, List.append_nil]
      exact h.check hown hseen hk
    | write set k hset hok herror =>
      refine .inr ⟨_, _, k, rfl, ?_⟩
      have haccess : access t (.call (.updateOne t p set) k) = some .write := by simp [access]
      rw [haccess]
      exact h.write hnumeric hp hown hseen hset hok herror
  · left
    rw [hdone]
    exact ⟨rfl, _, rfl⟩

/-- A failure is not answered 200. -/
theorem Response.Failed.status_ne {response : Response} (h : response.Failed) :
    response.status ≠ 200 := by
  have h : 400 ≤ response.status := h
  omega

/-- A request that was answered with 200 has read and written. -/
theorem Phase.written {types : ColumnTypes} {seen : Column → Option Value}
    {own : List (Bool × Event)} {x : Handler} (h : Phase types p provided i seen own x)
    {response : Response} (hanswer : answer x = some response) (hstatus : response.status = 200) :
    own = [(i, .read), (i, .write)] := by
  -- a request that is not through answers with a failure or not at all
  rcases h with ⟨-, hpatches⟩ | ⟨-, existing, -, hmerges⟩ | ⟨hown, -⟩
  · cases hpatches with
    | failed response' hfailed =>
      cases hanswer
      exact absurd hstatus hfailed.status_ne
    | read k hok herror => exact nomatch hanswer
  · cases hmerges with
    | failed response' hfailed =>
      cases hanswer
      exact absurd hstatus hfailed.status_ne
    | check u p' k hu hk => exact nomatch hanswer
    | write set k hset hok herror => exact nomatch hanswer
  · exact hown

end Turns

/-! ## Runs -/

namespace Deployment

variable {api : Deployment} {serving : Serving} {handler : Bool → Handler} {i : Bool}

/-- The handler of each of the two requests. -/
private theorem getElem?_running (h : serving.running = [handler false, handler true]) (i : Bool) :
    serving.running[i.toNat]? = some (handler i) := by
  rw [h]
  cases i <;> rfl

/-- A request that is over takes no turn. -/
private theorem turn_of_done (h : serving.running = [handler false, handler true])
    {result : Except Response Response} (hdone : handler i = .done result) :
    api.turn serving i = serving := by
  have hi := getElem?_running h i
  simp only [turn, Pool.step, hi, hdone]

/-- A turn is one statement. -/
private theorem turn_of_call (h : serving.running = [handler false, handler true]) {β : Type}
    {q : Query β} {k : β → Handler} (hcall : handler i = .call q k) :
    let result := Postgres.exec api.server q serving.state
    let handler' := Function.update handler i (k result.1)
    api.turn serving i = ⟨result.2, [handler' false, handler' true]⟩ := by
  have hi := getElem?_running h i
  rw [hcall] at hi
  rw [turn, Pool.step_of_call hi, h]
  cases i <;> rfl

/-- A request that has failed stays so. -/
private theorem failing_update (h : Failing handler) {β : Type} {q : Query β} {k : β → Handler}
    (hcall : handler i = .call q k) (x : Handler) : Failing (Function.update handler i x) := by
  obtain ⟨j, response, hdone, hfailed⟩ := h
  have hne : j ≠ i := by
    rintro rfl
    exact nomatch hdone.symm.trans hcall
  exact ⟨j, response, by rw [Function.update_of_ne hne]; exact hdone, hfailed⟩

variable {t : Table} {p : t.Row → Bool} {provided : Bool → Column → Option Value}
  {init : Column → Option Value}

/-- In every order of the turns, unless a request fails, the row is what its accesses
    replay to. -/
theorem simulates_run
    (hnumeric : ∀ a b, api.server.types.numeric a = .ok b → api.server.types.numeric b = .ok b)
    (hp : ∀ a b, t.id a = t.id b → t.tenant a = t.tenant b → p a = p b) (turns : List Bool)
    {events : List (Bool × Event)} (hrunning : serving.running = [handler false, handler true])
    (h : Failing handler ∨
      Simulates api.server.types p provided init events handler serving.state) :
    ∃ handler' : Bool → Handler,
      (turns.foldl api.turn serving).running = [handler' false, handler' true] ∧
        (Failing handler' ∨ Simulates api.server.types p provided init
          (events ++ api.accesses t serving turns) handler'
          (turns.foldl api.turn serving).state) := by
  -- turn by turn
  induction turns generalizing serving handler events with
  | nil => exact ⟨handler, hrunning, by simpa [accesses] using h⟩
  | cons i turns ih =>
    have haccess : serving.running[i.toNat]?.bind (access t) = access t (handler i) := by
      rw [getElem?_running hrunning i]
      rfl
    simp only [List.foldl_cons, accesses, haccess, ← List.append_assoc]
    rcases h with hfailing | hsim
    · -- the accesses no longer matter
      cases hx : handler i with
      | done result =>
        rw [turn_of_done hrunning hx]
        exact ih hrunning (.inl hfailing)
      | call q k =>
        rw [turn_of_call hrunning hx]
        exact ih rfl (.inl (failing_update hfailing hx _))
    · rcases hsim.turn hnumeric hp i with ⟨hnone, result, hdone⟩ | ⟨β, q, k, hcall, hnext⟩
      · rw [turn_of_done hrunning hdone, hnone]
        exact ih hrunning (.inr (by simpa using hsim))
      · rw [turn_of_call hrunning hcall]
        exact ih rfl hnext

/-- The status of the answer to one of the two requests, once it has one. -/
def status (serving : Serving) (i : Bool) : Option Nat :=
  (serving.running[i.toNat]?.bind answer).map Response.status

/-- Whether a row is the target depends on its id and tenant only. -/
theorem target_congr (res : Resource) (id tenantId : UUID) (a b : res.table.Row)
    (hid : res.table.id a = res.table.id b) (htenant : res.table.tenant a = res.table.tenant b) :
    res.target id tenantId a = res.target id tenantId b := by
  cases res with
  | tenant =>
    show rowAt .tenants id a = rowAt .tenants id b
    unfold rowAt
    rw [show Table.tenants.id a = Table.tenants.id b from hid]
  | _ =>
    show rowIn _ id tenantId a = rowIn _ id tenantId b
    unfold rowIn
    rw [hid, htenant]

/-- Two requests are about to start on a row. -/
private theorem simulates_patching {res : Resource} {id tenantId : UUID} {call : Bool → PatchCall}
    {s : Postgres} {row : res.table.Row}
    (htargets : ∀ i, res.Targets api.ext id tenantId (call i))
    (hrow : (s.db.rows res.table).find? (res.target id tenantId) = some row) :
    Simulates api.server.types (res.target id tenantId)
      (fun i => res.provided api.ext (call i).request) (res.table.storedValue api.server.types row)
      [] (fun i => handle api.ext api.oidcMode (res.endpoint (call i)) (call i).request) s where
  phase i := .inl ⟨rfl, res.handle_patches api.oidcMode (htargets i)⟩
  row := ⟨row, hrow, rfl⟩

/-- Two PATCH requests with different fields, both answered with 200: the row has the
    fields of both, exactly when a request whose UPDATE runs between the SELECT and the
    UPDATE of the other provides only values that the row has already. -/
theorem patches_merged_iff (api : Deployment) (res : Resource) (id tenantId : UUID)
    (call : Bool → PatchCall) (s : Postgres) (turns : List Bool) (row : res.table.Row)
    (hnumeric : ∀ a b, api.server.types.numeric a = .ok b → api.server.types.numeric b = .ok b)
    (htargets : ∀ i, res.Targets api.ext id tenantId (call i))
    (hrow : (s.db.rows res.table).find? (res.target id tenantId) = some row)
    (hdisjoint : ∀ c, res.provided api.ext (call false).request c = none ∨
      res.provided api.ext (call true).request c = none)
    (hok : ∀ i, status (turns.foldl api.turn (api.patching res call s)) i = some 200) :
    (∃ row', ((turns.foldl api.turn (api.patching res call s)).state.db.rows res.table).find?
        (res.target id tenantId) = some row' ∧
      ∀ i, res.table.Has api.server.types row' (res.provided api.ext (call i).request)) ↔
    ∀ i, Overwritten (api.accesses res.table (api.patching res call s) turns) i →
      res.table.Has api.server.types row (res.provided api.ext (call i).request) := by
  have hstart := simulates_patching htargets hrow
  obtain ⟨handler, hrunning, hend⟩ := simulates_run hnumeric (target_congr res id tenantId) turns
    (show (api.patching res call s).running = _ from rfl) (.inr hstart)
  have hanswer : ∀ i, ∃ response, answer (handler i) = some response ∧ response.status = 200 := by
    intro i
    have hi := hok i
    rw [status, getElem?_running hrunning i] at hi
    exact Option.map_eq_some_iff.mp hi
  -- both requests were answered with 200, so neither failed
  rcases hend with ⟨i, response, hdone, hfailed⟩ | hsim
  · obtain ⟨response', hresponse, hstatus⟩ := hanswer i
    rw [hdone] at hresponse
    cases hresponse
    exact absurd hstatus hfailed.status_ne
  · rw [List.nil_append] at hsim
    -- each request has read once and written once
    have honce : Once (api.accesses res.table (api.patching res call s) turns) := by
      intro i
      obtain ⟨response, hresponse, hstatus⟩ := hanswer i
      exact (hsim.phase i).written hresponse hstatus
    obtain ⟨row', hrow', hvalue⟩ := hsim.row
    let patch (i : Bool) := storedPatch api.server.types (res.provided api.ext (call i).request)
    -- the two patches set different columns
    have hpatch : ∀ c, patch false c = none ∨ patch true c = none := by
      intro c
      rcases hdisjoint c with hc | hc
      · exact .inl (by simp [patch, storedPatch, hc])
      · exact .inr (by simp [patch, storedPatch, hc])
    have hiff := @holds_iff _ _ patch (res.table.storedValue api.server.types row) _ hpatch honce
    simp only [patch, ← hvalue, holds_storedValue] at hiff
    rw [← hiff]
    constructor
    · rintro ⟨row'', hrow'', hhas⟩
      cases hrow'.symm.trans hrow''
      exact hhas
    · intro hhas
      exact ⟨row', hrow', hhas⟩

/-- A tenant with an upstream and a route. -/
def oneRoute : Postgres where
  executed := 0
  db :=
    ((Db.empty.setRows .tenants ([⟨1, "Acme", "acme", true, 0, 0⟩] : List Tenant)).setRows
      .upstreams ([⟨2, 1, "api", "https://example.com", 5000, true, 0, 0⟩] : List Upstream)).setRows
      .routes ([⟨3, 1, "GET", "/", "a.example", 2, true, 0, 0⟩] : List Route)

/-- One request sets the host, the other one the path. -/
def hostAndPath (i : Bool) : PatchCall where
  tenantParam := "1"
  providerParam := ""
  idParam := "3"
  request := jsonRequest [if i then ("path_prefix", .str "/v2") else ("host", .str "b.example")]

/-- A number that was stored is stored as it is. -/
private theorem counting_numeric (a b : String) (h : counting.server.types.numeric a = .ok b) :
    counting.server.types.numeric b = .ok b := by
  cases h
  rfl

/-- The route that is patched. -/
theorem oneRoute_row : (oneRoute.db.rows .routes).find? (rowIn .routes 3 1) =
    some ⟨3, 1, "GET", "/", "a.example", 2, true, 0, 0⟩ := by
  decide

/-- Both requests patch the route. -/
theorem hostAndPath_targets (i : Bool) :
    Resource.route.Targets counting.ext 3 1 (hostAndPath i) := by
  cases i <;> exact ⟨by decide, fun _ => by decide⟩

/-- The two requests patch different columns. -/
private theorem hostAndPath_disjoint (c : Column) :
    Resource.route.provided counting.ext (hostAndPath false).request c = none ∨
      Resource.route.provided counting.ext (hostAndPath true).request c = none := by
  cases c <;> decide

/-- One request after the other. -/
theorem patches_merged_in_sequence :
    ∃ row' : Route, (([false, false, true, true].foldl counting.turn
        (counting.patching .route hostAndPath oneRoute)).state.db.rows .routes).find?
        (rowIn .routes 3 1) = some row' ∧
      ∀ i, Table.routes.Has counting.server.types row'
        (Resource.route.provided counting.ext (hostAndPath i).request) := by
  have hnot : ∀ i, ¬ Overwritten (counting.accesses .routes
      (counting.patching .route hostAndPath oneRoute) [false, false, true, true]) i := by
    decide
  refine (patches_merged_iff counting .route 3 1 hostAndPath oneRoute [false, false, true, true]
    ⟨3, 1, "GET", "/", "a.example", 2, true, 0, 0⟩ counting_numeric hostAndPath_targets
    oneRoute_row hostAndPath_disjoint (by decide)).mpr fun i hi => absurd hi (hnot i)

/-- Both requests read before either writes: the host is lost. -/
theorem patch_lost_in_overlap :
    ¬ ∀ (api : Deployment) (res : Resource) (id tenantId : UUID) (call : Bool → PatchCall)
        (s : Postgres) (turns : List Bool) (row : res.table.Row),
      (∀ a b, api.server.types.numeric a = .ok b → api.server.types.numeric b = .ok b) →
      (∀ i, res.Targets api.ext id tenantId (call i)) →
      (s.db.rows res.table).find? (res.target id tenantId) = some row →
      (∀ c, res.provided api.ext (call false).request c = none ∨
        res.provided api.ext (call true).request c = none) →
      (∀ i, status (turns.foldl api.turn (api.patching res call s)) i = some 200) →
      ∃ row', ((turns.foldl api.turn (api.patching res call s)).state.db.rows res.table).find?
          (res.target id tenantId) = some row' ∧
        ∀ i, res.table.Has api.server.types row' (res.provided api.ext (call i).request) := by
  intro h
  obtain ⟨row', hrow', hhas⟩ := h counting .route 3 1 hostAndPath oneRoute
    [false, true, false, true] ⟨3, 1, "GET", "/", "a.example", 2, true, 0, 0⟩ counting_numeric
    hostAndPath_targets oneRoute_row hostAndPath_disjoint (by decide)
  -- the patch of the path has written the old host back
  have hfinal : (([false, true, false, true].foldl counting.turn
      (counting.patching .route hostAndPath oneRoute)).state.db.rows .routes).find?
      (rowIn .routes 3 1) = some ⟨3, 1, "GET", "/v2", "a.example", 2, true, 0, 3⟩ := by
    decide
  cases hfinal.symm.trans hrow'
  have hhost := hhas false .host (.text "b.example") (by decide)
  revert hhost
  decide

end Deployment

end Barqium.Native.ControlApi
