import Barqium.ForStd.Run
import Barqium.Native.ControlApi.Concurrent
import Barqium.Spec.KeysCorrect

/-!
# What holds while requests are served at the same time

## Key results

- `Deployment.performing_interleave`: what every endpoint's statements satisfy, the
  statements of the requests in progress do.
- `Deployment.nodup_ids_interleave`: the ids in a table are distinct in every interleaving.
-/

namespace Barqium.Native.ControlApi

open Program

/-- A statement, and what its result says of the state after it. -/
theorem orFail_keeps {server : Postgres.Server} {R : Postgres → Postgres → Prop}
    {I : Postgres → Prop} {β : Type} {Q : β → Postgres → Prop} {q : Query (Except DbError β)}
    {onError : DbError → Response} {s : Postgres}
    (h : ∀ s', R s s' → I s' →
      (R s' (Postgres.exec server q s').2 ∧ I (Postgres.exec server q s').2) ∧
        ∀ b, (Postgres.exec server q s').1 = .ok b →
          ∀ t, R (Postgres.exec server q s').2 t → I t → Q b t) :
    (orFail q onError).Keeps (Postgres.exec server) R I Q s := by
  intro s' hR hI
  obtain ⟨⟨hR', hI'⟩, hQ⟩ := h s' hR hI
  refine ⟨hR', hI', ?_⟩
  cases hresult : (Postgres.exec server q s').1 with
  | ok b => exact hQ b hresult
  | error err => trivial

/-! ## Interleavings -/

namespace Deployment

/-- The middlewares perform no statement. -/
theorem handle_performs {allowed : {β : Type} → Query β → Prop} {ext : Ext} {mode : OidcMode}
    {endpoint : Endpoint} {r : Request} (h : (endpoint.handler ext r).Performs allowed) :
    (handle ext mode endpoint r).Performs allowed :=
  Performs.bind_attempt fun _ _ => h

/-- Every request in progress runs statements of its endpoint. -/
theorem performing_interleave {allowed : {β : Type} → Query β → Prop} (api : Deployment)
    (h : ∀ (endpoint : Endpoint) (r : Request), (endpoint.handler api.ext r).Performs allowed)
    (actions : List Action) : (api.interleave actions).Performing allowed := by
  apply List.foldl_keeps (P := fun s : Serving => s.Performing allowed)
  · intro x hx
    exact nomatch hx
  · intro pre a post _ hpre
    cases a with
    | request endpoint r => exact hpre.start (handle_performs (h endpoint r))
    | statement i => exact hpre.step i

/-- The statement that the request at `i` runs next. -/
theorem act_statement {api : Deployment} {serving : Serving} {i : Nat} {β : Type} {q : Query β}
    {k : β → Handler} (h : serving.running[i]? = some (.call q k)) :
    (api.act serving (.statement i)).state = (Postgres.exec api.server q serving.state).2 := by
  show (serving.step (Postgres.exec api.server) i).state = _
  rw [Pool.step_of_call h]

/-- An action leaves the database alone, or runs a statement. -/
theorem act_cases (api : Deployment) (serving : Serving) (a : Action) :
    (api.act serving a).state = serving.state ∨
      ∃ (i : Nat) (β : Type) (q : Query β) (k : β → Handler), a = .statement i ∧
        serving.running[i]? = some (.call q k) ∧
        (api.act serving a).state = (Postgres.exec api.server q serving.state).2 := by
  cases a with
  | request endpoint r => exact .inl rfl
  | statement i =>
    rcases Pool.step_cases (Postgres.exec api.server) serving i with ⟨hstep, -⟩ | ⟨β, q, k, hi, -⟩
    · left
      show (serving.step (Postgres.exec api.server) i).state = _
      rw [hstep]
    · exact .inr ⟨i, β, q, k, rfl, hi, act_statement hi⟩

/-- No two rows of a table have one id. -/
theorem nodup_ids_interleave (api : Deployment) (actions : List Action) :
    (api.interleave actions).state.db.IdsNodup := by
  apply List.foldl_keeps (P := fun s : Serving => s.state.db.IdsNodup)
  · exact fun _ => List.nodup_nil
  · intro pre a post _ hpre
    have hperforming :=
      performing_interleave api (fun endpoint r => endpoint.handler_keyed api.ext r) pre
    -- a step starts a request, which executes nothing, or executes one statement
    rcases act_cases api (api.interleave pre) a with hstate | ⟨i, β, q, k, -, hi, hstate⟩
    · rw [show (api.act (pre.foldl api.act ⟨⟨0, Db.empty⟩, []⟩) a).state = _ from hstate]
      exact hpre
    · rw [show (api.act (pre.foldl api.act ⟨⟨0, Db.empty⟩, []⟩) a).state = _ from hstate]
      exact (Postgres.exec_effect api.server q _).nodup_ids (hperforming.next hi).1 hpre

/-! ## A deployment to run -/

/-- No OIDC; the server generates the ids 1, 2, and so on, and the text of an id is one
    digit. -/
def counting : Deployment where
  ext :=
    { uuidParse := fun s =>
        match s.toList with
        | [c] => if c.isDigit then some (BitVec.ofNat 128 (c.toNat - '0'.toNat)) else none
        | _ => none
      toUpper := fun s => String.ofList (s.toList.map Char.toUpper)
      toLower := fun s => String.ofList (s.toList.map Char.toLower)
      parseRequestURI := fun _ => some ⟨"https", "example.com"⟩
      rawMessage := fun _ => "null"
      sha256Hex := fun _ => "" }
  oidcMode := .disabled
  server := { types := ⟨.ok, .ok⟩, env := fun n => ⟨BitVec.ofNat 128 (n + 1), n, none⟩ }

/-- A request with the members of a JSON object. -/
def jsonRequest (members : List (String × Json)) : Request where
  auth := .missing
  query := fun _ => ""
  contentType := "application/json"
  body := some (.obj members)
  form := none

end Deployment

end Barqium.Native.ControlApi
