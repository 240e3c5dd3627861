import Barqium.Spec.DrainedOutboxCorrect
import Barqium.Spec.ProxyServiceCorrect

/-!
# From the outbox to the forwarded request

The rows of the outbox, the topic, the compiler's maps, the snapshot file and the loop of
`find_route` stand between a change of the configuration and the upstream that a request is sent
to. Taken together they do one thing: a request matches the route with the longest prefix among
those whose last event is an upsert, with the URL and the timeout of the last upsert of its
upstream, and goes out to that URL if a request can be sent there.

## Key results

- `routes_lookup_iff`, `upstreams_lookup_iff`: the maps, by the last events
- `decided_of_shows`: the data plane on any snapshot of a state
- `stored_run`: what the compiler has written for a tenant
- `forwarded_eq_decided`: all of it together
-/

namespace Barqium.Native

/-! ## Routes and upstreams by their last events -/

namespace ConfigEvent

/-- The last of the events on the route puts it. -/
def RouteUp (events : List ConfigEvent) (route : Proto.Route) : Prop :=
  ∃ e, LastOn events (.route route.id) e ∧ e.payload = some (.routeUpserted (some route))

/-- The last of the events on the upstream puts it. -/
def UpstreamUp (events : List ConfigEvent) (upstream : Proto.Upstream) : Prop :=
  ∃ e, LastOn events (.upstream upstream.id) e ∧
    e.payload = some (.upstreamUpserted (some upstream))

/-- An event of a route writes it. -/
private theorem routeEffect_isSome {e : ConfigEvent} {id : String}
    (h : e.entity = some (.route id)) :
    (WriteLog.effect routeWrite id e).isSome := by
  unfold WriteLog.effect routeWrite
  unfold entity at h
  rcases hpayload : e.payload with - | ⟨_ | proto⟩ | routeId | ⟨_ | _⟩ | _
  all_goals simp_all

/-- An event of an upstream writes it. -/
private theorem upstreamEffect_isSome {e : ConfigEvent} {id : String}
    (h : e.entity = some (.upstream id)) : (WriteLog.effect upstreamWrite id e).isSome := by
  unfold WriteLog.effect upstreamWrite
  unfold entity at h
  rcases hpayload : e.payload with - | ⟨_ | _⟩ | _ | ⟨_ | proto⟩ | upstreamId
  all_goals simp_all

/-- A route is written by its upsert only. -/
private theorem routeEffect_eq_upsert {e : ConfigEvent} {id : String} {entry : RouteEntry}
    (h : WriteLog.effect routeWrite id e = some (some entry)) :
    ∃ route, e.payload = some (.routeUpserted (some route)) ∧ route.id = id ∧
      TenantState.routeEntry route = entry := by
  rw [WriteLog.effect_eq_some_iff] at h
  unfold routeWrite at h
  rcases hpayload : e.payload with - | ⟨_ | route⟩ | routeId | ⟨_ | _⟩ | _
  all_goals simp_all

/-- An upstream is written by its upsert only. -/
private theorem upstreamEffect_eq_upsert {e : ConfigEvent} {id : String} {entry : UpstreamEntry}
    (h : WriteLog.effect upstreamWrite id e = some (some entry)) :
    ∃ upstream, e.payload = some (.upstreamUpserted (some upstream)) ∧ upstream.id = id ∧
      TenantState.upstreamEntry upstream = entry := by
  rw [WriteLog.effect_eq_some_iff] at h
  unfold upstreamWrite at h
  rcases hpayload : e.payload with - | ⟨_ | _⟩ | _ | ⟨_ | upstream⟩ | upstreamId
  all_goals simp_all

/-- The last write of a key is made by the last event on its entity. -/
private theorem lastOn_of_lastWrite {V : Type} {write : ConfigEvent → Option (String × Option V)}
    {id : String} {target : Entity} {events : List ConfigEvent} {w : Option V}
    (hwrites : ∀ f : ConfigEvent, f.entity = some target → (WriteLog.effect write id f).isSome)
    (hother : ∀ f : ConfigEvent, f.entity ≠ some target → WriteLog.effect write id f = none)
    (h : WriteLog.lastWrite write id events = some w) :
    ∃ e, LastOn events target e ∧ WriteLog.effect write id e = some w := by
  obtain ⟨before, e, after, hsplit, he, hafter⟩ := WriteLog.lastWrite_eq_some write h
  refine ⟨e, ⟨before, after, hsplit, ?_, fun f hf hentity => ?_⟩, he⟩
  · by_contra hne
    rw [hother e hne] at he
    cases he
  · have hsome := hwrites f hentity
    rw [hafter f hf] at hsome
    cases hsome

end ConfigEvent

namespace TenantState

open ConfigEvent

/-- The entry of a route is that of its last upsert. -/
theorem routes_lookup_iff {T : String} {events : List ConfigEvent} {entry : RouteEntry} :
    ((new T).run events).routes.lookup entry.id = some entry ↔
      ∃ route, RouteUp events route ∧ routeEntry route = entry := by
  rw [routes_run]
  constructor
  · intro h
    rw [WriteLog.lookup_replay] at h
    -- the last event on the route decides
    cases hw : WriteLog.lastWrite routeWrite entry.id events with
    | none =>
      rw [hw] at h
      cases h
    | some w =>
      rw [hw, Option.getD_some] at h
      subst h
      obtain ⟨e, hlast, heffect⟩ :=
        lastOn_of_lastWrite (fun _ => routeEffect_isSome) (fun _ => routeEffect_eq_none) hw
      obtain ⟨route, hpayload, hid, hentry⟩ := routeEffect_eq_upsert heffect
      exact ⟨route, ⟨e, hid ▸ hlast, hpayload⟩, hentry⟩
  · rintro ⟨route, ⟨e, hlast, hpayload⟩, rfl⟩
    refine lookup_of_lastOn (fun _ => routeEffect_eq_none) hlast ?_
    simp [WriteLog.effect, routeWrite, hpayload, routeEntry]

/-- The entry of an upstream is that of its last upsert. -/
theorem upstreams_lookup_iff {T : String} {events : List ConfigEvent} {entry : UpstreamEntry} :
    ((new T).run events).upstreams.lookup entry.id = some entry ↔
      ∃ upstream, UpstreamUp events upstream ∧ upstreamEntry upstream = entry := by
  rw [upstreams_run]
  constructor
  · intro h
    rw [WriteLog.lookup_replay] at h
    -- the last event on the upstream decides
    cases hw : WriteLog.lastWrite upstreamWrite entry.id events with
    | none =>
      rw [hw] at h
      cases h
    | some w =>
      rw [hw, Option.getD_some] at h
      subst h
      obtain ⟨e, hlast, heffect⟩ :=
        lastOn_of_lastWrite (fun _ => upstreamEffect_isSome) (fun _ => upstreamEffect_eq_none) hw
      obtain ⟨upstream, hpayload, hid, hentry⟩ := upstreamEffect_eq_upsert heffect
      exact ⟨upstream, ⟨e, hid ▸ hlast, hpayload⟩, hentry⟩
  · rintro ⟨upstream, ⟨e, hlast, hpayload⟩, rfl⟩
    refine lookup_of_lastOn (fun _ => upstreamEffect_eq_none) hlast ?_
    simp [WriteLog.effect, upstreamWrite, hpayload, upstreamEntry]

/-! ## The data plane -/

/-- As the last events on them stand, `route` may serve the request through `upstream`. -/
structure Serves (events : List ConfigEvent) (req : MatchRequest) (health : Option UpstreamHealth)
    (route : Proto.Route) (upstream : Proto.Upstream) : Prop where
  routeUp : RouteUp events route
  upstreamUp : UpstreamUp events upstream
  id : upstream.id = route.upstreamId
  routeEnabled : route.enabled = true
  upstreamEnabled : upstream.enabled = true
  method : route.method = "*" ∨ eqIgnoreAsciiCase route.method req.method = true
  path : route.pathPrefix.toList <+: req.path.toList
  nonempty : route.pathPrefix ≠ ""
  host : route.host = "" ∨ route.host = req.host
  healthy : ∀ h ∈ health, h.healthy.lookup route.upstreamId ≠ some false

/-- The outcome of a request when the last events decide: no match if nothing may serve it,
    else the match of a route with a prefix as long as any. -/
def Decided (events : List ConfigEvent) (req : MatchRequest) (health : Option UpstreamHealth)
    (outcome : Option RouteMatch) : Prop :=
  (outcome = none ↔ ∀ route upstream, ¬ Serves events req health route upstream) ∧
    ∀ m, outcome = some m → ∃ route upstream, Serves events req health route upstream ∧
      (∀ route' upstream', Serves events req health route' upstream' →
        route'.pathPrefix.utf8ByteSize ≤ route.pathPrefix.utf8ByteSize) ∧
      m = ⟨route.id, upstream.id, upstream.url, upstream.timeoutMs, route.policyIds⟩

section

variable {T : String} {events : List ConfigEvent} {snapshot : RouteSnapshot} {req : MatchRequest}
  {health : Option UpstreamHealth}

/-- The routes of a snapshot are the ones that are up. -/
private theorem mem_routes_of_shows (h : ((new T).run events).Shows snapshot) {entry : RouteEntry} :
    entry ∈ snapshot.routes ↔ ∃ route, RouteUp events route ∧ routeEntry route = entry := by
  rw [← routes_lookup_iff]
  exact HashMap.mem_values_keyed (routes_keyed _) ⟨snapshot.routes, h.1⟩

/-- The upstreams of a snapshot are the ones that are up. -/
private theorem mem_upstreams_of_shows (h : ((new T).run events).Shows snapshot)
    {entry : UpstreamEntry} :
    entry ∈ snapshot.upstreams ↔
      ∃ upstream, UpstreamUp events upstream ∧ upstreamEntry upstream = entry := by
  rw [← upstreams_lookup_iff]
  exact HashMap.mem_values_keyed (upstreams_keyed _) ⟨snapshot.upstreams, h.2⟩

/-- A listed route is eligible exactly when it may serve the request through some upstream. -/
private theorem eligible_iff_serves (h : ((new T).run events).Shows snapshot) {route : Proto.Route}
    (hup : RouteUp events route) (hne : route.pathPrefix ≠ "") :
    Eligible snapshot req health (routeEntry route) ↔
      ∃ upstream, Serves events req health route upstream := by
  constructor
  · rintro ⟨henabled, hmethod, hpath, hhost, hhealthy, entry, hentry, hid, hon⟩
    obtain ⟨upstream, hupstream, rfl⟩ := (mem_upstreams_of_shows h).mp hentry
    exact ⟨upstream, hup, hupstream, hid, henabled, hon, hmethod, hpath, hne, hhost, hhealthy⟩
  · rintro ⟨upstream, hs⟩
    refine ⟨hs.routeEnabled, hs.method, hs.path, hs.host, hs.healthy, upstreamEntry upstream,
      (mem_upstreams_of_shows h).mpr ⟨upstream, hs.upstreamUp, rfl⟩, hs.id, hs.upstreamEnabled⟩

/-- On any snapshot of the state after some events the outcome of a request is decided by the
    last events on the routes and the upstreams. -/
theorem decided_of_shows (h : ((new T).run events).Shows snapshot) :
    Decided events req health (findRoute snapshot req health) := by
  -- a route is found exactly if some announced route serves
  have hsome : (findRoute snapshot req health).isSome ↔
      ∃ route upstream, Serves events req health route upstream := by
    rw [findRoute_isSome_iff]
    constructor
    · rintro ⟨entry, hentry, heligible, hne⟩
      obtain ⟨route, hup, rfl⟩ := (mem_routes_of_shows h).mp hentry
      exact ⟨route, (eligible_iff_serves h hup hne).mp heligible⟩
    · rintro ⟨route, upstream, hs⟩
      exact ⟨routeEntry route, (mem_routes_of_shows h).mpr ⟨route, hs.routeUp, rfl⟩,
        (eligible_iff_serves h hs.routeUp hs.nonempty).mpr ⟨upstream, hs⟩, hs.nonempty⟩
  constructor
  · rw [← Option.not_isSome_iff_eq_none, hsome]
    push Not
    rfl
  · intro m hm
    obtain ⟨entry, u, hlongest, hu, rfl⟩ := findRoute_eq_some hm
    obtain ⟨route, hup, rfl⟩ := (mem_routes_of_shows h).mp hlongest.mem
    -- the upstream that is found is one that is up
    have hfound := List.find?_some hu
    simp only [Bool.and_eq_true, decide_eq_true_eq] at hfound
    obtain ⟨upstream, hupstream, rfl⟩ :=
      (mem_upstreams_of_shows h).mp (List.mem_of_find?_eq_some hu)
    obtain ⟨henabled, hmethod, hpath, hhost, hhealthy, -⟩ := hlongest.eligible
    refine ⟨route, upstream, ⟨hup, hupstream, hfound.1, henabled, hfound.2, hmethod, hpath,
      hlongest.nonempty, hhost, hhealthy⟩, fun route' upstream' hs => ?_, ?_⟩
    · exact hlongest.longest (routeEntry route')
        ((mem_routes_of_shows h).mpr ⟨route', hs.routeUp, rfl⟩)
        ((eligible_iff_serves h hs.routeUp hs.nonempty).mpr ⟨upstream', hs⟩)
    · have hid : upstream.id = route.upstreamId := hfound.1
      simp [routeMatch, routeEntry, upstreamEntry, hid]

end

end TenantState

/-! ## The compiler's store -/

namespace SnapshotConsumer

open TenantState ConfigEvent

variable {decode : List UInt8 → Except String ConfigEvent} {log : List KafkaMessage} {w : World}

/-- Unless a snapshot of the tenant is about to be written, the stored one shows all events of
    the tenant that the process has received. -/
def Stored (decode : List UInt8 → Except String ConfigEvent) (log : List KafkaMessage)
    (w : World) : Prop :=
  ∀ T, eventsOf decode T (received log w) ≠ [] →
    (∀ n snapshot, w.phase = .writing n snapshot → snapshot.tenantId ≠ T) →
    ∃ snapshot, w.store T = some snapshot ∧ (folded decode T (received log w)).Shows snapshot

/-- The store after the write of the current snapshot. -/
theorem Stored.write (h : Stored decode log w) (hinv : Inv decode log w) {n : Nat}
    {snapshot : RouteSnapshot} (hphase : w.phase = .writing n snapshot) :
    Stored decode log { w with
      store := Function.update w.store snapshot.tenantId (some snapshot)
      phase := .committing n } := by
  obtain ⟨-, e, -, htenant, hshows⟩ := hinv.writing n snapshot hphase
  intro T hevents _
  -- the key of the tenant holds what was to be written, the other keys what they held
  by_cases hT : T = snapshot.tenantId
  · refine ⟨snapshot, by simp [hT], ?_⟩
    rw [hT, htenant]
    exact hshows
  · obtain ⟨stored, hstored, hfolded⟩ := h T hevents fun n' snapshot' hphase' heq => by
      rw [hphase] at hphase'
      cases hphase'
      exact hT heq.symm
    exact ⟨stored, (Function.update_of_ne hT _ _).trans hstored, hfolded⟩

/-- The body of the loop up to the compiled snapshot. -/
theorem Stored.receive (h : Stored decode log w) (hinv : Inv decode log w) {msg : KafkaMessage}
    (hmsg : log[w.position]? = some msg) (hpolling : w.phase = .polling) (nowMs : Int64)
    (routeOrder : ∀ m : HashMap RouteEntry, HashMap.Values m)
    (upstreamOrder : ∀ m : HashMap UpstreamEntry, HashMap.Values m) :
    Stored decode log (receive decode w msg nowMs routeOrder upstreamOrder) := by
  -- no snapshot waits while the consumer polls
  have hold : ∀ T n snapshot, w.phase = .writing n snapshot → snapshot.tenantId ≠ T := by
    intro T n snapshot hphase
    rw [hpolling] at hphase
    cases hphase
  -- a message without an event changes no tenant
  cases hevent : messageEvent decode msg with
  | none =>
    rw [receive_of_none hevent]
    intro T hevents _
    rw [received_succ hinv hmsg] at hevents ⊢
    rw [folded_concat_none decode hevent]
    refine h T ?_ (hold T)
    rw [eventsOf_append] at hevents
    simpa [eventsOf, hevent] using hevents
  | some e =>
    rw [receive_of_some hevent]
    intro T hevents hwriting
    -- the snapshot of the event's own tenant is now to be written
    have hT : T ≠ e.tenantId := by
      rintro rfl
      refine hwriting _ _ rfl ?_
      show ((memory w e.tenantId).apply e).tenantId = e.tenantId
      rw [tenantId_apply, hinv.memory_eq]
      exact tenantId_run _ _
    rw [received_succ hinv hmsg] at hevents ⊢
    rw [folded_concat_ne decode hevent hT]
    refine h T ?_ (hold T)
    rw [eventsOf_append] at hevents
    simpa [eventsOf, hevent, Ne.symm hT] using hevents

/-- Every step keeps the snapshots up to date. -/
theorem Stored.step (h : Stored decode log w) (hinv : Inv decode log w) (a : Action) :
    Stored decode log (step decode log w a) := by
  cases a with
  -- only receiving moves the position
  | recv nowMs ro uo =>
    simp only [SnapshotConsumer.step]
    split
    · rename_i hphase hmsg
      exact h.receive hinv hmsg hphase nowMs ro uo
    · exact h
  | recvError => exact h
  | write =>
    simp only [SnapshotConsumer.step]
    split
    · rename_i n snapshot hphase
      exact h.write hinv hphase
    · exact h
  -- the commit comes after the write, so nothing is pending
  | commit queued =>
    simp only [SnapshotConsumer.step]
    split
    · rename_i n hphase
      intro T hevents _
      refine h T hevents fun m snapshot hwriting => ?_
      rw [hphase] at hwriting
      cases hwriting
    · exact h
  | commitApplied n =>
    simp only [SnapshotConsumer.step]
    split
    · exact h
    · exact h
  | restart =>
    -- the new process has not received anything
    intro T hevents
    simp [SnapshotConsumer.step, received, eventsOf] at hevents

/-- After every run, with restarts anywhere in it. -/
theorem stored_run (actions : List Action) : Stored decode log (run decode log actions) := by
  refine List.foldl_keeps actions initial ?_ fun pre a _ _ hpre => hpre.step (inv_run pre) a
  intro T hevents
  simp [initial, received, eventsOf] at hevents

/-- The stored snapshot of a tenant once the topic is received to its end. -/
private theorem stored_of_received {actions : List Action} {T : String}
    (hpolling : (run decode log actions).phase = .polling)
    (hreceived : (run decode log actions).position = log.length)
    (hevents : eventsOf decode T (log.drop (run decode log actions).resumed) ≠ [])
    (hrewritten : Rewritten decode log T (run decode log actions).resumed (log.length - 1)) :
    ∃ snapshot, (run decode log actions).store T = some snapshot ∧
      (folded decode T log).Shows snapshot := by
  have hall : received log (run decode log actions) =
      log.drop (run decode log actions).resumed := by
    unfold received
    rw [hreceived, List.take_length]
  have hstored : Stored decode log (run decode log actions) := stored_run actions
  obtain ⟨snapshot, hsnapshot, hshows⟩ :=
    hstored T (by rw [hall]; exact hevents) (by simp [hpolling])
  refine ⟨snapshot, hsnapshot, ?_⟩
  -- what was received since the resume offset gives the maps of the whole topic
  have hpos : 0 < log.length := by
    refine List.length_pos_iff.mpr fun hnil => hevents ?_
    simp [hnil, eventsOf]
  have hlength : log.length - 1 + 1 = log.length := Nat.sub_add_cancel hpos
  have hinv : Inv decode log (run decode log actions) := inv_run actions
  have hle := hinv.resumed_le
  have hmaps := (folded_eq_iff (by omega)).mpr hrewritten
  rw [hlength, List.take_length, ← hall] at hmaps
  exact hshows.iff_eq.mpr hmaps

end SnapshotConsumer

/-! ## The whole way -/

namespace ProxyService

open SnapshotConsumer OutboxWorker ControlApi

variable {http : Http} {R W : Type} [DecidableEq W]

/-- Once the rows of a tenant are marked and the compiler has received the topic to its end, the
    gateway matches every request of the tenant as the last rows on its routes and upstreams
    say, and sends exactly what can go out to the upstream of the match. -/
theorem forwarded_eq_decided (net : Net http R) {batch : W → Int64} {table : EventTable}
    {actions : List (OutboxWorker.Action W)} (hundisturbed : Undisturbed batch table actions)
    (decode : List UInt8 → Except String ConfigEvent) (topic T : String) (t : UUID)
    (hcolumn : ∀ row ∈ table.rows, row.kafkaTopic = topic → ∀ e, decode row.payload = .ok e →
      e.tenantId = T → row.tenantId = t)
    (hmarked : ∀ row ∈ (OutboxWorker.run batch table actions).table.rows, row.tenantId = t →
      row.sentAt.isSome) (compiler : List SnapshotConsumer.Action) :
    let log := topicLog topic (OutboxWorker.run batch table actions).published
    let w := SnapshotConsumer.run decode log compiler
    w.phase = .polling → w.position = log.length →
      eventsOf decode T (log.drop w.resumed) ≠ [] →
      Rewritten decode log T w.resumed (log.length - 1) →
      ∃ snapshot, w.store T = some snapshot ∧ ∀ req : HttpRequest http,
        TenantState.Decided (eventsOf decode T (topicLog topic table.backlog)) (matchRequest req)
          none (call net (.ok snapshot) req).matched ∧
        ∀ s, (∃ branch, (call net (.ok snapshot) req).forwarded = some (branch, s)) ↔
          ∃ m, (call net (.ok snapshot) req).matched = some m ∧ SentTo net req m s := by
  intro log w hpolling hreceived hevents hrewritten
  obtain ⟨snapshot, hsnapshot, hshows⟩ :=
    stored_of_received hpolling hreceived hevents hrewritten
  refine ⟨snapshot, hsnapshot, fun req => ⟨?_, forwarded_iff net snapshot req⟩⟩
  rw [matched_eq]
  -- the topic and the rows lead to one state
  have hstate : folded decode T log = folded decode T (topicLog topic table.backlog) :=
    run_published hundisturbed hcolumn hmarked
  rw [hstate] at hshows
  exact TenantState.decided_of_shows hshows

/-- An upstream and a route are announced in one batch and the compiler writes twice; then they
    decide what becomes of a request under the route's prefix. -/
theorem forwarded_announced_route :
    let upstream : ConfigEvent := ⟨1, "t", 0, 0,
      some (.upstreamUpserted (some ⟨"u", "t", "one", "http://one", 5000, true⟩))⟩
    let route : ConfigEvent := ⟨2, "t", 0, 0,
      some (.routeUpserted (some ⟨"r", "t", "*", "/api", "", "u", [], true, 0, 0⟩))⟩
    let decode (bytes : List UInt8) : Except String ConfigEvent :=
      if bytes = [1] then .ok upstream
      else if bytes = [2] then .ok route
      else .error "failed to decode Protobuf message"
    let row (id : Int64) (payload : Bytes) : EventOutbox :=
      ⟨id, 7, "config.changes", payload, 0, none, none, none⟩
    let actions : List (OutboxWorker.Action Unit) :=
      [.call () (.begin (some 0)), .call () (.fetch true), .call () (.write true 0),
        .call () (.mark true), .call () (.write true 0), .call () (.mark true),
        .call () (.commit true)]
    let request : HttpRequest WasmPlugin.asciiHttp :=
      ⟨"GET", ⟨none, none, "/api/users", some "/api/users"⟩, .http11, ∅⟩
    ∃ (table : EventTable) (compiler : List SnapshotConsumer.Action) (snapshot : RouteSnapshot),
      table.rows = [row 1 [1], row 2 [2]] ∧
      (SnapshotConsumer.run decode (topicLog "config.changes"
        (OutboxWorker.run (fun _ => 500) table actions).published) compiler).store "t" =
          some snapshot ∧
      TenantState.Decided [upstream, route] (matchRequest request) none
        (call reachableNet (.ok snapshot) request).matched ∧
      ∀ s, (∃ branch, (call reachableNet (.ok snapshot) request).forwarded = some (branch, s)) ↔
        ∃ m, (call reachableNet (.ok snapshot) request).matched = some m ∧
          SentTo reachableNet request m s := by
  intro upstream route decode row actions request
  let table : EventTable := ⟨[row 1 [1], row 2 [2]], by decide⟩
  -- the two maps are listed in the order of their entries
  let routeOrder (m : HashMap RouteEntry) : HashMap.Values m :=
    ⟨(m.entries.map Sigma.snd).toList, Multiset.coe_toList _⟩
  let upstreamOrder (m : HashMap UpstreamEntry) : HashMap.Values m :=
    ⟨(m.entries.map Sigma.snd).toList, Multiset.coe_toList _⟩
  let handle : List SnapshotConsumer.Action :=
    [.recv 0 routeOrder upstreamOrder, .write, .commit true]
  -- no message arrives late in this run
  have hundisturbed : Undisturbed (fun _ => 500) table actions := by
    refine undisturbed_of_subsingleton fun pre m post hsplit _ => ?_
    have hmem : OutboxWorker.Action.arrive m ∈ actions := by rw [hsplit]; simp
    simp [actions] at hmem
  have hrows : ∀ r ∈ table.rows, r.tenantId = 7 := by decide
  -- both rows are published, in order
  have hpublished : topicLog "config.changes"
      (OutboxWorker.run (fun _ => 500) table actions).published = [⟨some [1]⟩, ⟨some [2]⟩] := by
    decide
  have hdecided := forwarded_eq_decided reachableNet hundisturbed decode "config.changes" "t" 7
    (fun r hr _ _ _ _ => hrows r hr) (by decide) (handle ++ handle)
  rw [hpublished] at hdecided
  have hnone : ∀ {V : Type} (id : String), id ∉ (∅ : HashMap V) := fun _ => Finmap.notMem_empty
  -- the process started with the first message, so nothing has to be written again
  obtain ⟨snapshot, hsnapshot, hforward⟩ := hdecided rfl rfl (List.cons_ne_nil upstream [route])
    ⟨fun id hid => absurd hid (hnone id), fun id hid => absurd hid (hnone id)⟩
  refine ⟨table, handle ++ handle, snapshot, rfl, ?_, hforward request⟩
  rw [hpublished]
  exact hsnapshot

end ProxyService

end Barqium.Native
