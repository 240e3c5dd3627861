import Barqium.Native.AdminClient

/-!
# List pages of the admin UI

Model of `ui/admin/src/components/ui/pagination.tsx`, of the pages under `ui/admin/src/pages`
that use it, and of the export in `ui/admin/src/components/audit/log-export-button.tsx`. All of
the pages keep the rows of a query, some filters and the number of the current page; they filter
the rows, show a slice of the result and put the pagination below it. What the other components
of a page show is left out.
-/

namespace Barqium.Native.AdminUi

/-! ## Pagination -/

/-- `Math.ceil(total / pageSize)`. -/
def totalPages (pageSize total : Nat) : Nat := (total + pageSize - 1) / pageSize

/-- What `Pagination` renders. -/
structure Pagination where
  /-- The text before the buttons: `from`–`to` of `total` items. -/
  first : Nat
  last : Nat
  total : Nat
  /-- The buttons with a page number, with none for an ellipsis. -/
  pages : List (Option Nat)
  previousDisabled : Bool
  nextDisabled : Bool
  deriving Repr, DecidableEq

/-- `for (let i = first; i <= last; i++) pages.push(i)`. -/
def pageNumbers (first last : Nat) : List (Option Nat) :=
  (List.range' first (last + 1 - first)).map some

/-- The entries of `pages`. -/
def pageEntries (page totalPages : Nat) : List (Option Nat) :=
  if totalPages ≤ 7 then pageNumbers 1 totalPages
  else
    [some 1] ++ (if 3 < page then [none] else []) ++
      pageNumbers (max 2 (page - 1)) (min (totalPages - 1) (page + 1)) ++
      (if page < totalPages - 2 then [none] else []) ++ [some totalPages]

/-- Nothing is rendered for a single page. -/
def pagination (page pageSize total : Nat) : Option Pagination :=
  let pages := totalPages pageSize total
  if pages ≤ 1 then none
  else some
    { first := (page - 1) * pageSize + 1
      last := min (page * pageSize) total
      total
      pages := pageEntries page pages
      previousDisabled := page = 1
      nextDisabled := page = pages }

/-- The buttons of a pagination. -/
inductive Button where
  | previous
  | next
  | number (n : Nat)
  deriving Repr, DecidableEq

/-- The page `onPageChange` is called with, if the button is there and not disabled. -/
def Pagination.target (view : Pagination) (page : Nat) : Button → Option Nat
  | .previous => if view.previousDisabled then none else some (page - 1)
  | .next => if view.nextDisabled then none else some (page + 1)
  | .number n => if some n ∈ view.pages then some n else none

/-! ## A page with a list -/

/-- What the pages differ in. -/
structure ListPage (F R : Type) where
  pageSize : Nat
  pageSize_pos : 0 < pageSize
  /-- The rows that the filters leave. -/
  filtered : F → List R → List R

/-- The state of a page. -/
structure ListState (F R : Type) where
  filters : F
  page : Nat
  /-- The `data` of the query. -/
  data : List R

/-- What happens on a page. -/
inductive ListAction (F R : Type) where
  /-- A filter or the tenant is chosen. -/
  | setFilters (filters : F)
  /-- The query has other rows: loaded, refetched, or of another tenant. -/
  | load (data : List R)
  | click (button : Button)

/-- `list.slice(start, stop)` for indices that are not negative. -/
def slice {α : Type} (list : List α) (start stop : Nat) : List α := (list.take stop).drop start

namespace ListPage

variable {F R : Type} (p : ListPage F R)

def rows (s : ListState F R) : List R := p.filtered s.filters s.data

/-- `paginated`, the rows of the table. -/
def paginated (s : ListState F R) : List R :=
  slice (p.rows s) ((s.page - 1) * p.pageSize) (s.page * p.pageSize)

/-- The pagination below the table. -/
def view (s : ListState F R) : Option Pagination :=
  pagination s.page p.pageSize (p.rows s).length

def click (s : ListState F R) (button : Button) : ListState F R :=
  match (p.view s).bind fun view => view.target s.page button with
  | some page => { s with page }
  | none => s

def step (s : ListState F R) : ListAction F R → ListState F R
  | .setFilters filters => { s with filters, page := 1 }
  | .load data => { s with data }
  | .click button => p.click s button

/-- A page is opened on its first page, before its rows are loaded. -/
def initial (filters : F) : ListState F R := ⟨filters, 1, []⟩

def run (filters : F) (actions : List (ListAction F R)) : ListState F R :=
  actions.foldl p.step (initial filters)

end ListPage

/-! ## The pages -/

/-- The case mappings of JavaScript. -/
structure JsText where
  toLowerCase : String → String
  toUpperCase : String → String

/-- `text.includes(search)`. -/
def includes (text search : String) : Bool := search.toList <:+: text.toList

/-- `if (search) list = list.filter(found)`. -/
def bySearch {R : Type} (search : String) (found : R → Bool) (list : List R) : List R :=
  if search ≠ "" then list.filter found else list

inductive StatusFilter where
  | all
  | active
  | inactive
  deriving Repr, DecidableEq

def byStatus {R : Type} (status : StatusFilter) (enabled : R → Bool) (list : List R) : List R :=
  match status with
  | .all => list
  | .active => list.filter enabled
  | .inactive => list.filter fun r => !enabled r

/-- A select whose first option is `all`. -/
def byValue {R : Type} (choice : Option String) (value : R → String) (list : List R) : List R :=
  match choice with
  | none => list
  | some chosen => list.filter fun r => value r = chosen

structure SearchStatus where
  search : String := ""
  status : StatusFilter := .all

structure Tenant where
  name : String
  slug : String
  enabled : Bool

def tenantsPage (text : JsText) : ListPage SearchStatus Tenant where
  pageSize := 10
  pageSize_pos := by decide
  filtered f data :=
    let search := text.toLowerCase f.search
    byStatus f.status Tenant.enabled (bySearch f.search
      -- a slug is compared as it is
      (fun t => includes (text.toLowerCase t.name) search || includes t.slug search) data)

structure Upstream where
  name : String
  baseUrl : String
  enabled : Bool

def upstreamsPage (text : JsText) : ListPage SearchStatus Upstream where
  pageSize := 10
  pageSize_pos := by decide
  filtered f data :=
    let search := text.toLowerCase f.search
    byStatus f.status Upstream.enabled (bySearch f.search
      (fun u => includes (text.toLowerCase u.name) search ||
        includes (text.toLowerCase u.baseUrl) search) data)

structure Consumer where
  name : String
  enabled : Bool

def consumersPage (text : JsText) : ListPage SearchStatus Consumer where
  pageSize := 10
  pageSize_pos := by decide
  filtered f data :=
    byStatus f.status Consumer.enabled (bySearch f.search
      (fun c => includes (text.toLowerCase c.name) (text.toLowerCase f.search)) data)

structure Route where
  method : String
  pathPrefix : String
  host : Option String
  enabled : Bool

inductive MethodFilter where
  | all
  | any
  | method (name : String)
  deriving Repr, DecidableEq

structure RouteFilters where
  search : String := ""
  status : StatusFilter := .all
  method : MethodFilter := .all

/-- A route without a method is one of any method. -/
def byMethod (text : JsText) (choice : MethodFilter) (list : List Route) : List Route :=
  let method (r : Route) : Option String :=
    if r.method = "*" || r.method = "" then none else some (text.toUpperCase r.method)
  match choice with
  | .all => list
  -- `m` is the text `any`, which no upper-cased method is
  | .any => list.filter fun r => method r = none
  | .method name => list.filter fun r => method r = some (text.toUpperCase name)

def routesPage (text : JsText) : ListPage RouteFilters Route where
  pageSize := 10
  pageSize_pos := by decide
  filtered f data :=
    let search := text.toLowerCase f.search
    byMethod text f.method (byStatus f.status Route.enabled (bySearch f.search
      (fun r => includes (text.toLowerCase r.pathPrefix) search ||
        r.host.any fun host => includes (text.toLowerCase host) search) data))

structure RateLimitPolicy where
  name : String
  scope : String
  algorithm : String

structure RateLimitFilters where
  search : String := ""
  scope : Option String := none
  algorithm : Option String := none

def rateLimitsPage (text : JsText) : ListPage RateLimitFilters RateLimitPolicy where
  pageSize := 10
  pageSize_pos := by decide
  filtered f data :=
    byValue f.algorithm RateLimitPolicy.algorithm (byValue f.scope RateLimitPolicy.scope
      (bySearch f.search
        (fun p => includes (text.toLowerCase p.name) (text.toLowerCase f.search)) data))

structure WasmPlugin where
  name : String
  trigger : String

structure PluginFilters where
  search : String := ""
  trigger : Option String := none

def wasmPluginsPage (text : JsText) : ListPage PluginFilters WasmPlugin where
  pageSize := 10
  pageSize_pos := by decide
  filtered f data :=
    byValue f.trigger WasmPlugin.trigger (bySearch f.search
      (fun p => includes (text.toLowerCase p.name) (text.toLowerCase f.search)) data)

structure AuditLogEntry where
  id : String
  eventType : String
  resourceType : String
  resourceId : Option String
  actor : String
  actorType : String
  createdAt : String

/-- The other filters of the audit log are parameters of its query. -/
def auditLogPage (text : JsText) : ListPage String AuditLogEntry where
  pageSize := 20
  pageSize_pos := by decide
  filtered searched data :=
    let search := text.toLowerCase searched
    bySearch searched
      (fun e => includes (text.toLowerCase e.resourceType) search ||
        (e.resourceId.any fun id => includes (text.toLowerCase id) search) ||
        includes (text.toLowerCase e.eventType) search ||
        includes (text.toLowerCase e.actor) search) data

/-! ## Export of the audit log -/

/-- `headers`, each with the value it names. -/
def exportColumns : List (String × (AuditLogEntry → Option String)) :=
  [("id", fun e => e.id), ("event_type", fun e => e.eventType),
    ("resource_type", fun e => e.resourceType), ("resource_id", AuditLogEntry.resourceId),
    ("actor", fun e => e.actor), ("actor_type", fun e => e.actorType),
    ("created_at", fun e => e.createdAt)]

/-- The values of an entry, with an empty text for an absent one. -/
def AuditLogEntry.values (e : AuditLogEntry) : List String :=
  exportColumns.map fun column => (column.2 e).getD ""

def needsQuotes (str : String) : Bool :=
  includes str "," || includes str "\"" || includes str "\n"

/-- `str.replace(/"/g, '""')`. -/
def doubleQuotes (str : String) : String :=
  String.ofList (str.toList.flatMap fun c => if c = '"' then ['"', '"'] else [c])

def csvCell (str : String) : String :=
  if needsQuotes str then "\"" ++ doubleQuotes str ++ "\"" else str

def toCsv (entries : List AuditLogEntry) : String :=
  let headers := exportColumns.map Prod.fst
  let rows := entries.map fun e => ",".intercalate (e.values.map csvCell)
  "\n".intercalate (",".intercalate headers :: rows)

end Barqium.Native.AdminUi
