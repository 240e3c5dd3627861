import Barqium.Native.ListPages
import Barqium.ForStd.Run

/-!
# The list pages of the admin UI

A page shows a slice of the rows that its filters leave. The number of the page is a state of
its own: choosing a filter resets it, rows that are loaded do not. So a page can be left behind
the last row, and what helps then are the buttons below the table, if there are any.

## Key results

- `stands_pageEntries`: the buttons and the ellipses stand for all pages.
- `flatMap_slice`: the pages show each row once.
- `ListPage.mem_shown_iff`: when clicks bring a matching row on the screen.
- `ListPage.shows_iff`: when the table has a row whenever a row matches.
-/

namespace Barqium.Native.AdminUi

/-! ## Page counts -/

/-- A page up to the last one starts before the end of the rows. -/
theorem le_totalPages_iff {pageSize : Nat} (total : Nat) {page : Nat} (hsize : 0 < pageSize)
    (hpage : 1 ≤ page) : page ≤ totalPages pageSize total ↔ (page - 1) * pageSize < total := by
  obtain ⟨k, rfl⟩ : ∃ k, page = k + 1 := ⟨page - 1, by omega⟩
  rw [totalPages, Nat.le_div_iff_mul_le hsize, Nat.add_sub_cancel, Nat.succ_mul]
  omega

/-- The pages hold all rows. -/
private theorem le_totalPages_mul {pageSize : Nat} (total : Nat) (hsize : 0 < pageSize) :
    total ≤ totalPages pageSize total * pageSize := by
  by_contra hlt
  have hpast := (le_totalPages_iff total hsize (Nat.le_add_left 1 _)).mpr
    (show (totalPages pageSize total + 1 - 1) * pageSize < total by
      rw [Nat.add_sub_cancel]; omega)
  omega

/-- There is a page exactly if there is a row. -/
theorem totalPages_pos_iff {pageSize : Nat} (total : Nat) (hsize : 0 < pageSize) :
    1 ≤ totalPages pageSize total ↔ 0 < total := by
  rw [le_totalPages_iff total hsize le_rfl, Nat.sub_self, Nat.zero_mul]

/-! ## Slices -/

variable {α : Type}

/-- A page is empty exactly if it begins behind the rows. -/
theorem slice_eq_nil_iff (list : List α) {start stop : Nat} (h : start < stop) :
    slice list start stop = [] ↔ list.length ≤ start := by
  rw [slice, List.drop_eq_nil_iff, List.length_take]
  omega

/-- The rows up to a page and those of the page. -/
private theorem take_append_slice (list : List α) {start stop : Nat} (h : start ≤ stop) :
    list.take start ++ slice list start stop = list.take stop := by
  have hsplit := List.take_append_drop start (list.take stop)
  rwa [List.take_take, min_eq_left h] at hsplit

/-- The first pages together show the first rows, in their order and each of them once. -/
theorem flatMap_slice (list : List α) (pageSize pages : Nat) :
    (List.range pages).flatMap (fun k => slice list (k * pageSize) ((k + 1) * pageSize)) =
      list.take (pages * pageSize) := by
  induction pages with
  | zero => simp
  | succ pages ih =>
    rw [List.range_succ, List.flatMap_append, ih, List.flatMap_singleton]
    exact take_append_slice list (Nat.mul_le_mul_right _ (Nat.le_succ _))

/-- Every row is on one of the pages. -/
private theorem exists_page {pageSize : Nat} {list : List α} {a : α} (hsize : 0 < pageSize)
    (ha : a ∈ list) : ∃ page, 1 ≤ page ∧ page ≤ totalPages pageSize list.length ∧
      a ∈ slice list ((page - 1) * pageSize) (page * pageSize) := by
  have hall := flatMap_slice list pageSize (totalPages pageSize list.length)
  rw [List.take_of_length_le (le_totalPages_mul _ hsize)] at hall
  rw [← hall, List.mem_flatMap] at ha
  obtain ⟨k, hk, hmem⟩ := ha
  exact ⟨k + 1, by omega, List.mem_range.mp hk, hmem⟩

/-! ## The buttons -/

/-- Entries that stand for the pages from `a` up to `b`, without `b`: a number for itself and
    an ellipsis for at least one page, up to the number after it. -/
inductive Stands : List (Option Nat) → Nat → Nat → Prop where
  | nil (a : Nat) : Stands [] a a
  | number {entries : List (Option Nat)} {a b : Nat} (rest : Stands entries (a + 1) b) :
      Stands (some a :: entries) a b
  | ellipsis {entries : List (Option Nat)} {a b c : Nat} (skipped : a < c)
      (rest : Stands (some c :: entries) c b) : Stands (none :: some c :: entries) a b

/-- A page with a button of its own is one of those the entries stand for. -/
theorem Stands.bounds {entries : List (Option Nat)} {a b : Nat} (h : Stands entries a b) :
    a ≤ b ∧ ∀ n, some n ∈ entries → a ≤ n ∧ n < b := by
  induction h with
  | nil a => exact ⟨le_rfl, fun n hn => absurd hn List.not_mem_nil⟩
  | number _ ih =>
    refine ⟨by omega, fun n hn => ?_⟩
    rcases List.mem_cons.mp hn with heq | hn
    · cases heq
      omega
    · have := ih.2 n hn
      omega
  | ellipsis hskip _ ih =>
    refine ⟨by omega, fun n hn => ?_⟩
    -- an ellipsis is no number
    have := ih.2 n ((List.mem_cons.mp hn).resolve_left (by simp))
    omega

/-- The first number, and then the others. -/
private theorem pageNumbers_cons {first last : Nat} (h : first ≤ last) :
    pageNumbers first last = some first :: pageNumbers (first + 1) last := by
  rw [pageNumbers, show last + 1 - first = (last - first) + 1 by omega, List.range'_succ,
    List.map_cons, pageNumbers, show last + 1 - (first + 1) = last - first by omega]

private theorem pageNumbers_nil {first last : Nat} (h : last < first) :
    pageNumbers first last = [] := by
  rw [pageNumbers, show last + 1 - first = 0 by omega, List.range'_zero, List.map_nil]

/-- A row of numbers in front of entries that go on after it. -/
theorem Stands.pageNumbers {entries : List (Option Nat)} {first last b : Nat}
    (hle : first ≤ last + 1) (h : Stands entries (last + 1) b) :
    Stands (pageNumbers first last ++ entries) first b := by
  induction hn : last + 1 - first generalizing first with
  | zero =>
    obtain rfl : first = last + 1 := by omega
    rwa [pageNumbers_nil (Nat.lt_succ_self _), List.nil_append]
  | succ n ih =>
    rw [pageNumbers_cons (by omega), List.cons_append]
    exact .number (ih (by omega) (by omega))

/-- An ellipsis that is put in exactly where pages are left out. -/
theorem Stands.gap {entries : List (Option Nat)} {a b c : Nat} {p : Prop} [Decidable p]
    (hp : p ↔ a < c) (hle : a ≤ c) (h : Stands (some c :: entries) c b) :
    Stands ((if p then [none] else []) ++ some c :: entries) a b := by
  by_cases hskip : a < c
  · rw [if_pos (hp.mpr hskip)]
    exact .ellipsis hskip h
  · rw [if_neg fun hyes => hskip (hp.mp hyes)]
    obtain rfl : a = c := by omega
    exact h

/-- The entries of a pagination stand for all its pages, with an ellipsis exactly where pages
    are left out. This holds behind the last page too. -/
theorem stands_pageEntries {page pages : Nat} (hpage : 1 ≤ page) :
    Stands (pageEntries page pages) 1 (pages + 1) := by
  unfold pageEntries
  split
  · -- few pages: every number is shown
    have hall : Stands (pageNumbers 1 pages ++ []) 1 (pages + 1) :=
      .pageNumbers (by omega) (.nil _)
    rwa [List.append_nil] at hall
  · -- many pages: the first and the last always are
    have hlast : Stands [some pages] pages (pages + 1) := .number (.nil _)
    simp only [List.append_assoc, List.cons_append, List.nil_append]
    refine .number ?_
    by_cases hnear : max 2 (page - 1) ≤ min (pages - 1) (page + 1)
    · -- the numbers around the page, with a gap on each side
      have hright := Stands.gap (a := min (pages - 1) (page + 1) + 1) (p := page < pages - 2)
        (by omega) (by omega) hlast
      have hnumbers := Stands.pageNumbers (show max 2 (page - 1) ≤ _ by omega) hright
      rw [pageNumbers_cons hnear] at hnumbers ⊢
      exact .gap (by omega) (by omega) hnumbers
    · -- behind the last page no number is near
      rw [pageNumbers_nil (by omega), List.nil_append, if_neg (show ¬page < pages - 2 by omega),
        List.nil_append]
      exact .gap (by omega) (by omega) hlast

/-- The first page always has a button. -/
private theorem one_mem_pageEntries {page pages : Nat} (h : 1 ≤ pages) :
    some 1 ∈ pageEntries page pages := by
  unfold pageEntries
  split
  · rw [pageNumbers_cons h]
    exact List.mem_cons_self
  · simp

/-! ## Clicks -/

/-- From two pages on there is a pagination, with its buttons. -/
private theorem pagination_of_two_le (page : Nat) {pageSize total : Nat}
    (h : 2 ≤ totalPages pageSize total) :
    ∃ view, pagination page pageSize total = some view ∧
      view.pages = pageEntries page (totalPages pageSize total) ∧
      (view.previousDisabled = true ↔ page = 1) ∧
      (view.nextDisabled = true ↔ page = totalPages pageSize total) := by
  refine ⟨_, if_neg (by omega), rfl, ?_, ?_⟩ <;> simp

namespace ListPage

variable {F R : Type} (p : ListPage F R)

/-- The number of pages there are for the rows that match. -/
def pages (s : ListState F R) : Nat := totalPages p.pageSize (p.rows s).length

theorem pages_pos_iff (s : ListState F R) : 1 ≤ p.pages s ↔ p.rows s ≠ [] := by
  rw [pages, totalPages_pos_iff _ p.pageSize_pos, List.length_pos_iff]

/-- A page begins before it ends. -/
private theorem page_lt (s : ListState F R) (hpage : 1 ≤ s.page) :
    (s.page - 1) * p.pageSize < s.page * p.pageSize :=
  Nat.mul_lt_mul_of_pos_right (by omega) p.pageSize_pos

/-- The table has a row unless the page is behind the last one. -/
theorem paginated_ne_nil_iff (s : ListState F R) (hpage : 1 ≤ s.page) :
    p.paginated s ≠ [] ↔ s.page ≤ p.pages s := by
  rw [paginated, ne_eq, slice_eq_nil_iff _ (p.page_lt s hpage), pages,
    le_totalPages_iff _ p.pageSize_pos hpage]
  omega

/-- Without a pagination a click does nothing. -/
private theorem click_of_no_buttons {s : ListState F R} (h : p.pages s ≤ 1) (button : Button) :
    p.click s button = s := by
  have hnone : p.view s = none := if_pos h
  rw [click, hnone]
  rfl

/-- A click on a button goes to its page. -/
private theorem click_of_target {s : ListState F R} {button : Button} {view : Pagination}
    {page : Nat} (hview : p.view s = some view) (htarget : view.target s.page button = some page) :
    p.click s button = { s with page } := by
  rw [click, hview, Option.bind_some, htarget]

/-- A click goes to another page or does nothing. -/
private theorem click_eq (s : ListState F R) (button : Button) :
    ∃ page, p.click s button = { s with page } := by
  rw [click]
  split
  · exact ⟨_, rfl⟩
  · exact ⟨s.page, rfl⟩

/-- A click leaves the rows. -/
@[simp] theorem rows_click (s : ListState F R) (button : Button) :
    p.rows (p.click s button) = p.rows s := by
  obtain ⟨page, heq⟩ := p.click_eq s button
  rw [heq]
  rfl

@[simp] theorem pages_click (s : ListState F R) (button : Button) :
    p.pages (p.click s button) = p.pages s := by
  rw [pages, rows_click, pages]

/-- A click does not go below the first page, nor from one of the pages behind the last. -/
private theorem page_click {s : ListState F R} (hpage : 1 ≤ s.page) (button : Button) :
    1 ≤ (p.click s button).page ∧
      (s.page ≤ p.pages s → (p.click s button).page ≤ p.pages s) := by
  by_cases hpages : p.pages s ≤ 1
  · rw [p.click_of_no_buttons hpages]
    exact ⟨hpage, id⟩
  obtain ⟨view, hview, hentries, hprev, hnext⟩ :=
    pagination_of_two_le s.page (show 2 ≤ p.pages s by omega)
  -- a button without a target leaves the page
  cases htarget : view.target s.page button with
  | none =>
    rw [click, show p.view s = some view from hview, Option.bind_some, htarget]
    exact ⟨hpage, id⟩
  | some page =>
    rw [p.click_of_target hview htarget]
    change 1 ≤ page ∧ (s.page ≤ p.pages s → page ≤ p.pages s)
    -- the buttons only lead to pages that are there
    cases button with
    | previous =>
      rw [Pagination.target, Option.ite_none_left_eq_some, hprev, Option.some.injEq] at htarget
      omega
    | next =>
      rw [Pagination.target, Option.ite_none_left_eq_some, hnext, Option.some.injEq] at htarget
      change ¬s.page = p.pages s ∧ _ at htarget
      omega
    | number n =>
      rw [Pagination.target, Option.ite_none_right_eq_some, hentries, Option.some.injEq]
        at htarget
      have hbounds := (stands_pageEntries hpage).bounds.2 n htarget.1
      change 1 ≤ n ∧ n < p.pages s + 1 at hbounds
      omega

/-! ## Pages that clicks reach -/

/-- The first page has a button. -/
private theorem click_first {s : ListState F R} (hpages : 2 ≤ p.pages s) :
    p.click s (.number 1) = { s with page := 1 } := by
  obtain ⟨view, hview, hentries, -⟩ := pagination_of_two_le s.page hpages
  refine p.click_of_target hview (if_pos ?_)
  rw [hentries]
  exact one_mem_pageEntries (show 1 ≤ p.pages s by omega)

/-- The page after the one shown has a button. -/
private theorem click_next {s : ListState F R} (hpages : 2 ≤ p.pages s)
    (hpage : s.page ≠ p.pages s) :
    p.click s .next = { s with page := s.page + 1 } := by
  obtain ⟨view, hview, -, -, hnext⟩ := pagination_of_two_le s.page hpages
  exact p.click_of_target hview (if_neg fun hlast => hpage (hnext.mp hlast))

/-- Where there are buttons they reach every page: back to the first one, then forward. -/
private theorem exists_clicks {s : ListState F R} (hpages : 2 ≤ p.pages s) {page : Nat}
    (hpos : 1 ≤ page) (hle : page ≤ p.pages s) :
    ∃ buttons : List Button, buttons.foldl p.click s = { s with page } := by
  induction page, hpos using Nat.le_induction with
  | base => exact ⟨[.number 1], p.click_first hpages⟩
  | succ page _ ih =>
    obtain ⟨buttons, heq⟩ := ih (by omega)
    refine ⟨buttons ++ [.next], ?_⟩
    rw [List.foldl_concat, heq]
    exact p.click_next (s := { s with page }) hpages (by change page ≠ p.pages s; omega)

/-- Without a pagination no clicks do anything. -/
private theorem clicks_of_no_buttons {s : ListState F R} (h : p.pages s ≤ 1)
    (buttons : List Button) :
    buttons.foldl p.click s = s := by
  induction buttons with
  | nil => rfl
  | cons button buttons ih => rw [List.foldl_cons, p.click_of_no_buttons h, ih]

/-! ## Runs -/

/-- The page stays positive. -/
theorem page_step {s : ListState F R} (hpage : 1 ≤ s.page) (action : ListAction F R) :
    1 ≤ (p.step s action).page := by
  cases action with
  | setFilters filters => exact le_rfl
  | load data => exact hpage
  | click button => exact (p.page_click hpage button).1

/-- The page is positive at every point of a run. -/
theorem page_run (filters : F) (actions : List (ListAction F R)) :
    1 ≤ (p.run filters actions).page :=
  List.foldl_keeps (P := fun s : ListState F R => 1 ≤ s.page) actions _ le_rfl
    fun _ action _ _ hpage => p.page_step hpage action

/-- In every run of a page, clicks bring a row that matches the filters on the screen if and
    only if the page is not behind the last one or there is more than one page. On the second
    page of the only one the table stays empty: the buttons are gone too. -/
theorem mem_shown_iff (filters : F) (actions : List (ListAction F R)) (r : R)
    (hr : r ∈ p.rows (p.run filters actions)) :
    (∃ buttons : List Button, r ∈ p.paginated (buttons.foldl p.click (p.run filters actions))) ↔
      (p.run filters actions).page ≤ p.pages (p.run filters actions) ∨
        2 ≤ p.pages (p.run filters actions) := by
  have hpage := p.page_run filters actions
  generalize p.run filters actions = s at hr hpage ⊢
  constructor
  · rintro ⟨buttons, hmem⟩
    by_contra hnot
    -- without buttons the page stays where it is, and there it shows nothing
    rw [p.clicks_of_no_buttons (by omega)] at hmem
    have hle := (p.paginated_ne_nil_iff s hpage).mp (List.ne_nil_of_mem hmem)
    omega
  · intro hwhen
    obtain ⟨page, hpos, hle, hmem⟩ := exists_page p.pageSize_pos hr
    by_cases hpages : 2 ≤ p.pages s
    · obtain ⟨buttons, heq⟩ := p.exists_clicks hpages hpos hle
      refine ⟨buttons, ?_⟩
      rw [heq]
      exact hmem
    · -- the only page is the current one
      change page ≤ p.pages s at hle
      obtain rfl : page = s.page := by omega
      exact ⟨[], hmem⟩

/-- The second page of eleven tenants, ten of which are deleted. -/
theorem mem_shown_iff_deleted :
    let text : JsText := ⟨String.toLower, String.toUpper⟩
    let tenant : Tenant := ⟨"acme", "acme", true⟩
    let s := (tenantsPage text).run {}
      [.load (List.replicate 11 tenant), .click .next, .load [tenant]]
    ¬∃ buttons : List Button,
      tenant ∈ (tenantsPage text).paginated (buttons.foldl (tenantsPage text).click s) := by
  intro text tenant s
  have hall (data : List Tenant) : (tenantsPage text).filtered {} data = data := by
    simp [tenantsPage, bySearch, byStatus]
  -- eleven rows make two pages, and the second is opened
  have hnext : (tenantsPage text).click ⟨{}, 1, List.replicate 11 tenant⟩ .next =
      ⟨{}, 2, List.replicate 11 tenant⟩ := by
    have htwo : (tenantsPage text).pages ⟨{}, 1, List.replicate 11 tenant⟩ = 2 := by
      simp [pages, rows, totalPages, tenantsPage, bySearch, byStatus]
    exact click_next _ (by rw [htwo]) (by rw [htwo]; decide)
  -- then ten rows are gone, and page two is past the end
  have hs : s = ⟨{}, 2, [tenant]⟩ := by
    change { (tenantsPage text).click ⟨{}, 1, List.replicate 11 tenant⟩ .next with
      data := [tenant] } = _
    rw [hnext]
  have hpages : (tenantsPage text).pages s = 1 := by
    simp [hs, pages, rows, totalPages, tenantsPage, bySearch, byStatus]
  have h := mem_shown_iff (tenantsPage text) {}
    [.load (List.replicate 11 tenant), .click .next, .load [tenant]] tenant
    (show tenant ∈ (tenantsPage text).rows s by rw [hs, rows, hall]; simp)
  rw [h, show (tenantsPage text).run {} _ = s from rfl, hpages, hs]
  decide

/-- The table has a row whenever a row matches. -/
def Shows (s : ListState F R) : Prop := p.rows s ≠ [] → p.paginated s ≠ []

/-- The table shows a row unless the page is behind the last. -/
private theorem shows_iff_le {s : ListState F R} (hpage : 1 ≤ s.page) :
    p.Shows s ↔ (1 ≤ p.pages s → s.page ≤ p.pages s) := by
  rw [Shows, p.paginated_ne_nil_iff s hpage, p.pages_pos_iff]

/-- Only rows that are loaded can leave the page behind the last one: as many as there are on
    the pages before it, or less, but some. -/
def Leaves (s : ListState F R) : ListAction F R → Prop
  | .load data => p.filtered s.filters data ≠ [] ∧
      (p.filtered s.filters data).length ≤ (s.page - 1) * p.pageSize
  | _ => False

/-- A table that shows a row goes on to unless a load leaves the page behind the last. -/
theorem shows_step_iff {s : ListState F R} (hpage : 1 ≤ s.page) (hshows : p.Shows s)
    (action : ListAction F R) : p.Shows (p.step s action) ↔ ¬p.Leaves s action := by
  rw [p.shows_iff_le (p.page_step hpage action)]
  cases action with
  | setFilters filters => exact iff_of_true id not_false
  | load data =>
    change (1 ≤ p.pages { s with data } → s.page ≤ p.pages { s with data }) ↔ _
    -- a load leaves the page where it is, whatever number of pages it brings
    rw [p.pages_pos_iff, pages, le_totalPages_iff _ p.pageSize_pos hpage, Leaves, not_and,
      Nat.not_le]
    rfl
  | click button =>
    refine iff_of_true ?_ not_false
    change 1 ≤ p.pages (p.click s button) → (p.click s button).page ≤ p.pages (p.click s button)
    rw [p.pages_click]
    -- every button leads to a page that exists
    exact fun hpos => (p.page_click hpage button).2 ((p.shows_iff_le hpage).mp hshows hpos)

/-- In every run the table has a row whenever a row matches, up to every point of the run, if
    and only if no load leaves the page behind the last one. -/
theorem shows_iff (filters : F) (actions : List (ListAction F R)) :
    (∀ pre, pre <+: actions → p.Shows (p.run filters pre)) ↔
      ∀ pre action post, actions = pre ++ action :: post →
        ¬p.Leaves (p.run filters pre) action := by
  have hinitial : p.Shows (initial filters) := by
    rw [p.shows_iff_le le_rfl]
    exact id
  refine List.foldl_keeps_iff (P := fun s => p.Shows s) (G := fun s a => ¬p.Leaves s a)
    actions (initial filters) hinitial fun pre action _ _ hshows => ?_
  exact p.shows_step_iff (p.page_run filters pre) hshows action

end ListPage

end Barqium.Native.AdminUi
