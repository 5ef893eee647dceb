import CatalogBrowser.Page
import Mathlib.Data.List.Induction
import Mathlib.Data.List.Nodup

/-!
Runs of a page: views are mounted, tickets are released in any order, and entities are selected.

The latest mount and the release of its ticket say whose breadcrumbs a page has; the selections
since then add one crumb to them.
-/

namespace CatalogBrowser

inductive PageEvent where
  | mount (title : String) (breadcrumbs : List Breadcrumb)
  /-- The ticket of a mount is released.  Mounts are numbered in their order, from 0. -/
  | release (number : Nat)
  | select (entity : Subject)
  deriving DecidableEq

namespace PageEvent

def isMount : PageEvent → Bool
  | .mount .. => true
  | .release _ | .select _ => false

def released? : PageEvent → Option Nat
  | .release number => some number
  | .mount .. | .select _ => none

def entity? : PageEvent → Option Subject
  | .select entity => some entity
  | .mount .. | .release _ => none

def mounts (events : List PageEvent) : Nat := events.countP isMount

def lastSelected (events : List PageEvent) : Option Subject := (events.filterMap entity?).getLast?

theorem mounts_append (first second : List PageEvent) :
    mounts (first ++ second) = mounts first + mounts second := List.countP_append

theorem mounts_cons (event : PageEvent) (events : List PageEvent) :
    mounts (event :: events) = mounts events + mounts [event] := by
  rw [← List.singleton_append, mounts_append, Nat.add_comm]

theorem lastSelected_cons (event : PageEvent) (events : List PageEvent) :
    lastSelected (event :: events) = (lastSelected events).or event.entity? := by
  unfold lastSelected
  cases chosen : event.entity? with
  | none => rw [List.filterMap_cons_none chosen, Option.or_none]
  | some entity =>
      rw [List.filterMap_cons_some chosen, List.getLast?_cons, Option.or_some]

theorem exists_latest_mount {events : List PageEvent} (mounted : mounts events ≠ 0) :
    ∃ before title breadcrumbs later,
      events = before ++ .mount title breadcrumbs :: later ∧ mounts later = 0 := by
  induction events using List.reverseRecOn with
  | nil => exact absurd rfl mounted
  | append_singleton events event ih =>
      cases event with
      | mount title breadcrumbs => exact ⟨events, title, breadcrumbs, [], rfl, rfl⟩
      | release _ | select _ =>
          rw [mounts_append] at mounted
          obtain ⟨before, title, breadcrumbs, later, rfl, quiet⟩ := ih mounted
          refine ⟨before, title, breadcrumbs, later ++ [_], List.append_assoc .., ?_⟩
          rw [mounts_append, quiet]
          rfl

theorem release_notMem_of_once {earlier later : List PageEvent} {number : Nat}
    (once : ((earlier ++ .release number :: later).filterMap released?).Nodup) :
    .release number ∉ later := by
  intro again
  have own : released? (.release number) = some number := rfl
  have twice : number ∈ later.filterMap released? := List.mem_filterMap.mpr ⟨_, again, own⟩
  rw [List.filterMap_append, List.filterMap_cons_some own] at once
  exact (List.nodup_cons.mp once.of_append_right).1 twice

end PageEvent

def PageState.showing (title : Option String) (breadcrumbs : List Breadcrumb)
    (selected : Option Subject) : PageState where
  title
  breadcrumbs := breadcrumbs ++ selected.toList.map fun entity => { label := entity.label }
  selected

namespace Page

theorem trail_showing (title : Option String) (breadcrumbs : List Breadcrumb)
    (selected : Option Subject) : trail (.showing title breadcrumbs selected) = breadcrumbs := by
  cases selected with
  | none => simp [trail, PageState.showing]
  | some entity => simp [trail, PageState.showing]

theorem select_showing {page : Page} {title : Option String} {breadcrumbs : List Breadcrumb}
    {selected : Option Subject} (shows : page.state = .showing title breadcrumbs selected)
    (entity : Subject) : (page.select entity).state = .showing title breadcrumbs (some entity) := by
  rw [select, shows, trail_showing]
  rfl

end Page

structure PageRun where
  page : Page := {}
  tickets : List PageTicket := []

namespace PageRun

def step (run : PageRun) : PageEvent → PageRun
  | .mount title breadcrumbs =>
    let (ticket, page) := run.page.mount title breadcrumbs
    { page, tickets := run.tickets ++ [ticket] }
  | .release number =>
    match run.tickets[number]? with
    | some ticket => { run with page := run.page.release ticket }
    | none => run
  | .select entity => { run with page := run.page.select entity }

def after (run : PageRun) (events : List PageEvent) : PageRun := events.foldl step run

def of (events : List PageEvent) : PageRun := after {} events

theorem of_split (before : List PageEvent) (event : PageEvent) (later : List PageEvent) :
    of (before ++ event :: later) = ((of before).step event).after later := List.foldl_append ..

/-- The generation and the tickets of a page count its mounts. -/
structure Counts (run : PageRun) (count : Nat) : Prop where
  generation : run.page.generation = UInt64.ofNat count
  tickets : run.tickets = (List.range count).map fun number => ⟨UInt64.ofNat (number + 1)⟩

section

variable {run : PageRun} {count : Nat}

theorem Counts.ticket? (counts : Counts run count) (number : Nat) : run.tickets[number]? =
    if number < count then some ⟨UInt64.ofNat (number + 1)⟩ else none := by
  rw [counts.tickets, List.getElem?_map]
  split
  · next given => rw [List.getElem?_range given, Option.map_some]
  · next missing => rw [List.getElem?_eq_none (by simpa using missing), Option.map_none]

theorem Counts.step (counts : Counts run count) (event : PageEvent) :
    Counts (run.step event) (count + PageEvent.mounts [event]) := by
  cases event with
  | mount title breadcrumbs =>
      have next : run.page.generation + 1 = UInt64.ofNat (count + 1) := by
        rw [counts.generation, UInt64.ofNat_add]
        rfl
      refine ⟨next, ?_⟩
      change run.tickets ++ [⟨run.page.generation + 1⟩] = _
      rw [counts.tickets, next, PageEvent.mounts, List.countP_singleton]
      simp [PageEvent.isMount, List.range_succ]
  | release number =>
      simp only [PageRun.step]
      split
      · refine ⟨?_, counts.tickets⟩
        rw [Page.release]
        split
        · exact counts.generation
        · exact counts.generation
      · exact counts
  | select entity => exact ⟨counts.generation, counts.tickets⟩

theorem Counts.after (counts : Counts run count) (events : List PageEvent) :
    Counts (run.after events) (count + PageEvent.mounts events) := by
  induction events generalizing run count with
  | nil => exact counts
  | cons event rest ih =>
      rw [PageEvent.mounts_cons, Nat.add_comm (PageEvent.mounts rest), ← Nat.add_assoc]
      exact ih (counts.step event)

theorem counts_of (events : List PageEvent) : Counts (of events) (PageEvent.mounts events) := by
  have fresh : Counts {} 0 := ⟨rfl, rfl⟩
  simpa [of] using fresh.after events

theorem Counts.release_latest {number : Nat} (counts : Counts run (number + 1)) :
    (run.step (.release number)).page.state = .showing none [] none := by
  simp only [PageRun.step, counts.ticket?, Nat.lt_succ_self, if_true, Page.release,
    counts.generation]
  rfl

/-- Releasing another ticket does nothing, as long as generations do not come round. -/
theorem Counts.release_older (counts : Counts run count) (few : count < UInt64.size) {number : Nat}
    (older : number + 1 ≠ count) : run.step (.release number) = run := by
  simp only [PageRun.step, counts.ticket?]
  by_cases given : number < count
  · let ticket : PageTicket := ⟨UInt64.ofNat (number + 1)⟩
    have stale : run.page.generation ≠ ticket.generation := by
      intro same
      rw [counts.generation] at same
      have values := congrArg UInt64.toNat same
      rw [UInt64.toNat_ofNat_of_lt' few, UInt64.toNat_ofNat_of_lt' (by omega)] at values
      exact older values.symm
    have kept : run.page.release ticket = run.page := Page.release_of_ne stale
    simp only [given, if_true]
    rw [kept]
  · simp only [given, if_false]

theorem Counts.after_showing (counts : Counts run count) (few : count < UInt64.size)
    {title : Option String} {breadcrumbs : List Breadcrumb} {selected : Option Subject}
    (shows : run.page.state = .showing title breadcrumbs selected) {events : List PageEvent}
    (quiet : PageEvent.mounts events = 0)
    (held : ∀ number, .release number ∈ events → number + 1 ≠ count) :
    (run.after events).page.state =
      .showing title breadcrumbs ((PageEvent.lastSelected events).or selected) := by
  induction events generalizing run selected with
  | nil => exact shows
  | cons event rest ih =>
      rw [PageEvent.mounts_cons, Nat.add_eq_zero_iff] at quiet
      have heldLater : ∀ number, .release number ∈ rest → number + 1 ≠ count :=
        fun number member => held number (List.mem_cons_of_mem _ member)
      have next := counts.step event
      rw [quiet.2, Nat.add_zero] at next
      rw [PageEvent.lastSelected_cons, Option.or_assoc]
      cases event with
      | mount title breadcrumbs => exact absurd quiet.2 Nat.one_ne_zero
      | release number =>
          have nothing := counts.release_older few (held number List.mem_cons_self)
          change ((run.step (.release number)).after rest).page.state = _
          rw [nothing]
          exact ih counts shows quiet.1 heldLater
      | select entity => exact ih next (Page.select_showing shows entity) quiet.1 heldLater

end

theorem showing_of_unmounted {events : List PageEvent} (quiet : PageEvent.mounts events = 0) :
    (of events).page.state = .showing none [] (PageEvent.lastSelected events) := by
  have counts : Counts {} 0 := ⟨rfl, rfl⟩
  have cleared : ({} : PageRun).page.state = .showing none [] none := rfl
  have shows := counts.after_showing (by decide) cleared quiet
    fun number _ => Nat.succ_ne_zero number
  rwa [Option.or_none] at shows

theorem mounts_split (before : List PageEvent) (title : String) (breadcrumbs : List Breadcrumb)
    {later : List PageEvent} (quiet : PageEvent.mounts later = 0) :
    PageEvent.mounts (before ++ .mount title breadcrumbs :: later) =
      PageEvent.mounts before + 1 := by
  rw [PageEvent.mounts_append, PageEvent.mounts_cons, quiet]
  rfl

section

variable {before : List PageEvent} {title : String} {breadcrumbs : List Breadcrumb}

theorem showing_of_held {later : List PageEvent} (few : PageEvent.mounts before + 1 < UInt64.size)
    (quiet : PageEvent.mounts later = 0) (held : .release (PageEvent.mounts before) ∉ later) :
    (of (before ++ .mount title breadcrumbs :: later)).page.state =
      .showing (some title) breadcrumbs (PageEvent.lastSelected later) := by
  have counts := (counts_of before).step (.mount title breadcrumbs)
  have mounted : ((of before).step (.mount title breadcrumbs)).page.state =
      .showing (some title) breadcrumbs none := by
    simp [step, Page.mount, PageState.showing]
  have shows := counts.after_showing few mounted quiet fun number member latest =>
    held (Nat.succ.inj latest ▸ member)
  rwa [Option.or_none, ← of_split] at shows

theorem showing_of_released {held rest : List PageEvent}
    (few : PageEvent.mounts before + 1 < UInt64.size)
    (quiet : PageEvent.mounts (held ++ .release (PageEvent.mounts before) :: rest) = 0)
    (once : .release (PageEvent.mounts before) ∉ rest) :
    (of (before ++ .mount title breadcrumbs ::
        (held ++ .release (PageEvent.mounts before) :: rest))).page.state =
      .showing none [] (PageEvent.lastSelected rest) := by
  rw [PageEvent.mounts_append, PageEvent.mounts_cons, Nat.add_eq_zero_iff, Nat.add_eq_zero_iff]
    at quiet
  obtain ⟨quietBefore, quietAfter, _⟩ := quiet
  have counts := counts_of (before ++ .mount title breadcrumbs :: held)
  rw [mounts_split _ _ _ quietBefore] at counts
  have released := counts.step (.release (PageEvent.mounts before))
  have shows := released.after_showing few counts.release_latest quietAfter
    fun number member latest => once (Nat.succ.inj latest ▸ member)
  rw [Option.or_none, ← of_split, List.append_assoc, List.cons_append] at shows
  exact shows

end

section

variable {events : List PageEvent}

theorem showing_of_latest_mount (few : PageEvent.mounts events < UInt64.size)
    (once : (events.filterMap PageEvent.released?).Nodup) {before : List PageEvent} {title : String}
    {breadcrumbs : List Breadcrumb} {later : List PageEvent}
    (split : events = before ++ .mount title breadcrumbs :: later)
    (quiet : PageEvent.mounts later = 0) :
    (.release (PageEvent.mounts before) ∉ later → (of events).page.state =
      .showing (some title) breadcrumbs (PageEvent.lastSelected later)) ∧
    ∀ held rest, later = held ++ .release (PageEvent.mounts before) :: rest →
      (of events).page.state = .showing none [] (PageEvent.lastSelected rest) := by
  subst split
  rw [mounts_split _ _ _ quiet] at few
  refine ⟨showing_of_held few quiet, ?_⟩
  rintro held rest rfl
  rw [← List.cons_append, ← List.append_assoc] at once
  exact showing_of_released few quiet (PageEvent.release_notMem_of_once once)

theorem titled_iff (few : PageEvent.mounts events < UInt64.size)
    (once : (events.filterMap PageEvent.released?).Nodup) (title : String) :
    (of events).page.state.title = some title ↔ ∃ before breadcrumbs later,
      events = before ++ .mount title breadcrumbs :: later ∧ PageEvent.mounts later = 0 ∧
        .release (PageEvent.mounts before) ∉ later := by
  constructor
  · intro titled
    by_cases quiet : PageEvent.mounts events = 0
    · rw [showing_of_unmounted quiet] at titled
      cases titled
    · obtain ⟨before, own, breadcrumbs, later, split, quiet⟩ := PageEvent.exists_latest_mount quiet
      obtain ⟨held, released⟩ := showing_of_latest_mount few once split quiet
      by_cases gone : .release (PageEvent.mounts before) ∈ later
      · obtain ⟨first, rest, parts⟩ := List.append_of_mem gone
        rw [released first rest parts] at titled
        cases titled
      · rw [held gone] at titled
        cases titled
        exact ⟨before, breadcrumbs, later, split, quiet, gone⟩
  · rintro ⟨before, breadcrumbs, later, split, quiet, held⟩
    rw [(showing_of_latest_mount few once split quiet).1 held]
    rfl

end

/-- A page shows the title and breadcrumbs of its latest mount until the ticket of that mount is
released. -/
theorem page_shows_latest_mount {events : List PageEvent}
    (few : PageEvent.mounts events < UInt64.size)
    (once : (events.filterMap PageEvent.released?).Nodup) :
    let state := (of events).page.state
    (∀ title, state.title = some title ↔ ∃ before breadcrumbs later,
      events = before ++ .mount title breadcrumbs :: later ∧ PageEvent.mounts later = 0 ∧
        .release (PageEvent.mounts before) ∉ later) ∧
    (∀ before title breadcrumbs later, events = before ++ .mount title breadcrumbs :: later →
      PageEvent.mounts later = 0 →
        (.release (PageEvent.mounts before) ∉ later →
          state = .showing (some title) breadcrumbs (PageEvent.lastSelected later)) ∧
        ∀ held rest, later = held ++ .release (PageEvent.mounts before) :: rest →
          state = .showing none [] (PageEvent.lastSelected rest)) ∧
    (PageEvent.mounts events = 0 → state = .showing none [] (PageEvent.lastSelected events)) ∧
    ∀ number, number + 1 < PageEvent.mounts events →
      (of events).step (.release number) = of events := by
  intro state
  refine ⟨titled_iff few once, ?_, showing_of_unmounted, ?_⟩
  · intro before title breadcrumbs later split quiet
    exact showing_of_latest_mount few once split quiet
  · intro number older
    exact (counts_of events).release_older few (Nat.ne_of_lt older)

theorem page_shows_latest_mount_after_late_release :
    let home : Breadcrumb := { label := "Home", path := some "/" }
    let table : Subject := { kind := "table", id := "t", label := "Home" }
    let order : Subject := { kind := "concept", id := "order", label := "Order" }
    let events : List PageEvent := [.mount "Catalog" [], .select table,
      .mount "Semantic Models" [home], .select table, .release 0, .select order]
    let closing : List PageEvent := [.release 1, .select table]
    PageEvent.mounts events < UInt64.size ∧ (events.filterMap PageEvent.released?).Nodup ∧
      (of events).page.state =
        .showing (some "Semantic Models") [home] (some order) ∧
      (of (events ++ closing)).page.state = .showing none [] (some table) := by
  intro home table order events closing
  have few : PageEvent.mounts events < UInt64.size := by decide
  have once : (events.filterMap PageEvent.released?).Nodup := by decide
  have fewLater : PageEvent.mounts (events ++ closing) < UInt64.size := by decide
  have onceLater : ((events ++ closing).filterMap PageEvent.released?).Nodup := by decide
  obtain ⟨_, latest, _⟩ := page_shows_latest_mount few once
  obtain ⟨_, closed, _⟩ := page_shows_latest_mount fewLater onceLater
  have held := (latest [.mount "Catalog" [], .select table] _ _ _ rfl rfl).1 (by decide)
  have released := (closed [.mount "Catalog" [], .select table] _ _ _ rfl rfl).2
    [.select table, .release 0, .select order] [.select table] rfl
  exact ⟨few, once, held, released⟩

end PageRun

end CatalogBrowser
