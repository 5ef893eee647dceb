import CatalogBrowser.Distinct
import CatalogBrowser.Proofs.Catalog.Transition
import Mathlib.Data.List.Induction
import Mathlib.Data.List.Nodup

/-!
The marks of a lazy tree follow its fetches: a node is marked as loading exactly while one fetch
for it is under way that began after the roots were last replaced.
-/

namespace CatalogBrowser

theorem generation_ofNat_eq_iff {now before : Nat} (older : before ≤ now)
    (bound : now < before + UInt64.size) :
    UInt64.ofNat now = UInt64.ofNat before ↔ before = now := by
  constructor
  · intro same
    have values := congrArg UInt64.toNat same
    simp only [UInt64.toNat_ofNat', UInt64.size] at values bound
    omega
  · intro same
    rw [same]

def CatalogSession.marks (session : CatalogSession) : List (Nat × FetchMark) :=
  session.waiting.filterMap fun
    | (_, .roots) => none
    | (number, .children mark _) => some (number, mark)

theorem CatalogSession.marks_forget (session : CatalogSession) (number : Nat) :
    (session.forget number).marks = session.marks.filter fun entry => entry.1 ≠ number := by
  unfold marks forget
  rw [List.filterMap_filter, List.filter_filterMap]
  refine List.filterMap_congr fun entry _ => ?_
  rcases entry with ⟨other, _ | ⟨mark, toggling⟩⟩
  · simp
  · by_cases same : other = number <;> simp [same, Option.filter]

def OpenFetch.mark (fetch : OpenFetch) : FetchMark := ⟨fetch.id, UInt64.ofNat fetch.epoch⟩

namespace CatalogRun

/-- The notes of a run agree with its session. -/
structure Tracks (run : CatalogRun) : Prop where
  generation : run.session.tree.generation = UInt64.ofNat run.replacements
  numbered : (run.session.waiting.map Prod.fst).Nodup
  called : ∀ entry ∈ run.session.waiting, entry.1 ∈ run.calls.map Prod.fst
  marks : run.session.marks = run.fetches.map fun fetch => (fetch.number, fetch.mark)
  epochs : ∀ fetch ∈ run.fetches, fetch.epoch ≤ run.replacements
  loading : run.session.tree.loading = run.currentIds
  single : run.currentIds.Nodup
  apart : ∀ id ∈ run.session.tree.loading, id ∉ run.session.tree.expanded

/-- No fetch has been open while the roots were replaced so often that its mark fits again. -/
def Recent (run : CatalogRun) : Prop :=
  ∀ fetch ∈ run.fetches, run.replacements < fetch.epoch + UInt64.size

theorem recent_of_few {run : CatalogRun} (few : run.replacements < UInt64.size) : run.Recent :=
  fun _ _ => Nat.lt_add_left _ few

theorem tracks_opened (name : String) : Tracks (opened name) where
  generation := rfl
  numbered := List.nodup_nil
  called := by simp [opened]
  marks := rfl
  epochs := by simp [opened]
  loading := rfl
  single := List.nodup_nil
  apart := by simp [opened]

section

variable {run : CatalogRun}

theorem Tracks.fetch_of_lookup (tracks : Tracks run) {number : Nat} {mark : FetchMark}
    {toggling : Bool} (found : run.session.waiting.lookup number = some (.children mark toggling)) :
    ∃ fetch ∈ run.fetches, fetch.number = number ∧ fetch.mark = mark := by
  have waits := mem_of_lookup found
  have marked : (number, mark) ∈ run.session.marks :=
    List.mem_filterMap.mpr ⟨_, waits, rfl⟩
  rw [tracks.marks] at marked
  obtain ⟨fetch, member, same⟩ := List.mem_map.mp marked
  exact ⟨fetch, member, congrArg Prod.fst same, congrArg Prod.snd same⟩

theorem Tracks.lookup_of_fetch (tracks : Tracks run) {fetch : OpenFetch}
    (member : fetch ∈ run.fetches) :
    ∃ toggling, run.session.waiting.lookup fetch.number =
      some (.children fetch.mark toggling) := by
  have marked : (fetch.number, fetch.mark) ∈ run.session.marks := by
    rw [tracks.marks]
    exact List.mem_map.mpr ⟨fetch, member, rfl⟩
  obtain ⟨⟨number, waiting⟩, waits, same⟩ := List.mem_filterMap.mp marked
  cases waiting with
  | roots => simp at same
  | children mark toggling =>
      simp only [Option.some.injEq, Prod.mk.injEq] at same
      obtain ⟨rfl, rfl⟩ := same
      exact ⟨toggling, lookup_of_mem_nodup tracks.numbered waits⟩

theorem Tracks.number_ne (tracks : Tracks run) {number : Nat}
    (other : ∀ mark toggling,
      run.session.waiting.lookup number ≠ some (.children mark toggling)) :
    ∀ fetch ∈ run.fetches, fetch.number ≠ number := by
  intro fetch member same
  obtain ⟨toggling, waits⟩ := tracks.lookup_of_fetch member
  exact other _ _ (same ▸ waits)

theorem Tracks.numbers_nodup (tracks : Tracks run) : (run.fetches.map OpenFetch.number).Nodup := by
  have inside : (run.session.marks.map Prod.fst).Sublist (run.session.waiting.map Prod.fst) := by
    unfold CatalogSession.marks
    induction run.session.waiting with
    | nil => simp
    | cons entry rest ih =>
        rcases entry with ⟨number, _ | ⟨mark, toggling⟩⟩
        · exact ih.cons _
        · exact ih.cons_cons _
  have nodup := tracks.numbered.sublist inside
  rw [tracks.marks, List.map_map] at nodup
  exact nodup

theorem Tracks.fetch_ext (tracks : Tracks run) {first second : OpenFetch}
    (firstMember : first ∈ run.fetches) (secondMember : second ∈ run.fetches)
    (same : first.number = second.number) : first = second :=
  List.inj_on_of_nodup_map tracks.numbers_nodup firstMember secondMember same

theorem Tracks.current_iff (tracks : Tracks run) (recent : run.Recent)
    {fetch : OpenFetch} (member : fetch ∈ run.fetches) :
    run.session.tree.generation = fetch.mark.generation ↔
      fetch.epoch = run.replacements := by
  rw [tracks.generation, OpenFetch.mark,
    generation_ofNat_eq_iff (tracks.epochs fetch member) (recent fetch member)]

theorem mem_currentIds {id : String} :
    id ∈ run.currentIds ↔
      ∃ fetch ∈ run.fetches, fetch.epoch = run.replacements ∧ fetch.id = id := by
  simp [currentIds, and_assoc]

theorem Tracks.mem_loading (tracks : Tracks run) {id : String} :
    id ∈ run.session.tree.loading ↔
      ∃ fetch ∈ run.fetches, fetch.epoch = run.replacements ∧ fetch.id = id := by
  rw [tracks.loading, mem_currentIds]

theorem Tracks.current_ext (tracks : Tracks run) {first second : OpenFetch}
    (firstMember : first ∈ run.fetches) (secondMember : second ∈ run.fetches)
    (firstCurrent : first.epoch = run.replacements)
    (secondCurrent : second.epoch = run.replacements) (same : first.id = second.id) :
    first = second := by
  refine List.inj_on_of_nodup_map tracks.single ?_ ?_ same
  · exact List.mem_filter.mpr ⟨firstMember, by simpa using firstCurrent⟩
  · exact List.mem_filter.mpr ⟨secondMember, by simpa using secondCurrent⟩

theorem Tracks.currentIds_close (tracks : Tracks run) {fetch : OpenFetch}
    (member : fetch ∈ run.fetches) (session : CatalogSession) :
    (run.close fetch.number session).currentIds =
      if fetch.epoch = run.replacements then run.currentIds.filter fun id => id ≠ fetch.id
      else run.currentIds := by
  unfold currentIds close
  rw [List.filter_filter]
  split
  · next current =>
    rw [List.filter_map, List.filter_filter]
    refine congrArg (List.map OpenFetch.id) (List.filter_congr fun other otherMember => ?_)
    by_cases otherCurrent : other.epoch = run.replacements
    · have agree : other.number = fetch.number ↔ other.id = fetch.id := by
        constructor
        · intro same
          rw [tracks.fetch_ext otherMember member same]
        · intro same
          rw [tracks.current_ext otherMember member otherCurrent current same]
      simp [otherCurrent, agree]
    · simp [otherCurrent]
  · next stale =>
    refine congrArg (List.map OpenFetch.id) (List.filter_congr fun other otherMember => ?_)
    by_cases same : other.number = fetch.number
    · rw [tracks.fetch_ext otherMember member same]
      simp [stale]
    · simp [same]

theorem Tracks.close (tracks : Tracks run) {number : Nat} {session : CatalogSession}
    (waiting : session.waiting = (run.session.forget number).waiting)
    (generation : session.tree.generation = run.session.tree.generation)
    (loading : session.tree.loading = (run.close number session).currentIds)
    (apart : ∀ id ∈ session.tree.loading, id ∉ session.tree.expanded) :
    Tracks (run.close number session) where
  generation := generation.trans tracks.generation
  numbered := by
    have kept : session.waiting.Sublist run.session.waiting := by
      rw [waiting]
      exact List.filter_sublist
    exact tracks.numbered.sublist (kept.map Prod.fst)
  called := by
    intro entry member
    refine tracks.called entry ?_
    change entry ∈ session.waiting at member
    rw [waiting] at member
    exact List.mem_of_mem_filter member
  marks := by
    have same : session.marks = (run.session.forget number).marks := by
      simp only [CatalogSession.marks, waiting]
    change session.marks = _
    rw [same, CatalogSession.marks_forget, tracks.marks, List.filter_map]
    rfl
  epochs := fun fetch member => tracks.epochs fetch (List.mem_of_mem_filter member)
  loading := loading
  single := tracks.single.sublist ((List.filter_sublist.filter _).map _)
  apart := apart

theorem Tracks.close_of_ne (tracks : Tracks run) {number : Nat} {session : CatalogSession}
    (other : ∀ fetch ∈ run.fetches, fetch.number ≠ number)
    (waiting : session.waiting = (run.session.forget number).waiting)
    (tree : session.tree = run.session.tree) : Tracks (run.close number session) := by
  refine tracks.close waiting (by rw [tree]) ?_ (by rw [tree]; exact tracks.apart)
  have kept : run.fetches.filter (fun fetch => fetch.number ≠ number) = run.fetches := by
    rw [List.filter_eq_self]
    intro fetch member
    simpa using other fetch member
  rw [tree, tracks.loading]
  simp only [currentIds, CatalogRun.close, kept]

theorem Tracks.drop (tracks : Tracks run) {number : Nat}
    (found : run.session.waiting.lookup number = some .roots) :
    Tracks (run.close number (run.session.forget number)) :=
  tracks.close_of_ne (tracks.number_ne (by simp [found])) rfl rfl

theorem Tracks.clearMark_eq (tracks : Tracks run) (recent : run.Recent)
    {fetch : OpenFetch} (member : fetch ∈ run.fetches) :
    run.session.tree.clearMark fetch.mark = { run.session.tree with
      loading := if fetch.epoch = run.replacements
        then run.session.tree.loading.filter fun id => id ≠ fetch.id
        else run.session.tree.loading } := by
  by_cases current : fetch.epoch = run.replacements
  · have generation := (tracks.current_iff recent member).mpr current
    simp only [CatalogTree.clearMark, generation, current, if_true]
    rfl
  · have generation := fun same => current ((tracks.current_iff recent member).mp same)
    rw [CatalogTree.clearMark_of_ne generation, if_neg current]

theorem Tracks.clear (tracks : Tracks run) (recent : run.Recent) {number : Nat}
    {mark : FetchMark} {toggling : Bool}
    (found : run.session.waiting.lookup number = some (.children mark toggling)) :
    Tracks (run.close number
      { run.session.forget number with tree := run.session.tree.clearMark mark }) := by
  obtain ⟨fetch, member, rfl, rfl⟩ := tracks.fetch_of_lookup found
  refine tracks.close rfl (CatalogTree.clearMark_generation _ _) ?_ ?_
  · rw [tracks.currentIds_close member, tracks.clearMark_eq recent member, tracks.loading]
  · rw [tracks.clearMark_eq recent member]
    intro id marked
    refine tracks.apart id ?_
    change id ∈ ite _ _ _ at marked
    split at marked
    · exact List.mem_of_mem_filter marked
    · exact marked

theorem currentIds_newRoots (tracks : Tracks run) (session : CatalogSession) :
    { run with session }.newRoots.currentIds = [] := by
  have older : run.fetches.filter (fun fetch => fetch.epoch = run.replacements + 1) = [] := by
    rw [List.filter_eq_nil_iff]
    intro fetch member
    have bound := tracks.epochs fetch member
    simp only [decide_eq_true_eq]
    omega
  exact congrArg (List.map OpenFetch.id) older

theorem Tracks.newRoots (tracks : Tracks run) (nodes : List CatalogNode) :
    Tracks { run with session := run.session.replaceRoots nodes }.newRoots where
  generation := by
    change run.session.tree.generation + 1 = UInt64.ofNat (run.replacements + 1)
    rw [tracks.generation, UInt64.ofNat_add]
    rfl
  numbered := tracks.numbered
  called := tracks.called
  marks := tracks.marks
  epochs := fun fetch member => Nat.le_succ_of_le (tracks.epochs fetch member)
  loading := (currentIds_newRoots tracks _).symm
  single := by
    rw [currentIds_newRoots tracks]
    exact List.nodup_nil
  apart := by
    intro id marked
    simp [CatalogRun.newRoots, CatalogSession.replaceRoots, CatalogTree.replaceRoots] at marked

theorem Tracks.numbered_wait (tracks : Tracks run) {number : Nat}
    (unused : number ∉ run.calls.map Prod.fst) (session : CatalogSession) (operation : Waiting)
    (waiting : session.waiting = run.session.waiting) :
    ((session.wait number operation).waiting.map Prod.fst).Nodup := by
  simp only [CatalogSession.wait, waiting, List.map_append, List.map_cons, List.map_nil]
  refine List.Nodup.append tracks.numbered (List.nodup_singleton _) ?_
  intro other waits same
  obtain ⟨entry, member, rfl⟩ := List.mem_map.mp waits
  exact unused (List.mem_singleton.mp same ▸ tracks.called entry member)

theorem Tracks.called_wait (tracks : Tracks run) {number : Nat} (call : CatalogCall)
    (session : CatalogSession) (operation : Waiting)
    (waiting : session.waiting = run.session.waiting) :
    ∀ entry ∈ (session.wait number operation).waiting,
      entry.1 ∈ (run.calls ++ [(number, call)]).map Prod.fst := by
  intro entry member
  simp only [CatalogSession.wait, waiting, List.mem_append, List.mem_singleton] at member
  rw [List.map_append, List.mem_append]
  rcases member with old | rfl
  · exact Or.inl (tracks.called entry old)
  · exact Or.inr (by simp)

theorem Tracks.load (tracks : Tracks run) {number : Nat}
    (unused : number ∉ run.calls.map Prod.fst) :
    Tracks { run with
      session := run.session.wait number .roots
      calls := run.calls ++ [(number, .catalogs)] } where
  generation := tracks.generation
  numbered := tracks.numbered_wait unused _ _ rfl
  called := tracks.called_wait _ _ _ rfl
  marks := by
    rw [← tracks.marks]
    simp [CatalogSession.marks, CatalogSession.wait]
  epochs := tracks.epochs
  loading := tracks.loading
  single := tracks.single
  apart := tracks.apart

theorem Tracks.fetch (tracks : Tracks run) {number : Nat} {id : String} (call : CatalogCall)
    (toggling : Bool) (unused : number ∉ run.calls.map Prod.fst)
    (loading : id ∉ run.session.tree.loading) (expanded : id ∉ run.session.tree.expanded) :
    Tracks { run with
      session := ({ run.session with
        tree := { run.session.tree with loading := run.session.tree.loading ++ [id] }
        }).wait number (.children ⟨id, run.session.tree.generation⟩ toggling)
      calls := run.calls ++ [(number, call)]
      fetches := run.fetches ++ [{ number, id, call, epoch := run.replacements }] } where
  generation := tracks.generation
  numbered := tracks.numbered_wait unused _ _ rfl
  called := tracks.called_wait _ _ _ rfl
  marks := by
    have before := tracks.marks
    unfold CatalogSession.marks at before
    simp [CatalogSession.marks, CatalogSession.wait, before, OpenFetch.mark, tracks.generation]
  epochs := by
    intro fetch member
    rcases List.mem_append.mp member with old | new
    · exact tracks.epochs fetch old
    · obtain rfl := List.mem_singleton.mp new
      exact Nat.le_refl _
  loading := by
    have before := tracks.loading
    unfold currentIds at before
    simp [currentIds, CatalogSession.wait, before]
  single := by
    have begun : currentIds { run with
        fetches := run.fetches ++ [{ number, id, call, epoch := run.replacements }] } =
          run.currentIds ++ [id] := by
      simp [currentIds]
    change (currentIds { run with
      fetches := run.fetches ++ [{ number, id, call, epoch := run.replacements }] }).Nodup
    rw [begun]
    refine List.Nodup.append tracks.single (List.nodup_singleton _) ?_
    intro other member same
    rw [List.mem_singleton.mp same, ← tracks.loading] at member
    exact loading member
  apart := by
    intro other marked
    rcases List.mem_append.mp marked with old | new
    · exact tracks.apart other old
    · rw [List.mem_singleton.mp new]
      exact expanded

theorem Tracks.step (tracks : Tracks run) (recent : run.Recent)
    (event : CatalogEvent) : Tracks (run.step event) := by
  have transition := run.step_transition event
  generalize run.step event = next at transition
  cases transition with
  | unchanged => exact tracks
  | @cached number operation id node children target loading expanded found inner listed =>
      refine { tracks with apart := ?_ }
      intro other marked shown
      rcases List.mem_append.mp shown with old | new
      · exact tracks.apart other marked old
      · exact loading (List.mem_singleton.mp new ▸ marked)
  | collapsed id =>
      refine { tracks with generation := ?_, loading := ?_, apart := ?_ }
      · exact (CatalogTree.collapse_generation _ _).trans tracks.generation
      · exact (CatalogTree.collapse_loading _ _).trans tracks.loading
      · intro other marked shown
        refine tracks.apart other ?_ (CatalogTree.mem_expanded_of_collapse shown)
        rwa [← CatalogTree.collapse_loading]
  | loading unused => exact tracks.load unused
  | fetching toggling unused _ loading expanded _ _ =>
      exact tracks.fetch _ toggling unused loading expanded
  | missing found =>
      refine tracks.close_of_ne (tracks.number_ne ?_) ?_ rfl
      · simp [found]
      · rw [CatalogSession.forget_of_lookup_none found]
  | dropped found => exact tracks.drop found
  | ended found => exact tracks.clear recent found
  | @listed number mark toggling listing nodes found current put =>
      have cleared := tracks.clear recent found
      refine { cleared with apart := ?_ }
      intro other marked shown
      rcases mem_addNew.mp shown with old | new
      · refine cleared.apart other marked ?_
        change other ∈ (run.session.tree.clearMark mark).expanded
        rwa [CatalogTree.clearMark_expanded]
      · change other ∈ (run.session.tree.clearMark mark).loading at marked
        simp [CatalogTree.clearMark, current, new] at marked
  | replaced nodes => exact tracks.newRoots nodes
  | loaded found => exact (tracks.drop found).newRoots _

theorem Tracks.tree_of_givesUp (tracks : Tracks run) (recent : run.Recent)
    {fetch : OpenFetch} (member : fetch ∈ run.fetches) {event : CatalogEvent}
    (givesUp : event.GivesUp fetch.number) :
    (run.step event).session.tree = { run.session.tree with
      loading := if fetch.epoch = run.replacements
        then run.session.tree.loading.filter fun id => id ≠ fetch.id
        else run.session.tree.loading } := by
  have cleared : (run.step event).session.tree = run.session.tree.clearMark fetch.mark := by
    obtain ⟨toggling, found⟩ := tracks.lookup_of_fetch member
    match event, givesUp with
    | .cancel _, rfl => simp only [CatalogRun.step, CatalogSession.abandon, found, CatalogRun.close]
    | .reply _ (.error error), rfl =>
        simp only [CatalogRun.step, bringsRoots, CatalogSession.finish, found, CatalogRun.close,
          Bool.false_eq_true, if_false, CatalogSession.finishExpand, CatalogTree.finishExpand]
        rfl
  rw [cleared, tracks.clearMark_eq recent member]

end

theorem tracks_of (name : String) (events : List CatalogEvent)
    (few : (of name events).replacements < UInt64.size) : Tracks (of name events) := by
  induction events using List.reverseRecOn with
  | nil => exact tracks_opened name
  | append_singleton events event ih =>
      rw [of_concat] at few ⊢
      have before := Nat.lt_of_le_of_lt (replacements_le_step _ event) few
      exact (ih before).step (recent_of_few before) event

/-- A node is loading exactly while one fetch since the last roots is open for it; giving it up
clears its own mark only. -/
theorem marks_follow_fetches (name : String) (events : List CatalogEvent)
    (few : (of name events).replacements < UInt64.size) :
    let run := of name events
    let tree := run.session.tree
    (∀ id, run.currentIds.count id ≤ 1 ∧ (id ∈ tree.loading ↔ run.currentIds.count id = 1)) ∧
    (∀ id ∈ tree.loading, id ∉ tree.expanded) ∧
    (∀ fetch ∈ run.fetches, ∀ event : CatalogEvent, event.GivesUp fetch.number →
      (run.step event).session.tree = { tree with
        loading := if fetch.epoch = run.replacements
          then tree.loading.filter fun id => id ≠ fetch.id
          else tree.loading }) ∧
    (run.fetches = [] → ∀ id, tree.state id ≠ .loading) := by
  intro run tree
  have tracks : Tracks run := tracks_of name events few
  refine ⟨?_, tracks.apart, ?_, ?_⟩
  · intro id
    have atMostOne := List.nodup_iff_count_le_one.mp tracks.single id
    refine ⟨atMostOne, ?_⟩
    change id ∈ run.session.tree.loading ↔ _
    rw [tracks.loading, ← List.count_pos_iff]
    omega
  · intro fetch member event givesUp
    exact tracks.tree_of_givesUp (recent_of_few few) member givesUp
  · intro none id
    have idle : tree.loading = [] := by
      change run.session.tree.loading = []
      rw [tracks.loading, currentIds, none]
      rfl
    simp only [CatalogTree.state, idle, List.not_mem_nil, if_false]
    split <;> simp

theorem marks_follow_fetches_after_new_roots :
    let events : List CatalogEvent :=
      [.replaceRoots [.new "main" "main" .catalog], .start 0 (.expand "main"),
        .replaceRoots [.new "main" "main" .catalog], .start 1 (.expand "main"),
        .reply 0 (.error .json)]
    (of "source" events).replacements < UInt64.size ∧
      ((of "source" events).session.tree.loading = ["main"] ∧
        (of "source" events).currentIds.count "main" = 1) := by
  intro events
  have few : (of "source" events).replacements < UInt64.size := by decide
  have marked : (of "source" events).session.tree.loading = ["main"] := by decide
  have single := ((marks_follow_fetches "source" events few).1 "main").2
  exact ⟨few, marked, single.mp (by rw [marked]; simp)⟩

end CatalogRun

end CatalogBrowser
