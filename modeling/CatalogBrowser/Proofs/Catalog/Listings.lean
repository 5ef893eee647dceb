import CatalogBrowser.Proofs.Catalog.Expansion
import CatalogBrowser.Proofs.Catalog.Path

/-!
Whose children an expansion fetches.  Of the segments of an id only those that the type of the
node calls for go into the call, so the children are the node's own only if there are no others.
-/

namespace CatalogBrowser

def CatalogCall.parent? : CatalogCall → Option String
  | .catalogs => none
  | .schemas catalog => some catalog
  | .tables catalog schema => some (catalog ++ "." ++ schema)

def CatalogKind.dots : CatalogKind → Nat
  | .catalog => 0
  | .schema => 1
  | .table | .view => 2

namespace CatalogTree

inductive Asks (id : String) : CatalogKind → Except Error (Option CatalogCall) → Prop
  | schemas {path : NodePath} : path.Spells id →
      Asks id .catalog (.ok (some (.schemas path.catalog)))
  | tables {path : NodePath} {schema} : path.Spells id → path.schema = some schema →
      Asks id .schema (.ok (some (.tables path.catalog schema)))
  | noSchema {path : NodePath} : path.Spells id → path.schema = none →
      Asks id .schema
        (.error (.validation "catalog node id" ("`" ++ id ++ "` has no schema segment")))
  | leaf {path : NodePath} {kind} : path.Spells id → kind.isLeaf = true → Asks id kind (.ok none)
  | unreadable {kind} : (∀ path : NodePath, ¬path.Spells id) →
      Asks id kind
        (.error (.validation "catalog node id" ("`" ++ id ++ "` contains an empty segment")))

section

variable {id : String} {kind : CatalogKind}

theorem exists_asks (id : String) (kind : CatalogKind) : ∃ asked, Asks id kind asked := by
  by_cases readable : ∃ path : NodePath, path.Spells id
  · obtain ⟨path, spells⟩ := readable
    cases kind with
    | catalog => exact ⟨_, .schemas spells⟩
    | schema =>
        cases named : path.schema with
        | none => exact ⟨_, .noSchema spells named⟩
        | some schema => exact ⟨_, .tables spells named⟩
    | table | view => exact ⟨_, .leaf spells rfl⟩
  · exact ⟨_, .unreadable fun path spells => readable ⟨path, spells⟩⟩

theorem listingCall_of_asks {asked : Except Error (Option CatalogCall)}
    (asks : Asks id kind asked) : listingCall id kind = asked := by
  cases asks with
  | schemas spells =>
      rw [listingCall, NodePath.ofText_of_spells spells]
      rfl
  | tables spells named | noSchema spells named =>
      simp only [listingCall, NodePath.ofText_of_spells spells, bind, Except.bind, named]
      rfl
  | leaf spells leaf =>
      rw [listingCall, NodePath.ofText_of_spells spells]
      cases kind with
      | catalog | schema => nomatch leaf
      | table | view => rfl
  | unreadable unreadable =>
      rcases NodePath.ofText_cases id with ⟨path, _, spells⟩ | fails
      · exact absurd spells (unreadable path)
      · rw [listingCall, fails]
        rfl

theorem listingCall_eq_iff {asked : Except Error (Option CatalogCall)} :
    listingCall id kind = asked ↔ Asks id kind asked := by
  refine ⟨?_, listingCall_of_asks⟩
  rintro rfl
  obtain ⟨asked, asks⟩ := exists_asks id kind
  rwa [listingCall_of_asks asks]

theorem asks_some_iff {call : CatalogCall} : Asks id kind (.ok (some call)) ↔
    ∃ path : NodePath, path.Spells id ∧
      (kind = .catalog ∧ call = .schemas path.catalog ∨
        kind = .schema ∧ ∃ schema, path.schema = some schema ∧
          call = .tables path.catalog schema) := by
  constructor
  · intro asks
    cases asks with
    | schemas spells => exact ⟨_, spells, Or.inl ⟨rfl, rfl⟩⟩
    | tables spells named => exact ⟨_, spells, Or.inr ⟨rfl, _, named, rfl⟩⟩
  · rintro ⟨path, spells, ⟨rfl, rfl⟩ | ⟨rfl, schema, named, rfl⟩⟩
    · exact .schemas spells
    · exact .tables spells named

theorem Asks.reason {error : Error} (asks : Asks id kind (.error error)) :
    ∃ reason ∈ ["`" ++ id ++ "` contains an empty segment", "`" ++ id ++ "` has no schema segment"],
      error = .validation "catalog node id" reason := by
  cases asks with
  | noSchema spells named => exact ⟨_, by simp, rfl⟩
  | unreadable unreadable => exact ⟨_, List.mem_cons_self, rfl⟩

theorem Asks.parent {call : CatalogCall} (asks : Asks id kind (.ok (some call))) :
    ∃ own, call.parent? = some own ∧
      (own = id ∧ id.toList.count '.' = kind.dots ∨
        ∃ rest, rest ≠ "" ∧ id = own ++ "." ++ rest ∧ kind.dots < id.toList.count '.') := by
  cases asks with
  | schemas spells =>
      refine ⟨_, rfl, ?_⟩
      cases spells with
      | catalog plain => exact Or.inl ⟨rfl, plain.count_eq_zero⟩
      | @schema catalog schema first second =>
          refine Or.inr ⟨schema, second.nonempty, rfl, ?_⟩
          simp only [NodePath.count_dotted, CatalogKind.dots]
          omega
      | @object catalog schema object first second last =>
          refine Or.inr ⟨schema ++ "." ++ object, ?_, ?_, ?_⟩
          · simp
          · simp only [String.append_assoc]
          · simp only [NodePath.count_dotted, CatalogKind.dots]
            omega
  | tables spells named =>
      cases spells with
      | catalog plain => simp at named
      | schema first second =>
          obtain rfl := Option.some.inj named
          refine ⟨_, rfl, Or.inl ⟨rfl, ?_⟩⟩
          rw [NodePath.count_dotted, first.count_eq_zero, second.count_eq_zero]
          rfl
      | @object catalog other object first second last =>
          obtain rfl := Option.some.inj named
          refine ⟨_, rfl, Or.inr ⟨object, last, rfl, ?_⟩⟩
          simp only [NodePath.count_dotted, CatalogKind.dots]
          omega

theorem Asks.parent_iff {call : CatalogCall} (asks : Asks id kind (.ok (some call))) :
    ∃ own, call.parent? = some own ∧ (own = id ∨ ∃ rest, rest ≠ "" ∧ id = own ++ "." ++ rest) ∧
      (own = id ↔ id.toList.count '.' = kind.dots) := by
  obtain ⟨own, parent, ⟨same, dots⟩ | ⟨rest, nonempty, surplus, dots⟩⟩ := asks.parent
  · exact ⟨own, parent, Or.inl same, iff_of_true same dots⟩
  · refine ⟨own, parent, Or.inr ⟨rest, nonempty, surplus⟩, iff_of_false ?_ dots.ne'⟩
    rintro rfl
    have counts := NodePath.count_dotted own rest
    rw [← surplus] at counts
    omega

end

end CatalogTree

namespace CatalogSession

open CatalogTree (Asks)

section

variable (session : CatalogSession) (number : Nat) {operation : CatalogOperation} {id : String}

theorem start_waiting_iff_asks (target : operation.target? = some id) (call : CatalogCall) :
    (session.start number operation).2 = .waiting call ↔
      id ∉ session.tree.loading ∧ id ∉ session.tree.expanded ∧
        ∃ node, session.tree.Listable id node ∧ Asks id node.nodeType (.ok (some call)) := by
  rw [session.start_waiting_iff number target]
  constructor
  · rintro ⟨idle, closed, node, listable, listing⟩
    exact ⟨idle, closed, node, listable, CatalogTree.listingCall_eq_iff.mp listing⟩
  · rintro ⟨idle, closed, node, listable, asks⟩
    exact ⟨idle, closed, node, listable, CatalogTree.listingCall_of_asks asks⟩

theorem asks_of_waiting (target : operation.target? = some id) {node : CatalogNode}
    (found : session.tree.find? id = some node) {call : CatalogCall}
    (waits : (session.start number operation).2 = .waiting call) :
    Asks id node.nodeType (.ok (some call)) := by
  rw [session.start_waiting_iff_asks number target] at waits
  obtain ⟨_, _, other, listable, asks⟩ := waits
  rwa [listable.eq_of_find? found] at asks

theorem start_of_asks_error (target : operation.target? = some id)
    (idle : id ∉ session.tree.loading) (closed : id ∉ session.tree.expanded) {node : CatalogNode}
    (listable : session.tree.Listable id node) {error : Error}
    (asks : Asks id node.nodeType (.error error)) :
    session.start number operation =
      (session, .finished
        ⟨.error error, [.ofError ("Failed to load children of " ++ id) error]⟩) := by
  have fails : (session.tree.startExpand id).2 =
      .fetching ⟨id, session.tree.generation⟩ (.error error) := by
    simp [CatalogTree.startExpand, idle, closed, listable.found, listable.inner,
      listable.unlisted, listable.hinted, CatalogTree.listingCall_of_asks asks]
  exact session.start_eq_of_error number target fails

end

/-- An operation on a node lists the children of what the leading segments of its id name, which may
be another node. -/
theorem listings_follow_leading_segments (session : CatalogSession) (number : Nat)
    {operation : CatalogOperation} {id : String} (target : operation.target? = some id) :
    let begun := session.start number operation
    (∀ call, begun.2 = .waiting call ↔
      id ∉ session.tree.loading ∧ id ∉ session.tree.expanded ∧
        ∃ node path, session.tree.Listable id node ∧ NodePath.Spells path id ∧
          (node.nodeType = .catalog ∧ call = .schemas path.catalog ∨
            node.nodeType = .schema ∧ ∃ schema, path.schema = some schema ∧
              call = .tables path.catalog schema)) ∧
    (∀ node, session.tree.Listable id node → id ∉ session.tree.loading →
      id ∉ session.tree.expanded → (∀ call, begun.2 ≠ .waiting call) →
      ∃ reason ∈ ["`" ++ id ++ "` contains an empty segment",
          "`" ++ id ++ "` has no schema segment"],
        begun = (session, .finished ⟨.error (.validation "catalog node id" reason),
          [.ofError ("Failed to load children of " ++ id)
            (.validation "catalog node id" reason)]⟩)) ∧
    ∀ call node, begun.2 = .waiting call → session.tree.find? id = some node →
      (∃ own, call.parent? = some own ∧
        (own = id ∨ ∃ rest, rest ≠ "" ∧ id = own ++ "." ++ rest) ∧
        (own = id ↔ id.toList.count '.' = node.nodeType.dots)) ∧
      ∀ (later : CatalogSession) next again other found,
        CatalogOperation.target? again = some other → later.tree.find? other = some found →
        (later.start next again).2 = .waiting call → found.nodeType = node.nodeType →
        id.toList.count '.' = node.nodeType.dots →
        other.toList.count '.' = node.nodeType.dots → other = id := by
  intro begun
  refine ⟨?_, ?_, ?_⟩
  · intro call
    rw [session.start_waiting_iff_asks number target]
    simp only [CatalogTree.asks_some_iff, exists_and_left]
  · intro node listable idle closed silent
    obtain ⟨asked, asks⟩ := CatalogTree.exists_asks id node.nodeType
    match asked, asks with
    | .ok none, asks =>
        have listing := CatalogTree.listingCall_of_asks asks
        exact absurd listing (CatalogTree.listingCall_ne_none id listable.inner)
    | .ok (some call), asks =>
        have waits := (session.start_waiting_iff_asks number target call).mpr
          ⟨idle, closed, node, listable, asks⟩
        exact absurd waits (silent call)
    | .error error, asks =>
        obtain ⟨reason, member, rfl⟩ := asks.reason
        exact ⟨reason, member, session.start_of_asks_error number target idle closed listable asks⟩
  · intro call node waits found
    have asks := session.asks_of_waiting number target found waits
    refine ⟨asks.parent_iff, ?_⟩
    intro later next again other second otherTarget otherFound otherWaits kinds dots otherDots
    have otherAsks := later.asks_of_waiting next otherTarget otherFound otherWaits
    rw [kinds] at otherAsks
    obtain ⟨own, parent, _, same⟩ := asks.parent_iff
    obtain ⟨otherOwn, otherParent, _, otherSame⟩ := otherAsks.parent_iff
    calc other = otherOwn := (otherSame.mpr otherDots).symm
      _ = own := Option.some.inj (otherParent.symm.trans parent)
      _ = id := same.mpr dots

theorem listings_follow_leading_segments_of_schemas :
    let session : CatalogSession :=
      { tree := {
          name := "source"
          nodes := [.node "main" "main" .catalog true (some
            [.new "main.raw" "raw" .schema, .new "lost" "lost" .schema])] } }
    (session.start 0 (.expand "main.raw")).2 = .waiting (.tables "main" "raw") ∧
      ∃ reason, session.start 0 (.toggle "lost") =
        (session, .finished ⟨.error (.validation "catalog node id" reason),
          [.ofError "Failed to load children of lost"
            (.validation "catalog node id" reason)]⟩) := by
  intro session
  have rawTarget : CatalogOperation.target? (.expand "main.raw") = some "main.raw" := rfl
  have raw : session.tree.Listable "main.raw" (.new "main.raw" "raw" .schema) :=
    ⟨rfl, rfl, rfl, rfl⟩
  have spells : NodePath.Spells { catalog := "main", schema := some "raw" } "main.raw" :=
    .schema ⟨by decide, by decide⟩ ⟨by decide, by decide⟩
  have lostTarget : CatalogOperation.target? (.toggle "lost") = some "lost" := rfl
  have lost : session.tree.Listable "lost" (.new "lost" "lost" .schema) := ⟨rfl, rfl, rfl, rfl⟩
  have silent : ∀ call, (session.start 0 (.toggle "lost")).2 ≠ .waiting call := nofun
  constructor
  · exact ((session.listings_follow_leading_segments 0 rawTarget).1 _).mpr
      ⟨by decide, by decide, _, _, raw, spells, Or.inr ⟨rfl, "raw", rfl, rfl⟩⟩
  · obtain ⟨reason, _, ended⟩ := (session.listings_follow_leading_segments 0 lostTarget).2.1
      _ lost (by decide) (by decide) silent
    exact ⟨reason, ended⟩

/-- Catalogs with a dot in their ids ask for the schemas of another catalog. -/
theorem dotted_catalogs_share_listing :
    let session : CatalogSession :=
      { tree := {
          name := "source"
          nodes := [.new "a.x" "x" .catalog, .new "a.y" "y" .catalog] } }
    let first := session.start 0 (.expand "a.x")
    first.2 = .waiting (.schemas "a") ∧
      (first.1.start 1 (.expand "a.y")).2 = .waiting (.schemas "a") := ⟨rfl, rfl⟩

end CatalogSession

end CatalogBrowser
