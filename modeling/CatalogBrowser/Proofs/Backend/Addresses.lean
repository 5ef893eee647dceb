import CatalogBrowser.Backend.Client
import CatalogBrowser.Proofs.Url.Segments

/-!
Which resource a request addresses.

The path of its URL names the resource as long as every text that goes into it can be a segment.
A dot segment is left out, and tabs and line breaks are dropped, so that other texts than these
can lead to the resource of another name.
-/

namespace CatalogBrowser

inductive Resource where
  | allConcepts
  | hierarchy (iri : Iri)
  | entityLinks (entityType entityId : String)
  | conceptLinks (iri : Iri)
  | newLink
  | link (id : String)
  | catalogs
  | schemas (catalog : String)
  | tables (catalog schema : String)
  | job (id : String)
  deriving DecidableEq

namespace Resource

def segments : Resource → List String
  | .allConcepts => ["api", "semantic-models", "concepts-grouped"]
  | .hierarchy _ => ["api", "semantic-models", "concepts", "hierarchy"]
  | .entityLinks entityType entityId => ["api", "semantic-links", "entity", entityType, entityId]
  | .conceptLinks iri => ["api", "semantic-links", "iri", iri.text]
  | .newLink => ["api", "semantic-links", ""]
  | .link id => ["api", "semantic-links", id]
  | .catalogs => ["api", "catalogs"]
  | .schemas catalog => ["api", "catalogs", catalog, "schemas"]
  | .tables catalog schema => ["api", "catalogs", catalog, "schemas", schema, "tables"]
  | .job id => ["api", "training-jobs", id]

def arguments : Resource → List String
  | .allConcepts | .hierarchy _ | .newLink | .catalogs => []
  | .entityLinks entityType entityId => [entityType, entityId]
  | .conceptLinks iri => [iri.text]
  | .link id | .job id => [id]
  | .schemas catalog => [catalog]
  | .tables catalog schema => [catalog, schema]

theorem segments_eq (resource : Resource) :
    ∃ second more, resource.segments = "api" :: second :: more ∧
      Url.Addressable second.toList ∧
      ((∀ segment ∈ more, Url.Addressable segment.toList) ↔
        ∀ argument ∈ resource.arguments, Url.Addressable argument.toList) := by
  have fixed : ∀ segment ∈ ["concepts-grouped", "concepts", "hierarchy", "entity", "iri", "",
      "schemas", "tables"], Url.Addressable segment.toList := by decide
  cases resource <;> refine ⟨_, _, rfl, by decide, ?_⟩ <;> simp_all [arguments]

theorem eq_or_hierarchy_of_segments_eq {first second : Resource}
    (firstNamed : ∀ argument ∈ first.arguments, argument ≠ "")
    (secondNamed : ∀ argument ∈ second.arguments, argument ≠ "")
    (same : first.segments = second.segments) :
    first = second ∨ ∃ iri other, first = .hierarchy iri ∧ second = .hierarchy other := by
  cases first <;> cases second <;> simp_all [segments, arguments, Iri.text_injective.eq_iff]

end Resource

namespace Client

/-- The requests of a client, each with the resource that it is for. -/
inductive Requests (client : Client) : Resource → Request → Prop
  | allConcepts : Requests client .allConcepts client.allConcepts.request
  | hierarchy (iri : Iri) : Requests client (.hierarchy iri) (client.hierarchy iri).request
  | entityLinks (entityType entityId : String) :
      Requests client (.entityLinks entityType entityId)
        (client.entityLinks entityType entityId).request
  | conceptLinks (iri : Iri) : Requests client (.conceptLinks iri) (client.conceptLinks iri).request
  | newLink {draft : LinkDraft} {call : Call SemanticLink} : client.createLink draft = .ok call →
      Requests client .newLink call.request
  | link (id : String) : Requests client (.link id) (client.deleteLink id).request
  | catalogs : Requests client .catalogs client.catalogs.request
  | schemas (catalog : String) : Requests client (.schemas catalog) (client.schemas catalog).request
  | tables (catalog schema : String) :
      Requests client (.tables catalog schema) (client.tables catalog schema).request
  | job (id : String) : Requests client (.job id) (client.job id).request

def urlOf (client : Client) : Resource → Url
  | .hierarchy iri =>
    (client.resource (Resource.hierarchy iri).segments).withQueryPair "iri" iri.text
  | resource => client.resource resource.segments

variable {client : Client} {resource : Resource} {request : Request}

theorem Requests.url_eq (sent : client.Requests resource request) :
    request.url = client.urlOf resource := by
  cases sent with
  | allConcepts | hierarchy | entityLinks | conceptLinks | link | catalogs | schemas | tables
  | job => rfl
  | @newLink draft call made =>
      unfold createLink at made
      cases valid : draft.checked with
      | error error => simp [valid, bind, Except.bind] at made
      | ok checked =>
          simp only [valid, bind, Except.bind, pure, Except.pure, Except.ok.injEq] at made
          rw [← made]
          rfl

theorem path_urlOf (client : Client) (resource : Resource) :
    (client.urlOf resource).path = (client.base.withSegments resource.segments).path := by
  cases resource <;> simp only [urlOf, Client.resource, Url.path_withQueryPair]

theorem path_segments (fits : ∀ argument ∈ resource.arguments, Url.Addressable argument.toList) :
    (client.base.withSegments resource.segments).path.toList =
      Url.joined (if client.base.isSpecial then Url.specialSegmentSet else Url.segmentSet)
        client.base.stem (resource.segments.map String.toList) := by
  obtain ⟨second, more, parts, secondFits, moreFit⟩ := resource.segments_eq
  rw [parts]
  refine Url.path_withSegments_of_addressable client.base (by decide) ?_
  intro segment member
  rcases List.mem_cons.mp member with rfl | rest
  · decide
  · rcases List.mem_cons.mp rest with rfl | later
    · exact secondFits
    · exact moreFit.mpr fits segment later

def queryChars (url : Url) : List Char :=
  match url.query with
  | some query => '?' :: query.toList
  | none => []

theorem queryChars_cases (url : Url) :
    queryChars url = [] ∨ ∃ rest, queryChars url = '?' :: rest := by
  unfold queryChars
  split
  · exact Or.inr ⟨_, rfl⟩
  · exact Or.inl rfl

theorem sentText_urlOf (client : Client) (resource : Resource) :
    (client.urlOf resource).sentText.toList =
      (client.base.scheme ++ ":" ++ client.base.authority).toList ++
        ((client.urlOf resource).path.toList ++ queryChars (client.urlOf resource)) := by
  have origin : (client.urlOf resource).scheme ++ ":" ++ (client.urlOf resource).authority =
      client.base.scheme ++ ":" ++ client.base.authority := by
    cases resource <;> simp only [urlOf, Client.resource, Url.scheme_withSegments,
      Url.authority_withSegments, Url.scheme_withQueryPair, Url.authority_withQueryPair]
  rw [Url.sentText, origin, queryChars]
  simp only [String.toList_append, List.append_assoc]
  cases (client.urlOf resource).query <;> simp

theorem append_query_inj {path other query rest : List Char} (without : '?' ∉ path)
    (otherWithout : '?' ∉ other) (query_cases : query = [] ∨ ∃ chars, query = '?' :: chars)
    (rest_cases : rest = [] ∨ ∃ chars, rest = '?' :: chars) (same : path ++ query = other ++ rest) :
    path = other ∧ query = rest := by
  have cut : ∀ {front back : List Char}, '?' ∉ front → (back = [] ∨ ∃ chars, back = '?' :: chars) →
      (front ++ back).takeWhile (fun c => c ≠ '?') = front := by
    intro front back absent cases
    have passed : ∀ c ∈ front, decide (c ≠ '?') = true :=
      fun c member => decide_eq_true (ne_of_mem_of_not_mem member absent)
    rw [List.takeWhile_append_of_pos passed]
    rcases cases with rfl | ⟨chars, rfl⟩ <;> simp
  have paths := cut without query_cases
  rw [same, cut otherWithout rest_cases] at paths
  subst paths
  exact ⟨rfl, List.append_cancel_left same⟩

theorem segments_of_sentText_eq {first second : Resource}
    (firstFits : ∀ argument ∈ first.arguments, Url.Addressable argument.toList)
    (secondFits : ∀ argument ∈ second.arguments, Url.Addressable argument.toList)
    (same : (client.urlOf first).sentText = (client.urlOf second).sentText) :
    first.segments = second.segments ∧
      queryChars (client.urlOf first) = queryChars (client.urlOf second) := by
  have separating := Url.separating_segmentSet client.base.isSpecial
  have chars := congrArg String.toList same
  rw [sentText_urlOf, sentText_urlOf, path_urlOf, path_urlOf, path_segments firstFits,
    path_segments secondFits, Url.joined_front, Url.joined_front _ client.base.stem,
    List.append_assoc, List.append_assoc] at chars
  have behind := List.append_cancel_left (List.append_cancel_left chars)
  obtain ⟨paths, queries⟩ := append_query_inj (Url.notMem_joined_nil separating _)
    (Url.notMem_joined_nil separating _) (queryChars_cases _) (queryChars_cases _) behind
  have texts := Url.joined_inj separating paths
  exact ⟨(List.map_inj_right fun _ _ => String.toList_injective).mp texts, queries⟩

theorem eq_of_queryChars_hierarchy {first second : Iri}
    (same : queryChars (client.urlOf (.hierarchy first)) =
      queryChars (client.urlOf (.hierarchy second))) : first = second := by
  have queries : (client.urlOf (.hierarchy first)).query =
      (client.urlOf (.hierarchy second)).query := by
    simp only [queryChars, urlOf, Url.withQueryPair, List.cons.injEq, true_and] at same ⊢
    rw [String.toList_injective same]
  exact Iri.text_injective (Url.withQueryPair_inj queries)

/-- The segments behind the base path name the resource, exactly when every text that the caller
chose is addressable; such requests share no URL. -/
theorem requests_address_resources (client : Client) :
    (∀ resource request, client.Requests resource request →
      ∃ rest, request.url.path.toList = client.base.stem ++ '/' :: rest ∧
        (Url.segmentTexts rest = resource.segments.map some ↔
          ∀ argument ∈ resource.arguments, Url.Addressable argument.toList)) ∧
    ∀ first second request other,
      client.Requests first request → client.Requests second other →
      (∀ argument ∈ first.arguments ++ second.arguments,
        argument ≠ "" ∧ Url.Addressable argument.toList) →
      request.url.sentText = other.url.sentText → first = second := by
  constructor
  · intro resource request sent
    obtain ⟨second, more, parts, secondFits, moreFit⟩ := resource.segments_eq
    have visible : "api".toList ≠ [] := by decide
    have firstFits : Url.Addressable "api".toList := by decide
    obtain ⟨rest, path, texts⟩ :=
      client.base.segmentTexts_withSegments more visible firstFits secondFits
    refine ⟨rest, ?_, ?_⟩
    · rw [sent.url_eq, path_urlOf, parts, path]
    · rw [parts, texts, moreFit]
  · intro first second request other sent otherSent fits same
    rw [sent.url_eq, otherSent.url_eq] at same
    have firstFits := fun argument member => fits argument (List.mem_append_left _ member)
    have secondFits := fun argument member => fits argument (List.mem_append_right _ member)
    obtain ⟨segments, queries⟩ := segments_of_sentText_eq
      (fun argument member => (firstFits argument member).2)
      (fun argument member => (secondFits argument member).2) same
    rcases Resource.eq_or_hierarchy_of_segments_eq (fun argument member =>
        (firstFits argument member).1) (fun argument member => (secondFits argument member).1)
      segments with equal | ⟨iri, otherIri, rfl, rfl⟩
    · exact equal
    · rw [eq_of_queryChars_hierarchy queries]

theorem requests_address_resources_with_slashes :
    let client : Client :=
      ⟨{ scheme := "http", host := some "localhost", port := some 8000, path := "/" }⟩
    let request := (client.entityLinks "a/b" "c").request
    let other := (client.entityLinks "a" "b/c").request
    client.Requests (.entityLinks "a/b" "c") request ∧
    client.Requests (.entityLinks "a" "b/c") other ∧
    (∀ argument ∈ ["a/b", "c"] ++ ["a", "b/c"],
      argument ≠ "" ∧ Url.Addressable argument.toList) ∧
    (∃ rest, request.url.path.toList = '/' :: rest ∧ Url.segmentTexts rest =
      [some "api", some "semantic-links", some "entity", some "a/b", some "c"]) ∧
    request.url.sentText ≠ other.url.sentText := by
  intro client request other
  have sent : client.Requests (.entityLinks "a/b" "c") request := .entityLinks "a/b" "c"
  have otherSent : client.Requests (.entityLinks "a" "b/c") other := .entityLinks "a" "b/c"
  have fits : ∀ argument ∈ ["a/b", "c"] ++ ["a", "b/c"],
      argument ≠ "" ∧ Url.Addressable argument.toList := by decide
  obtain ⟨named, apart⟩ := requests_address_resources client
  obtain ⟨rest, path, texts⟩ := named _ _ sent
  have stem : client.base.stem = [] := by decide
  rw [stem] at path
  refine ⟨sent, otherSent, fits, ⟨rest, path, ?_⟩, fun same => ?_⟩
  · exact texts.mpr fun argument member => (fits argument (List.mem_append_left _ member)).2
  · have equal := apart _ _ _ _ sent otherSent fits same
    exact absurd equal (by decide)

/-- A tab in an identifier leads to the link of another identifier, and a dot segment to no link
at all. -/
theorem deleteLink_addresses_another :
    let client : Client :=
      ⟨{ scheme := "http", host := some "localhost", port := some 8000, path := "/" }⟩
    (Client.ofConfig {}).toOption = some client ∧
    (client.deleteLink "a\tb").request.url = (client.deleteLink "ab").request.url ∧
    (client.deleteLink "a\tb").request.url.sentText =
      "http://localhost:8000/api/semantic-links/ab" ∧
    (client.deleteLink "..").request.url.sentText = "http://localhost:8000/api/semantic-links" := by
  refine ⟨by decide +kernel, ?_, ?_, ?_⟩ <;> decide

end Client

end CatalogBrowser
