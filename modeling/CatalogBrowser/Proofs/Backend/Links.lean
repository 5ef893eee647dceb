import CatalogBrowser.Backend.Client
import CatalogBrowser.Backend.Exchange
import CatalogBrowser.Proofs.Concept.Leniency
import CatalogBrowser.Proofs.Json.Members
import CatalogBrowser.Proofs.Text.Trimming

/-!
New links: what is checked before one is sent, and what is sent.

An identifier is checked without the blanks around it but sent with them.  So what is sent is what
was checked, and names a concept at all, only if there are none.
-/

namespace CatalogBrowser

namespace Iri

theorem ofText_of_trimmed {text : String} {iri : Iri} (trimmed : iri.text = Text.trim text) :
    ofText text = if text = iri.text then .ok iri else .error (.invalid text) := by
  split
  · next same =>
    subst same
    exact ofText_of_usable iri.usable
  · next blanks =>
    have visible : Text.isBlankText text = false := by
      rw [Bool.eq_false_iff]
      intro blank
      have nothing : Text.trimChars text.toList = [] := Text.trimChars_eq_nil_iff.mpr blank
      have usable := iri.usable
      rw [trimmed, Text.trim, nothing, String.toList_ofList] at usable
      exact Bool.noConfusion usable
    rw [ofText, visible, if_neg Bool.false_ne_true, dif_neg]
    intro usable
    refine blanks ?_
    rw [trimmed, Text.trim, Text.trimChars_eq_self (visible_of_usable usable),
      String.ofList_toList]

end Iri

def Exchange.attempt {α : Type} (exchange : Exchange) :
    Except Error (Call α) → Exchange × Except Error α
  | .ok call => exchange.perform call
  | .error error => (exchange, .error error)

namespace LinkDraft

/-- The fields that cannot be sent, in the order in which they are checked. -/
def faultyFields (draft : LinkDraft) : List String :=
  ([("entity_id", Text.isBlankText draft.entityId),
    ("entity_type", Text.isBlankText draft.entityType),
    ("iri", !Iri.usableChars (Text.trim draft.iri).toList)].filter Prod.snd).map Prod.fst

theorem checked_cases (draft : LinkDraft) :
    match draft.faultyFields with
    | field :: _ => ∃ reason, draft.checked = .error (.validation field reason)
    | [] => ∃ iri, draft.checked = .ok iri ∧ iri.text = Text.trim draft.iri := by
  unfold checked faultyFields
  cases Text.isBlankText draft.entityId with
  | true => exact ⟨_, rfl⟩
  | false =>
      cases Text.isBlankText draft.entityType with
      | true => exact ⟨_, rfl⟩
      | false =>
          cases usable : Iri.usableChars (Text.trim draft.iri).toList with
          | false =>
              obtain ⟨cause, refused⟩ := Iri.ofText_of_unusable usable
              rw [refused]
              exact ⟨_, rfl⟩
          | true =>
              rw [Iri.ofText_of_usable usable]
              exact ⟨_, rfl, rfl⟩

def storedAs (key : String) (body : Json) : Json :=
  .object (("id", .string key) :: body.members?.getD [])

def storedMembers (draft : LinkDraft) (key : String) : List (String × Option Json) :=
  [("id", some (.string key)), ("entity_id", some (.string draft.entityId)),
    ("entity_type", some (.string draft.entityType)), ("iri", some (.string draft.iri)),
    ("label", draft.label.map .string)]

theorem storedAs_toJson (draft : LinkDraft) (key : String) :
    storedAs key draft.toJson = .ofMembers (draft.storedMembers key) := rfl

theorem member?_iri_toJson (draft : LinkDraft) :
    draft.toJson.member? "iri" = some (.string draft.iri) := by
  unfold toJson
  cases draft.label <;> rfl

theorem ofJson?_storedAs (draft : LinkDraft) (key : String) :
    SemanticLink.ofJson? (storedAs key draft.toJson) = (Iri.ofText? draft.iri).map fun iri =>
      { id := key, entityId := draft.entityId, entityType := draft.entityType, iri,
        label := draft.label } := by
  have named : (draft.storedMembers key).map Prod.fst = SemanticLink.memberNames := rfl
  obtain ⟨record, view, found⟩ := Json.rearranges_id.exists_record named (by decide)
  have ownId : Json.required? record "id" Json.text? = some key :=
    Json.required?_of_lookup (found "id") rfl
  have entityId : Json.required? record "entity_id" Json.text? = some draft.entityId :=
    Json.required?_of_lookup (found "entity_id") rfl
  have entityType : Json.required? record "entity_type" Json.text? = some draft.entityType :=
    Json.required?_of_lookup (found "entity_type") rfl
  have iri : Json.required? record "iri" Iri.ofJson? = Iri.ofText? draft.iri := by
    rw [Json.required?, found "iri"]
    rfl
  have label : Json.optional? record "label" Json.text? = some draft.label :=
    Json.optional?_of_lookup ((found "label").trans (Json.rearranges_id.map_strings id _))
      (fun _ => Json.noConfusion) fun _ => rfl
  rw [id_eq] at view
  rw [storedAs_toJson, SemanticLink.ofJson?, view]
  simp only [Option.bind_eq_bind, Option.bind_some, ownId, entityId, entityType, iri, label]
  cases Iri.ofText? draft.iri <;> rfl

end LinkDraft

namespace Client

theorem createLink_eq (client : Client) (draft : LinkDraft) :
    client.createLink draft = draft.checked.map fun _ => .ofJson
      { method := .post, url := client.resource ["api", "semantic-links", ""],
        body := some draft.toJson } SemanticLink.ofJson? := by
  unfold createLink
  cases draft.checked <;> rfl

/-- A link with a faulty field is refused without a request, and any other is posted with its
identifier as given, not as checked. -/
theorem links_are_sent_as_given (client : Client) (draft : LinkDraft) (exchange : Exchange) :
    match draft.faultyFields with
    | field :: _ => ∃ reason,
        exchange.attempt (client.createLink draft) = (exchange, .error (.validation field reason))
    | [] => ∃ iri call body,
        draft.checked = .ok iri ∧ iri.text = Text.trim draft.iri ∧
        exchange.attempt (client.createLink draft) = exchange.perform call ∧
        call.request.method = .post ∧ call.request.body = some body ∧
        body.member? "iri" = some (.string draft.iri) ∧
        (draft.iri = iri.text ↔ ∀ c ∈ draft.iri.toList, Text.isBlank c = false) ∧
        Iri.ofText draft.iri =
          (if draft.iri = iri.text then .ok iri else .error (.invalid draft.iri)) ∧
        ∀ key, SemanticLink.ofJson? (LinkDraft.storedAs key body) =
          if draft.iri = iri.text then
            some { id := key, entityId := draft.entityId, entityType := draft.entityType, iri,
                   label := draft.label }
          else none := by
  have cases := draft.checked_cases
  split at cases
  · obtain ⟨reason, refused⟩ := cases
    exact ⟨reason, by rw [createLink_eq, refused]; rfl⟩
  · obtain ⟨iri, accepted, trimmed⟩ := cases
    have given := Iri.ofText_of_trimmed trimmed
    refine ⟨iri, _, draft.toJson, accepted, trimmed, by rw [createLink_eq, accepted]; rfl, rfl, rfl,
      draft.member?_iri_toJson, ?_, given, fun key => ?_⟩
    · constructor
      · intro same
        rw [same]
        exact Iri.visible_of_usable iri.usable
      · intro visible
        rw [trimmed, Text.trim, Text.trimChars_eq_self visible, String.ofList_toList]
    · rw [draft.ofJson?_storedAs, Iri.ofText?, given]
      split <;> rfl

/-- A link is sent with a blank before an identifier that was checked without it. -/
theorem blank_is_sent_with_iri :
    let client : Client :=
      ⟨{ scheme := "http", host := some "localhost", port := some 8000, path := "/" }⟩
    let draft : LinkDraft :=
      { entityId := "orders", entityType := "table", iri := " http://ex.org/Order" }
    ∃ iri call, draft.checked = .ok iri ∧ client.createLink draft = .ok call ∧
      (call.request.body.bind fun body => body.member? "iri") = some (.string draft.iri) ∧
      draft.iri ≠ iri.text ∧ (Iri.ofText draft.iri).toOption = none ∧
      ∀ body ∈ call.request.body, SemanticLink.ofJson? (LinkDraft.storedAs "1" body) = none := by
  intro client draft
  have accepted : draft.checked = .ok ⟨"http://ex.org/Order", by decide⟩ := by decide
  have refused : (Iri.ofText draft.iri).toOption = none := by decide
  have made := client.createLink_eq draft
  rw [accepted] at made
  refine ⟨_, _, accepted, made, draft.member?_iri_toJson, by decide, refused, ?_⟩
  rintro _ ⟨⟩
  rw [draft.ofJson?_storedAs, Iri.ofText?, refused]
  rfl

end Client

end CatalogBrowser
