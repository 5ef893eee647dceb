import CatalogBrowser.Proofs.Lineage.WellFormed

/-!
Who stands where around a property: its super-properties and its sub-properties on the left, its
domain and its range on the right.  The ids of different parts begin differently, so an identifier
that plays several parts has a node in each of them.
-/

namespace CatalogBrowser

theorem LineageRole.idStem_append_inj {first second : LineageRole} {left right : String}
    (stem : first.idStem ≠ "") (stem' : second.idStem ≠ "")
    (same : first.idStem ++ left = second.idStem ++ right) :
    first.idStem = second.idStem ∧ left = right := by
  have begins (role : LineageRole) (text : String) (stem : role.idStem ≠ "") :
      (role.idStem ++ text).toList.head? = role.idStem.toList.head? := by
    rw [String.toList_append, List.head?_append_of_ne_nil]
    simpa using stem
  have letter : first.idStem.toList.head? = second.idStem.toList.head? := by
    rw [← begins first left stem, same, begins second right stem']
  -- no two stems begin with the same letter
  have stems : first.idStem = second.idStem := by
    revert letter
    cases first <;> cases second <;> decide
  rw [stems, String.append_right_inj] at same
  exact ⟨stems, same⟩

namespace Lineage

def subPropertiesOf (hierarchy : Neighbourhood) : List Iri :=
  ((hierarchy.children.map Concept.iri ++ hierarchy.concept.children).filter fun iri =>
    iri ≠ hierarchy.concept.iri).eraseDups

def superPropertyPlace (hierarchy : Neighbourhood) (layout : Geometry) (index : Nat) (iri : Iri) :
    Place where
  iri
  role := .parentProperty
  position := ⟨spread (layout.centerX - layout.sideOffset) index (parentsOf hierarchy).length
    layout.horizontalSpacing, layout.centerY - layout.verticalSpacing⟩

def subPropertyPlace (hierarchy : Neighbourhood) (layout : Geometry) (index : Nat) (iri : Iri) :
    Place where
  iri
  role := .childProperty
  position := ⟨spread (layout.centerX - layout.sideOffset) index (subPropertiesOf hierarchy).length
    layout.horizontalSpacing, layout.centerY + layout.verticalSpacing⟩

def domainPlace (layout : Geometry) (iri : Iri) : Place where
  iri
  role := .domain
  position := ⟨layout.centerX + layout.sideOffset, layout.centerY - layout.verticalSpacing⟩

def rangePlace (layout : Geometry) (iri : Iri) : Place where
  iri
  role := if iri.isLiteralType then .datatype else .range
  position := ⟨layout.centerX + layout.sideOffset, layout.centerY + layout.verticalSpacing⟩

def propertyPlacesOf (hierarchy : Neighbourhood) (layout : Geometry) : List Place :=
  (parentsOf hierarchy).mapIdx (superPropertyPlace hierarchy layout) ++
    (subPropertiesOf hierarchy).mapIdx (subPropertyPlace hierarchy layout) ++
    hierarchy.concept.domain.toList.map (domainPlace layout) ++
    hierarchy.concept.range.toList.map (rangePlace layout)

/-! The ids of the parts -/

def idsOf (role : LineageRole) (iris : List Iri) : List String :=
  iris.map fun iri => role.idStem ++ iri.text

theorem nodup_idsOf (role : LineageRole) {iris : List Iri} (nodup : iris.Nodup) :
    (idsOf role iris).Nodup := by
  refine nodup.map fun first second same => ?_
  exact Iri.text_injective (String.append_right_inj _ |>.mp same)

theorem disjoint_idsOf {first second : LineageRole} (apart : first.idStem ≠ "" ∧
    second.idStem ≠ "" ∧ first.idStem ≠ second.idStem) (iris iris' : List Iri) :
    (idsOf first iris).Disjoint (idsOf second iris') := by
  obtain ⟨stem, stem', different⟩ := apart
  intro id member member'
  obtain ⟨iri, _, rfl⟩ := List.mem_map.mp member
  obtain ⟨iri', _, same⟩ := List.mem_map.mp member'
  exact different (LineageRole.idStem_append_inj stem stem' same.symm).1

theorem ids_propertyPlacesOf (hierarchy : Neighbourhood) (layout : Geometry) :
    (propertyPlacesOf hierarchy layout).map Place.id =
      idsOf .parentProperty (parentsOf hierarchy) ++
        idsOf .childProperty (subPropertiesOf hierarchy) ++
        idsOf .domain hierarchy.concept.domain.toList ++
        idsOf .range hierarchy.concept.range.toList := by
  have literal (iri : Iri) : (rangePlace layout iri).id = LineageRole.range.idStem ++ iri.text := by
    rw [Place.id, rangePlace]
    cases iri.isLiteralType <;> rfl
  have named (index : Nat) (iri : Iri) : (superPropertyPlace hierarchy layout index iri).id =
    LineageRole.parentProperty.idStem ++ iri.text := rfl
  have named' (index : Nat) (iri : Iri) : (subPropertyPlace hierarchy layout index iri).id =
    LineageRole.childProperty.idStem ++ iri.text := rfl
  rw [propertyPlacesOf, List.map_append, List.map_append, List.map_append, List.map_map,
    List.map_map]
  congr 1
  · congr 1
    congr 1
    · exact map_mapIdx_of_named named _
    · exact map_mapIdx_of_named named' _
  · exact List.map_congr_left fun iri _ => literal iri

theorem nodup_ids_propertyPlacesOf (hierarchy : Neighbourhood) (layout : Geometry) :
    ((propertyPlacesOf hierarchy layout).map Place.id).Nodup := by
  have single (role : LineageRole) (choice : Option Iri) : (idsOf role choice.toList).Nodup := by
    cases choice <;> simp [idsOf]
  have supers : (idsOf .parentProperty (parentsOf hierarchy)).Nodup :=
    nodup_idsOf _ (nodup_eraseDups _)
  have subs : (idsOf .childProperty (subPropertiesOf hierarchy)).Nodup :=
    nodup_idsOf _ (nodup_eraseDups _)
  rw [ids_propertyPlacesOf]
  refine ((supers.append subs ?_).append (single .domain _) ?_).append (single .range _) ?_
  · exact disjoint_idsOf (by decide) _ _
  · rw [List.disjoint_append_left]
    exact ⟨disjoint_idsOf (by decide) _ _, disjoint_idsOf (by decide) _ _⟩
  · rw [List.disjoint_append_left, List.disjoint_append_left]
    exact ⟨⟨disjoint_idsOf (by decide) _ _, disjoint_idsOf (by decide) _ _⟩,
      disjoint_idsOf (by decide) _ _⟩

namespace Setting

section

variable {setting : Setting}

theorem superProperties_eq : setting.superProperties = parentsOf setting.hierarchy :=
  classParents_eq

theorem subProperties_eq : setting.subProperties = subPropertiesOf setting.hierarchy := by
  rw [subProperties, neighbours, distinct_eq_eraseDups, subPropertiesOf]
  simp only [List.mem_singleton, focal]

theorem propertyParts_depicted (setting : Setting) : List.Forall₂
    (fun place part => Depicts setting.hierarchy setting.lookup place part.1)
    (propertyPlacesOf setting.hierarchy setting.layout) setting.propertyParts := by
  have domain : List.Forall₂
      (fun place part => Depicts setting.hierarchy setting.lookup place part.1)
      (setting.hierarchy.concept.domain.toList.map (domainPlace setting.layout))
      (setting.focal.domain.map setting.domainPart).toList := by
    rw [focal]
    cases setting.hierarchy.concept.domain with
    | none => exact .nil
    | some iri => exact .cons (node_depicts _ rfl) .nil
  have range : List.Forall₂
      (fun place part => Depicts setting.hierarchy setting.lookup place part.1)
      (setting.hierarchy.concept.range.toList.map (rangePlace setting.layout))
      (setting.focal.range.map setting.rangePart).toList := by
    rw [focal]
    cases setting.hierarchy.concept.range with
    | none => exact .nil
    | some iri =>
        refine .cons (node_depicts _ ?_) .nil
        cases iri.isLiteralType <;> rfl
  refine List.rel_append (List.rel_append (List.rel_append ?_ ?_) domain) range
  · rw [← superProperties_eq]
    refine forall₂_mapIdx (fun index iri => ?_) _
    rw [superPropertyPlace, ← superProperties_eq]
    exact node_depicts _ rfl
  · rw [← subProperties_eq]
    refine forall₂_mapIdx (fun index iri => ?_) _
    rw [subPropertyPlace, ← subProperties_eq]
    exact node_depicts _ rfl

theorem added_of_property (property : setting.focal.isProperty = true) :
    setting.added = setting.propertyParts.filter fun part =>
      LineageGraph.partId part ∉ [setting.focusId] := by
  rw [added, parts, if_pos property]
  refine firstBy_eq_filter ?_
  have ids := ids_of_depicted setting.propertyParts_depicted
  exact ids ▸ nodup_ids_propertyPlacesOf ..

end

end Setting

/-- Around a property every part has a node of its own, unless its id is that of the focus. -/
theorem nodes_around_property (hierarchy : Neighbourhood) (lookup : ConceptFinder)
    (layout : Geometry) (property : hierarchy.concept.isProperty = true) :
    let focus : Place := ⟨hierarchy.concept.iri, .focus, ⟨layout.centerX, layout.centerY⟩⟩
    let places := propertyPlacesOf hierarchy layout
    (places.map Place.id).Nodup ∧
      List.Forall₂ (Depicts hierarchy lookup)
        (focus :: places.filter fun place => place.id ≠ focus.iri.text)
        (graphOf hierarchy lookup layout).nodes := by
  intro focus places
  let setting : Setting := ⟨hierarchy, lookup, layout⟩
  refine ⟨nodup_ids_propertyPlacesOf hierarchy layout, ?_⟩
  have added : setting.added = _ := Setting.added_of_property property
  rw [graphOf, Setting.nodes_graph, added]
  refine List.rel_append setting.focus_depicted ?_
  rw [List.forall₂_map_right_iff]
  refine List.rel_filter ?_ setting.propertyParts_depicted
  intro place part shown
  simp [LineageGraph.partId, shown.id, Setting.focusId, Setting.focal, setting, focus]

theorem nodes_around_property_of_one_relative :
    let x : Iri := ⟨"X", by decide⟩
    let focal : Concept := {
      iri := ⟨"range-X", by decide⟩
      conceptType := .property
      parents := [x, ⟨"range-X", by decide⟩]
      children := [x]
      domain := some x
      range := some x }
    let super : Concept := { iri := ⟨"Y", by decide⟩, conceptType := .property }
    let hierarchy : Neighbourhood := { concept := focal, parents := [super] }
    focal.isProperty = true ∧
      (graphOf hierarchy (fun _ => none) {}).nodes.map LineageNode.id =
        ["range-X", "parent-prop-Y", "parent-prop-X", "child-prop-X", "domain-X"] := by
  intro x focal super hierarchy
  have property : focal.isProperty = true := rfl
  have shown := (nodes_around_property hierarchy (fun _ => none) {} property).2
  have ids := @ids_of_depicted LineageNode hierarchy _ _ _ (fun node => node) shown
  exact ⟨property, ids.trans (by decide)⟩

end Lineage

end CatalogBrowser
