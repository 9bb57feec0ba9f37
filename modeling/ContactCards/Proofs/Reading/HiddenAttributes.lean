import ContactCards.Proofs.Markup.MappedAttributes
import ContactCards.Proofs.Reading.Conservation

/-! Reading trees with other attributes. Decoders that see the outline of an element do not see its
attributes, so a delivery shows them in two places: in the elements that are kept as they are, and
in the labels of groups. -/
namespace ContactCards

variable {f : ExpandedName → List Attribute → List Attribute}
  {view : Option String → Option String} {r : Registry}

/-- A property without the attributes of the element that it keeps, if it keeps one, and with only
a view of its group. -/
def Property.hideAttributes (view : Option String → Option String) (q : Property) : Property :=
  match q.value with
  | .xml e => { q with group := view q.group, value := .xml e.bare, raw := "" }
  | _ => { q with group := view q.group }

/-- A warning without the element that it quotes. -/
def Warning.hideDetail (w : Warning) : Warning :=
  { w with detail := none }

/-- A delivery without the attributes of the elements that it keeps, and with only a view of the
groups. -/
def Delivery.hideAttributes (view : Option String → Option String) (d : Delivery) : Delivery :=
  ⟨⟨d.card.version, d.card.properties.map (Property.hideAttributes view)⟩,
    d.warnings.map Warning.hideDetail⟩

/-- Other attributes leave a view of the labels of groups. Properties outside of groups have no
label, whatever the view is. -/
structure ShowsLabels (f : ExpandedName → List Attribute → List Attribute)
    (view : Option String → Option String) : Prop where
  outside : view none = none
  group : ∀ attributes,
    attribute? (f .group attributes) "name" = view (attribute? attributes "name")

namespace Content

theorem lastText_mapAttributes (c : Content) (s : String) :
    (c.mapAttributes f).lastText s = c.lastText s := by
  induction c generalizing s with
  | empty => rfl
  | text t rest ih => exact ih (s ++ t)
  | element name attributes inner rest _ ih => exact ih ""

theorem withoutBlocks_mapAttributes (c : Content) :
    (c.mapAttributes f).withoutBlocks = c.withoutBlocks.mapAttributes f := by
  induction c with
  | empty => rfl
  | text s rest ih => exact congrArg (text s) ih
  | element name attributes inner rest _ ih =>
    by_cases h : name = .parameters <;> simp [mapAttributes, withoutBlocks, h, ih]

end Content

namespace Element

theorem puts_mapAttributes (e : Element) : (e.mapAttributes f).puts = e.puts := by
  rw [puts, puts, cardElements_mapAttributes, List.map_map]
  refine List.map_congr_left fun value _ => ?_
  exact congrArg (e.localName, ·) (value.content.lastText_mapAttributes "")

theorem parameterPuts_mapAttributes (e : Element) :
    (e.mapAttributes f).parameterPuts = e.parameterPuts := by
  simp only [parameterPuts, elements_mapAttributes, List.filter_map, List.flatMap_map,
    cardElements_mapAttributes, puts_mapAttributes]
  rfl

end Element

/-- A property element with other attributes, in a group of which there is a view. -/
def PropertyElement.mapAttributes (f : ExpandedName → List Attribute → List Attribute)
    (view : Option String → Option String) (p : PropertyElement) : PropertyElement :=
  ⟨p.name, view p.label, p.element.mapAttributes f, p.parameters⟩

theorem Element.asProperty_mapAttributes (e : Element) (label : Option String) :
    (e.mapAttributes f).asProperty (view label) = (e.asProperty label).mapAttributes f view := by
  have hcontent : (e.mapAttributes f).content.withoutBlocks.tidy =
      e.content.withoutBlocks.tidy.mapAttributes f := by
    rw [Content.mapAttributes_tidy, ← Content.withoutBlocks_mapAttributes]
    rfl
  rw [asProperty, hcontent, parameterPuts_mapAttributes]
  rfl

/-- A tree with other attributes has the same property elements, with other attributes. -/
theorem Element.propertyElements_mapAttributes (h : ShowsLabels f view) (card : Element) :
    (card.mapAttributes f).propertyElements =
      card.propertyElements.map (PropertyElement.mapAttributes f view) := by
  simp only [propertyElements, elements_mapAttributes, List.flatMap_map, List.map_flatMap]
  refine List.flatMap_congr fun e _ => ?_
  by_cases hgroup : e.name = .group
  · have hlabel : (e.mapAttributes f).attribute? "name" = view (e.attribute? "name") := by
      rw [attribute?, attribute?, ← h.group, ← hgroup]
      rfl
    have hname : (e.mapAttributes f).name = .group := hgroup
    rw [if_pos hgroup, if_pos hname, hlabel, List.map_map, List.map_map]
    exact List.map_congr_left fun p _ => p.asProperty_mapAttributes _
  · have hname : (e.mapAttributes f).name ≠ .group := hgroup
    have hproperty : (e.mapAttributes f).asProperty (view none) =
        (e.asProperty none).mapAttributes f view := e.asProperty_mapAttributes none
    rw [h.outside] at hproperty
    rw [if_neg hgroup, if_neg hname, hproperty]
    rfl

namespace PropertyElement

/-- What a property element comes to shows its attributes in the element that is kept, if there is
one. -/
theorem outcome_mapAttributes (hr : ∀ d ∈ r.decoders, d.SeesOutline) (name : ExpandedName)
    (e : Element) (ps : Parameters) :
    (Reader.outcome r name (e.mapAttributes f) ps).1.map (Property.hideAttributes id) =
        (Reader.outcome r name e ps).1.map (Property.hideAttributes id) ∧
      (Reader.outcome r name (e.mapAttributes f) ps).2.map Warning.hideDetail =
        (Reader.outcome r name e ps).2.map Warning.hideDetail := by
  -- The two ways of keeping an element, without a decoder and after a failure, are one.
  have hkeep : (Decoder.keep (e.mapAttributes f) ps).property.hideAttributes id =
      (Decoder.keep e ps).property.hideAttributes id := by
    change Property.mk none (upper "XML") ps (.xml (e.mapAttributes f).bare) "" = _
    rw [Element.bare_mapAttributes]
    rfl
  rw [Reader.outcome, Reader.outcome]
  cases hget : r.get? name with
  | none => exact ⟨congrArg some hkeep, rfl⟩
  | some d =>
    have hsees : d.decode (e.mapAttributes f) ps = d.decode e ps :=
      hr d (List.mem_of_find?_eq_some hget) _ _ ps e.outline_mapAttributes
    dsimp only
    rw [hsees]
    cases d.decode e ps with
    | ok found => exact ⟨rfl, rfl⟩
    | error fault =>
      cases fault with
      | skip reason => exact ⟨rfl, rfl⟩
      | unreadable reason => exact ⟨congrArg some hkeep, rfl⟩
      | embeddedCard => exact ⟨rfl, rfl⟩

theorem hideAttributes_withGroup (q : Property) (label : Option String) :
    Property.hideAttributes view { q with group := label } =
      { q.hideAttributes id with group := view label } := by
  obtain ⟨group, name, parameters, value, raw⟩ := q
  cases value <;> rfl

theorem map_property? (p : PropertyElement) :
    (p.property? r).map (Property.hideAttributes view) =
      ((Reader.outcome r p.name p.element p.parameters).1.map (Property.hideAttributes id)).map
        ({ · with group := view p.label }) := by
  simp only [property?, Option.map_map, Function.comp_def, hideAttributes_withGroup]

theorem property?_mapAttributes (hr : ∀ d ∈ r.decoders, d.SeesOutline) (p : PropertyElement) :
    ((p.mapAttributes f view).property? r).map (Property.hideAttributes id) =
      (p.property? r).map (Property.hideAttributes view) := by
  rw [map_property?, map_property?]
  exact congrArg (Option.map _) (outcome_mapAttributes hr p.name p.element p.parameters).1

theorem warnings_mapAttributes (hr : ∀ d ∈ r.decoders, d.SeesOutline) (p : PropertyElement) :
    ((p.mapAttributes f view).warnings r).map Warning.hideDetail =
      (p.warnings r).map Warning.hideDetail :=
  (outcome_mapAttributes hr p.name p.element p.parameters).2

end PropertyElement

theorem Delivery.ofProperties_mapAttributes (hr : ∀ d ∈ r.decoders, d.SeesOutline)
    (ps : List PropertyElement) :
    (ofProperties r (ps.map (PropertyElement.mapAttributes f view))).hideAttributes id =
      (ofProperties r ps).hideAttributes view := by
  rw [ofProperties, ofProperties, concludeAll_eq, concludeAll_eq]
  simp only [hideAttributes, empty, Card.empty, List.nil_append, List.filterMap_map,
    List.map_filterMap, List.flatMap_map, List.map_flatMap, Function.comp_def,
    PropertyElement.property?_mapAttributes hr, PropertyElement.warnings_mapAttributes hr]

/-- A role in a tree with other attributes. -/
def Role.mapLabel (view : Option String → Option String) : Role → Role
  | .group label => .group (view label)
  | .property label => .property (view label)
  | role => role

/-- What is delivered at a tag, without attributes. -/
def Act.deliveryAt (view : Option String → Option String) (a : Option Act) : Option Delivery :=
  (a.bind delivery?).map (Delivery.hideAttributes view)

theorem Act.map_delivered (view : Option String → Option String) (js : List (Option Act)) :
    (delivered js).map (Delivery.hideAttributes view) =
      (js.map (deliveryAt view)).filterMap id := by
  rw [delivered, List.map_filterMap, List.filterMap_map]
  rfl

namespace Role

theorem child_mapLabel (h : ShowsLabels f view) (role : Role) (name : ExpandedName)
    (attributes : List Attribute) :
    (role.mapLabel view).child name (f name attributes) =
      (role.child name attributes).mapLabel view := by
  cases role with
  | outside => by_cases hname : name = .vcards <;> simp [mapLabel, child, hname]
  | collection => by_cases hname : name = .vcard <;> simp [mapLabel, child, hname]
  | card =>
    by_cases hname : name = .group
    · subst hname
      simp [mapLabel, child, h.group]
    · simp [mapLabel, child, hname, h.outside]
  | group label => rfl
  | property label => rfl
  | within => rfl

theorem deliveryAt_mapLabel (hr : ∀ d ∈ r.decoders, d.SeesOutline) (h : ShowsLabels f view)
    (role : Role) (e : Element) :
    Act.deliveryAt id ((role.mapLabel view).act? r (e.mapAttributes f)) =
      Act.deliveryAt view (role.act? r e) := by
  cases role with
  | card =>
    change some (Delivery.hideAttributes id _) = some (Delivery.hideAttributes view _)
    rw [Element.propertyElements_mapAttributes h, Delivery.ofProperties_mapAttributes hr]
  | outside => rfl
  | collection => rfl
  | group label => rfl
  | property label => rfl
  | within => rfl

end Role

/-- At each tag of a tree with other attributes the same is delivered. -/
theorem Content.deliveryAt_mapAttributes (hr : ∀ d ∈ r.decoders, d.SeesOutline)
    (h : ShowsLabels f view) (c : Content) (role : Role) :
    ((c.mapAttributes f).acts r (role.mapLabel view)).map (Act.deliveryAt id) =
      (c.acts r role).map (Act.deliveryAt view) := by
  induction c generalizing role with
  | empty => rfl
  | text s rest ih => exact ih role
  | element name attributes inner rest ihi ihr =>
    have hact := (role.child name attributes).deliveryAt_mapLabel hr h ⟨name, attributes, inner⟩
    simp only [mapAttributes, acts, Role.child_mapLabel h, List.map_cons, List.map_append, ihi, ihr]
    rw [← hact]
    rfl

theorem Event.tags_map (events : List Event) :
    tags (events.map (mapAttributes f)) = tags events := by
  rw [tags, tags, List.countP_map]
  refine List.countP_congr fun event _ => ?_
  cases event <;> rfl

/-- Inputs whose events differ in what a change of attributes hides are delivered alike, as far as a
view of the labels that the change leaves shows them. -/
theorem Input.deliveries_eq_of_mapAttributes (hr : ∀ d ∈ r.decoders, d.SeesOutline)
    (h : ShowsLabels f view) {input input' : Input}
    (hevents : input'.transcript.events.map (Event.mapAttributes f) =
      input.transcript.events.map (Event.mapAttributes f)) :
    (input'.deliveries r).map (Delivery.hideAttributes view) =
      (input.deliveries r).map (Delivery.hideAttributes view) := by
  obtain ⟨c, hc⟩ := input.exists_completes
  obtain ⟨c', hc'⟩ := input'.exists_completes
  have htree : c'.mapAttributes f = c.mapAttributes f := hc.mapAttributes_eq hc' hevents
  have htags : Event.tags input'.transcript.events = Event.tags input.transcript.events := by
    rw [← Event.tags_map (f := f), hevents, Event.tags_map]
  -- The trees may differ, but not in what the change leaves, and nothing else is delivered.
  have hacts : (c'.acts r .outside).map (Act.deliveryAt view) =
      (c.acts r .outside).map (Act.deliveryAt view) := by
    rw [← c'.deliveryAt_mapAttributes hr h, htree, c.deliveryAt_mapAttributes hr h]
  rw [deliveries, deliveries, Reader.deliveries, Reader.deliveries, hc.journal_eq, hc'.journal_eq,
    Act.map_delivered, Act.map_delivered, List.map_take, List.map_take, hacts, htags]

end ContactCards
