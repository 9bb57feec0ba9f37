import ContactCards.Proofs.Markup.AddedAttributes
import ContactCards.Proofs.Reading.HiddenAttributes
import ContactCards.Proofs.Reading.StandardReading

/-! What attributes decide. Those of a group decide its label: it is the value of the first one with
the local name `name`, in whatever namespace. All others only show in elements that are kept as they
are. -/
namespace ContactCards

variable {allowed : String → Prop} {events events' : List Event} {ps : List PropertyElement}

/-- The attributes that a view of a group's label needs, and none of any other element. -/
def labelAttributes (view : Option String → Option String) (name : ExpandedName)
    (attributes : List Attribute) : List Attribute :=
  if name = .group then ((view (attribute? attributes "name")).map (Attribute.mk "name")).toList
  else []

theorem showsLabels_labelAttributes {view : Option String → Option String} (h : view none = none) :
    ShowsLabels (labelAttributes view) view := by
  refine ⟨h, fun attributes => ?_⟩
  rw [labelAttributes, if_pos rfl]
  cases view (attribute? attributes "name") <;> rfl

namespace Event

/-- The label that an event gives to a group, if it is the start of one. -/
def groupLabel? : Event → Option (Option String)
  | start name attributes => if name = .group then some (attribute? attributes "name") else none
  | _ => none

namespace Gain

/-- Without the labels of groups an event shows none of its attributes. -/
theorem unlabelled {event event' : Event} (h : Gain allowed event event') :
    event'.mapAttributes (labelAttributes fun _ => none) =
      event.mapAttributes (labelAttributes fun _ => none) := by
  cases h with
  | same => rfl
  | start name => by_cases hname : name = .group <;> simp [mapAttributes, labelAttributes, hname]

/-- But for the labels of groups an event shows none of its attributes. -/
theorem labelled {event event' : Event} (h : Gain allowed event event')
    (hlabel : event'.groupLabel? = event.groupLabel?) :
    event'.mapAttributes (labelAttributes id) = event.mapAttributes (labelAttributes id) := by
  cases h with
  | same => rfl
  | @start name attributes attributes' =>
    by_cases hname : name = .group
    · have hlabel : attribute? attributes' "name" = attribute? attributes "name" := by
        simpa [groupLabel?, hname] using hlabel
      simp [mapAttributes, labelAttributes, hlabel]
    · simp [mapAttributes, labelAttributes, hname]

/-- A group keeps its label unless attributes called `name` may be added. -/
theorem groupLabel?_eq {event event' : Event} (hname : ¬ allowed "name")
    (h : Gain allowed event event') : event'.groupLabel? = event.groupLabel? := by
  cases h with
  | same => rfl
  | start name hstay => rw [groupLabel?, groupLabel?, hstay "name" hname]

/-- What one event with attributes added shows as before, all do. -/
theorem map_eq {β : Type} {f : Event → β}
    (hf : ∀ event event', Gain allowed event event' → f event' = f event)
    (h : List.Forall₂ (Gain allowed) events events') : events'.map f = events.map f := by
  induction h with
  | nil => rfl
  | cons hfirst _ ih => rw [List.map_cons, List.map_cons, hf _ _ hfirst, ih]

theorem map_labelled (h : List.Forall₂ (Gain allowed) events events')
    (hlabels : events'.map groupLabel? = events.map groupLabel?) :
    events'.map (mapAttributes (labelAttributes id)) =
      events.map (mapAttributes (labelAttributes id)) := by
  induction h with
  | nil => rfl
  | cons hfirst _ ih =>
    obtain ⟨hlabel, hlabels⟩ := List.cons.inj hlabels
    rw [List.map_cons, List.map_cons, hfirst.labelled hlabel, ih hlabels]

end Gain

end Event

namespace Element

/-- The labels of the property elements of a card, in order. -/
def groupLabels (card : Element) : List (Option String) :=
  card.elements.flatMap fun e =>
    if e.name = .group then e.elements.map fun _ => e.attribute? "name" else [none]

theorem labels_propertyElements (card : Element) :
    card.propertyElements.map PropertyElement.label = card.groupLabels := by
  rw [propertyElements, groupLabels, List.map_flatMap]
  refine List.flatMap_congr fun e _ => ?_
  by_cases hgroup : e.name = .group
  · rw [if_pos hgroup, if_pos hgroup, List.map_map]
    rfl
  · rw [if_neg hgroup, if_neg hgroup]
    rfl

end Element

theorem PropertyElement.groups_eq {qs : List Property} (h : List.Forall₂ Becomes ps qs) :
    qs.map Property.group = ps.map label := by
  induction h with
  | nil => rfl
  | cons hfirst _ ih => rw [List.map_cons, List.map_cons, hfirst.group, ih]

theorem Delivery.groups_ofProperties (card : Element) :
    (ofProperties .standard card.propertyElements).card.properties.map Property.group =
      card.groupLabels := by
  rw [PropertyElement.groups_eq (ofProperties_keepsAll card.propertyElements).properties,
    card.labels_propertyElements]

/-- The groups of the properties that a document is delivered with are the labels of its property
elements. -/
theorem Content.Completes.forall₂_groups {c : Content} {input : Input}
    (h : c.Completes input.transcript) :
    List.Forall₂ (fun d card => d.card.properties.map Property.group = card.groupLabels)
      (input.deliveries .standard) (c.cards.take (input.deliveries .standard).length) := by
  have htaken := List.prefix_iff_eq_take.mp (h.deliveries_prefix .standard)
  rw [← List.map_take] at htaken
  generalize c.cards.take (input.deliveries .standard).length = cards at htaken ⊢
  rw [htaken, List.forall₂_map_left_iff, List.forall₂_same]
  intro card _
  exact Delivery.groups_ofProperties card

/-- If the events of an input are those of a tree, there is a delivery for each of its cards. -/
theorem Input.groups_eq {tree : Content} {input : Input}
    (h : input.transcript.events = tree.events) :
    (input.deliveries .standard).map (fun d => d.card.properties.map Property.group) =
      tree.cards.map Element.groupLabels := by
  rw [tree.deliveries_eq h, List.map_map]
  exact List.map_congr_left fun card _ => Delivery.groups_ofProperties card

/-- Attributes that are added to elements of a document reach the elements that are kept as they
are, and the labels of groups: with the standard decoders nothing else of what is delivered changes,
and there is a fault just if there was one. If none of them is called `name`, or if they leave the
labels as they were, the labels stay too. The label of a group is the value of its first attribute
with the local name `name`, and outside of groups there is none. -/
theorem attributes_reach_labels (allowed : String → Prop) (document document' : List UInt8)
    (h : GainsAttributes allowed document document') :
    let before := (Input.document document).read .standard .collect []
    let after := (Input.document document').read .standard .collect []
    after.2.isSome = before.2.isSome ∧
    after.1.map (Delivery.hideAttributes fun _ => none) =
      before.1.map (Delivery.hideAttributes fun _ => none) ∧
    ((¬ allowed "name" ∨ (Transcript.ofDocument document').events.map Event.groupLabel? =
        (Transcript.ofDocument document).events.map Event.groupLabel?) →
      after.1.map (Delivery.hideAttributes id) = before.1.map (Delivery.hideAttributes id)) ∧
    ∃ tree : Content, tree.Completes (Transcript.ofDocument document') ∧
      List.Forall₂ (fun d card => d.card.properties.map Property.group = card.groupLabels)
        after.1 (tree.cards.take after.1.length) := by
  intro before after
  obtain ⟨hevents, hfault⟩ := Transcript.gain h
  have hbefore : before = _ := Input.read_collect _ _
  have hafter : after = _ := Input.read_collect _ _
  rw [hbefore, hafter]
  have hstandard : ∀ d ∈ Registry.standard.decoders, d.SeesOutline :=
    fun _ => Registry.seesOutline_standard
  refine ⟨hfault, ?_, fun hlabels => ?_, ?_⟩
  · -- Without the labels nothing of the attributes is left that decides anything.
    have hhidden := Event.Gain.map_eq (fun _ _ => Event.Gain.unlabelled) hevents
    exact Input.deliveries_eq_of_mapAttributes hstandard (showsLabels_labelAttributes rfl) hhidden
  · have hshown : (Transcript.ofDocument document').events.map Event.groupLabel? =
        (Transcript.ofDocument document).events.map Event.groupLabel? := by
      rcases hlabels with hname | hlabels
      · exact Event.Gain.map_eq (fun _ _ => Event.Gain.groupLabel?_eq hname) hevents
      · exact hlabels
    exact Input.deliveries_eq_of_mapAttributes hstandard (showsLabels_labelAttributes rfl)
      (Event.Gain.map_labelled hevents hshown)
  · obtain ⟨tree, htree⟩ := (Input.document document').exists_completes
    exact ⟨tree, htree, htree.forall₂_groups⟩

/-- A document with a group, before and after the group gains an attribute of another namespace. -/
theorem attributes_reach_labels_id :
    let document := Utf8.encode
      ("<vcards xmlns='urn:ietf:params:xml:ns:vcard-4.0' xmlns:x='urn:x'><vcard>" ++
        "<group name='b'><note><text>t</text></note></group></vcard></vcards>")
    let document' := Utf8.encode
      ("<vcards xmlns='urn:ietf:params:xml:ns:vcard-4.0' xmlns:x='urn:x'><vcard>" ++
        "<group x:id='a' name='b'><note><text>t</text></note></group></vcard></vcards>")
    GainsAttributes (· = "id") document document' ∧
      ((Input.document document').read .standard .collect []).1.map (Delivery.hideAttributes id) =
        ((Input.document document).read .standard .collect []).1.map
          (Delivery.hideAttributes id) := by
  intro document document'
  let before : List Token :=
    [.startTag (Utf8.encode "vcards xmlns='urn:ietf:params:xml:ns:vcard-4.0' xmlns:x='urn:x'"),
      .startTag (Utf8.encode "vcard")]
  let after : List Token :=
    [.startTag (Utf8.encode "note"), .startTag (Utf8.encode "text"), .text (Utf8.encode "t"),
      .endTag (Utf8.encode "text"), .endTag (Utf8.encode "note"), .endTag (Utf8.encode "group"),
      .endTag (Utf8.encode "vcard"), .endTag (Utf8.encode "vcards")]
  let content := Utf8.encode "group name='b'"
  let content' := Utf8.encode "group x:id='a' name='b'"
  have hscan : Token.scan document = (before ++ .startTag content :: after, none) := by
    decide +kernel
  have hscan' : Token.scan document' = (before ++ .startTag content' :: after, none) := by
    decide +kernel
  have hsplit : Nesting.splitSlash content = (content, false) := by decide +kernel
  have hsplit' : Nesting.splitSlash content' = (content', false) := by decide +kernel
  have hlist (distinct : Bool) : RawAttribute.scan distinct content =
      ([⟨Utf8.encode "name", 6, Utf8.encode "b"⟩], none) := by
    cases distinct <;> decide +kernel
  have hlist' (distinct : Bool) : RawAttribute.scan distinct content' =
      ([⟨Utf8.encode "x:id", 6, Utf8.encode "a"⟩, ⟨Utf8.encode "name", 15, Utf8.encode "b"⟩],
        none) := by
    cases distinct <;> decide +kernel
  have hread : Nesting.readAttribute ⟨Utf8.encode "x:id", 6, Utf8.encode "a"⟩ =
      .ok (some ⟨"id", "a"⟩) := by cbv
  have htag : Nesting.TagGain (· = "id") content content' := by
    refine ⟨?_, ?_, fun distinct => ?_, ?_⟩
    · rw [hsplit, hsplit']
    · decide +kernel
    · rw [hsplit, hsplit', hlist, hlist']
      exact .add hread rfl (.keep _ _ _ _ .nil)
    · rw [hsplit, hsplit', hlist, hlist']
  have hgain : GainsAttributes (· = "id") document document' := .of_startTag hscan hscan' htag
  exact ⟨hgain, (attributes_reach_labels (· = "id") document document' hgain).2.2.1
    (Or.inl (by decide))⟩

/-- An attribute of another namespace becomes the label of a group that has a label of its own. -/
theorem foreign_attribute_labels :
    let document := Utf8.encode
      ("<vcards xmlns='urn:ietf:params:xml:ns:vcard-4.0' xmlns:x='urn:x'><vcard>" ++
        "<group name='b'><note><text>t</text></note></group></vcard></vcards>")
    let document' := Utf8.encode
      ("<vcards xmlns='urn:ietf:params:xml:ns:vcard-4.0' xmlns:x='urn:x'><vcard>" ++
        "<group x:name='a' name='b'><note><text>t</text></note></group></vcard></vcards>")
    let groups (document : List UInt8) : List (List (Option String)) :=
      ((Input.document document).read .standard .collect []).1.map fun d =>
        d.card.properties.map Property.group
    groups document = [[some "b"]] ∧ groups document' = [[some "a"]] := by
  intro document document' groups
  let tree (attributes : List Attribute) : Content := .element .vcards []
    (.element .vcard [] (.element .group attributes (.element (.card "note") []
      (.element (.card "text") [] (.text "t" .empty) .empty) .empty) .empty) .empty) .empty
  have hevents : (Transcript.ofDocument document).events =
      [.start .vcards [], .start .vcard [], .start .group [⟨"name", "b"⟩],
        .start (.card "note") [], .start (.card "text") [], .characters "t",
        .finish, .finish, .finish, .finish, .finish] := by decide +kernel
  have hevents' : (Transcript.ofDocument document').events =
      [.start .vcards [], .start .vcard [], .start .group [⟨"name", "a"⟩, ⟨"name", "b"⟩],
        .start (.card "note") [], .start (.card "text") [], .characters "t",
        .finish, .finish, .finish, .finish, .finish] := by decide +kernel
  have hgroups : groups document = (tree [⟨"name", "b"⟩]).cards.map Element.groupLabels := by
    simp only [groups, Input.read_collect]
    exact Input.groups_eq hevents
  have hgroups' : groups document' =
      (tree [⟨"name", "a"⟩, ⟨"name", "b"⟩]).cards.map Element.groupLabels := by
    simp only [groups, Input.read_collect]
    exact Input.groups_eq hevents'
  exact ⟨hgroups, hgroups'⟩

end ContactCards
