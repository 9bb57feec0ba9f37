import ContactCards.Proofs.Reading.Handing
import ContactCards.Proofs.Reading.PropertyRun

/-! Reading a document event by event comes to what its tree means. -/
namespace ContactCards

variable {r : Registry} {d : Delivery} {names below : List ExpandedName} {name : ExpandedName}
  {attributes : List Attribute} {text : String} {label : Option String}

namespace Reader

/-- In a group every child element is a property. -/
theorem runs_group (c : Content) (names : List ExpandedName) (d : Delivery) (text : String) :
    Runs r (d.between (.group label) names text) c.events (c.acts r (.group label))
      ((d.concludeAll r (c.elements.map (Element.asProperty label))).between (.group label) names
        (c.lastText text)) := by
  induction c generalizing d text with
  | empty => exact Runs.nil r _
  | text s rest ih => exact Runs.characters (ih d (text ++ s))
  | element name attributes inner rest _ ih =>
    rw [Content.acts, Role.child, Content.acts_property]
    exact runs_property inner (fun h => by cases h) (ih _ "")

theorem step_start_group :
    ((d.between .card names text).step r (.start .group attributes)).1 =
      d.between (.group (attribute? attributes "name")) (names ++ [.group]) "" := rfl

theorem step_finish_group :
    ((d.between (.group label) (names ++ [name]) text).step r .finish).1 =
      d.between .card names "" := by
  simp [step, finish, Delivery.between, Path.pop]

/-- In a card a child element is a group or a property. -/
theorem runs_card (c : Content) (n : ExpandedName) (as : List Attribute) (d : Delivery)
    (text : String) :
    Runs r (d.between .card names text) c.events (c.acts r .card)
      ((d.concludeAll r (Element.propertyElements ⟨n, as, c⟩)).between .card names
        (c.lastText text)) := by
  induction c generalizing d text with
  | empty => exact Runs.nil r _
  | text s rest ih => exact Runs.characters (ih d (text ++ s))
  | element name attributes inner rest _ ih =>
    by_cases hname : name = .group
    · subst name
      rw [Element.propertyElements_group, Delivery.concludeAll_append]
      apply Runs.child rfl
      · rw [step_start_group]
        exact runs_group inner (names ++ [.group]) d ""
      · rw [step_finish_group]
        exact ih _ ""
      · rfl
    · have hchild : Role.card.child name attributes = .property none := if_neg hname
      rw [Content.acts, hchild, Content.acts_property, Element.propertyElements_property hname]
      exact runs_property inner (fun _ => hname) (ih _ "")

/-- A place in a collection and in no card, with the elements around it inside the collection. -/
def inCollection (below : List ExpandedName) (text : String) : Reader :=
  ⟨⟨.vcards :: below⟩, text, [], .collection⟩

theorem step_start_within (h : below = [] → name ≠ .vcard) :
    ((inCollection below text).step r (.start name attributes)).1 =
      inCollection (below ++ [name]) "" := by
  have hcard : ¬ (Path.isAt ⟨.vcards :: below⟩ [.vcards] ∧ name = .vcard) := by
    rintro ⟨hat, hname⟩
    exact h (by simpa [Path.isAt] using hat) hname
  simp only [step, start, inCollection, hcard]
  rfl

theorem step_finish_within :
    ((inCollection (below ++ [name]) text).step r .finish).1 = inCollection below "" := by
  have hpop := Path.pop_append [.vcards] below name
  rw [List.singleton_append] at hpop
  simp [step, finish, inCollection, hpop, Path.isEmpty]

/-- Nothing happens in an element of a collection that is no card. -/
theorem runs_within (c : Content) (hb : below ≠ []) (text : String) :
    Runs r (inCollection below text) c.events (c.acts r .within)
      (inCollection below (c.lastText text)) := by
  induction c generalizing below text with
  | empty => exact Runs.nil r _
  | text s rest ih => exact Runs.characters (ih hb (text ++ s))
  | element name attributes inner rest ihi ihr =>
    have hb' : below ++ [name] ≠ [] := by simp
    apply Runs.child rfl
    · rw [step_start_within (absurd · hb)]
      exact ihi hb' ""
    · rw [step_finish_within]
      exact ihr hb ""
    · rfl

theorem step_start_card :
    ((inCollection [] text).step r (.start .vcard attributes)).1 =
      Delivery.empty.between .card [.vcards, .vcard] "" := rfl

theorem step_finish_card :
    ((d.between .card [.vcards, .vcard] text).step r .finish).1 = inCollection [] "" := rfl

/-- In a collection the cards are delivered. -/
theorem runs_collection (c : Content) (text : String) :
    Runs r (inCollection [] text) c.events (c.acts r .collection)
      (inCollection [] (c.lastText text)) := by
  induction c generalizing text with
  | empty => exact Runs.nil r _
  | text s rest ih => exact Runs.characters (ih (text ++ s))
  | element name attributes inner rest _ ih =>
    by_cases hname : name = .vcard
    · subst name
      apply Runs.child rfl
      · rw [step_start_card]
        exact runs_card inner .vcard attributes .empty ""
      · rw [step_finish_card]
        exact ih ""
      · rfl
    · have hb : [] ++ [name] ≠ [] := by simp
      have hchild : Role.collection.child name attributes = .within := if_neg hname
      apply Runs.child hchild
      · rw [step_start_within fun _ => hname]
        exact runs_within inner hb ""
      · rw [step_finish_within]
        exact ih ""
      · rfl

/-- A place outside of all collections. -/
def outside (text : String) : Reader :=
  { empty with text }

theorem step_start_outside (h : name ≠ .vcards) :
    ((outside text).step r (.start name attributes)).1 = outside "" := by
  simp [step, start, outside, empty, h]

theorem step_start_collection :
    ((outside text).step r (.start .vcards attributes)).1 = inCollection [] "" := rfl

/-- Outside of all collections every element but a collection is transparent. -/
theorem runs_outside (c : Content) (text : String) :
    Runs r (outside text) c.events (c.acts r .outside) (outside (c.lastText text)) := by
  induction c generalizing text with
  | empty => exact Runs.nil r _
  | text s rest ih => exact Runs.characters (ih (text ++ s))
  | element name attributes inner rest ihi ihr =>
    by_cases hname : name = .vcards
    · subst name
      apply Runs.child rfl
      · rw [step_start_collection]
        exact runs_collection inner ""
      · exact ihr ""
      · rfl
    · have hchild : Role.outside.child name attributes = .outside := if_neg hname
      apply Runs.child hchild
      · rw [step_start_outside hname]
        exact ihi ""
      · exact ihr ""
      · rfl

/-- Reading a document comes to what its tree means, however its character data is cut into runs.
Each tag brings about what the tree says, the decoders are told of the property elements and the
listener of the cards, both in document order. The decoders are consulted about nothing else. -/
theorem reads_as_tree (r : Registry) (e : Element) {events : List Event}
    (hevents : Event.condense events = Event.condense e.events) :
    Reader.empty.journal r events = e.asContent.acts r .outside ∧
    Act.decoded (Reader.empty.journal r events) =
      e.asContent.cards.flatMap Element.propertyElements ∧
    Reader.empty.deliveries r events =
      e.asContent.cards.map (Delivery.ofProperties r ·.propertyElements) ∧
    Reader.Consults r .empty events (e.asContent.cards.flatMap Element.propertyElements) ∧
    ∀ {σ : Type} (listener : Listener σ) (s : σ), listener.NeverStops →
      (Reader.sink r listener).feed (.empty, s) events =
        ((Reader.empty.after r events,
          listener.after s (e.asContent.cards.map (Delivery.ofProperties r ·.propertyElements))),
          .more) := by
  have hrun : Runs r .empty e.asContent.events (e.asContent.acts r .outside) _ :=
    runs_outside e.asContent ""
  have hjournal : Reader.empty.journal r events = e.asContent.acts r .outside :=
    (hrun.of_condense hevents).journal
  obtain ⟨hdecoded, hdelivered⟩ := Content.acts_outside (r := r) e.asContent
  have hdeliveries : Reader.empty.deliveries r events =
      e.asContent.cards.map (Delivery.ofProperties r ·.propertyElements) := by
    rw [deliveries, hjournal, hdelivered]
  have hconsulted : Act.decoded (Reader.empty.journal r events) =
      e.asContent.cards.flatMap Element.propertyElements := by
    rw [hjournal, hdecoded]
  refine ⟨hjournal, hconsulted, hdeliveries, ?_, ?_⟩
  · rw [← hconsulted]
    exact consults_journal r .empty events
  · intro σ listener s hs
    obtain ⟨hstate, hflow, hplace⟩ := feed_sink r listener .empty s events
    rw [hdeliveries, Listener.hand_of_neverStops hs] at hstate hflow hplace
    exact Prod.ext (Prod.ext (hplace rfl) hstate) hflow

/-- A property in a group with a label, its parameter block between two halves of its text, which
come in three runs. -/
theorem reads_as_tree_group :
    let note : Content := .element (.card "note") []
      (.text "a" (.element .parameters []
        (.element (.card "type") []
          (.element (.card "text") [] (.text "home" .empty) .empty) .empty)
        (.text "b" .empty))) .empty
    let e : Element := ⟨.vcards, [], .element .vcard []
      (.element .group [⟨"name", "work"⟩] note .empty) .empty⟩
    let events : List Event := [.start .vcards [], .start .vcard [], .characters "",
      .start .group [⟨"name", "work"⟩], .start (.card "note") [], .characters "a",
      .start .parameters [], .start (.card "type") [], .start (.card "text") [],
      .characters "ho", .characters "", .characters "me", .finish, .finish, .finish,
      .characters "b", .finish, .finish, .finish, .finish]
    Event.condense events = Event.condense e.events ∧
    Act.decoded (Reader.empty.journal .empty events) =
      [⟨.card "note", some "work", ⟨.card "note", [], .text "ab" .empty⟩,
        ⟨[⟨"TYPE", ["home"]⟩]⟩⟩] ∧
    Listener.collect.NeverStops ∧
    ((Reader.sink .empty .collect).feed (.empty, []) events).2 = .more := by
  intro note e events
  have hevents : Event.condense events = Event.condense e.events := by decide
  obtain ⟨-, hdecoded, -, -, hfeed⟩ := reads_as_tree .empty e hevents
  have hname : upper "type" = "TYPE" :=
    (upper_eq (by decide)).trans (upper_eq_self (by decide))
  refine ⟨hevents, ?_, Listener.collect_neverStops, ?_⟩
  · rw [hdecoded, ← hname]
    rfl
  · rw [hfeed .collect [] Listener.collect_neverStops]

end Reader
end ContactCards
