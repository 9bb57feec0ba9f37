import ContactCards.Proofs.Markup.Acceptance
import ContactCards.Proofs.Markup.Completion
import ContactCards.Proofs.Reading.Streaming
import Mathlib.Data.List.Forall2

/-! Reading an input, well-formed or not. What is read is the start of a tree, and the deliveries
are the first ones of that tree, all of them if there is no fault. -/
namespace ContactCards

variable {σ : Type} {r : Registry} {c : Content} {input : Input} {listener : Listener σ} {s : σ}

namespace Input

/-- The cards that an input delivers to a listener that never stops. -/
def deliveries (input : Input) (r : Registry) : List Delivery :=
  Reader.empty.deliveries r input.transcript.events

/-- Reading an input is handing its deliveries over; its fault counts if the listener does not stop
before. -/
theorem read_eq (input : Input) (r : Registry) (listener : Listener σ) (s : σ) :
    input.read r listener s =
      ((listener.hand s (input.deliveries r)).1,
        match (listener.hand s (input.deliveries r)).2 with
        | .more => input.transcript.fault
        | .stop => none) := by
  obtain ⟨hstate, hflow, -⟩ :=
    Reader.feed_sink r listener .empty s input.transcript.events
  rw [deliveries, ← hstate, ← hflow, read, Sink.play]
  cases h : (Reader.sink r listener).feed (.empty, s) input.transcript.events with
  | mk state flow => cases flow <;> rfl

theorem read_collect (input : Input) (r : Registry) :
    input.read r .collect [] = (input.deliveries r, input.transcript.fault) := by
  rw [read_eq, Listener.hand_of_neverStops Listener.collect_neverStops, Listener.after_collect,
    List.nil_append]

/-- Every input is the start of a tree. -/
theorem exists_completes (input : Input) : ∃ c : Content, c.Completes input.transcript := by
  cases input with
  | document bytes => exact Transcript.exists_completes bytes
  | interrupted bytes reason => exact Nesting.exists_completes _ _
  | tree root => exact ⟨root.asContent, 0, (List.append_nil _).symm, fun _ => rfl⟩

end Input

namespace Reader

theorem length_journal (x : Reader) (events : List Event) :
    (x.journal r events).length = Event.tags events := by
  induction events generalizing x with
  | nil => rfl
  | cons event events ih =>
    cases event <;> simp [journal, ih, Event.tags, List.countP_cons, Event.isTag]

end Reader

/-- What the tags of an input bring about is what the first tags of a tree do that completes it. -/
theorem Content.Completes.journal_eq (h : c.Completes input.transcript) (r : Registry) :
    Reader.empty.journal r input.transcript.events =
      (c.acts r .outside).take (Event.tags input.transcript.events) := by
  obtain ⟨n, hc, -⟩ := h
  have hrun := Reader.runs_outside (r := r) c ""
  rw [hc] at hrun
  have hjournal : Reader.empty.journal r (input.transcript.events ++ List.replicate n .finish) =
      c.acts r .outside := hrun.journal
  rw [← hjournal, Reader.journal_append, ← Reader.length_journal (r := r) .empty,
    List.take_left]

/-- The deliveries of an input are the first cards of a tree that completes it. -/
theorem Content.Completes.deliveries_prefix (h : c.Completes input.transcript) (r : Registry) :
    input.deliveries r <+: c.cards.map (Delivery.ofProperties r ·.propertyElements) := by
  rw [Input.deliveries, Reader.deliveries, h.journal_eq, ← (acts_outside c).2]
  exact (List.take_prefix _ _).filterMap _

/-- An input with the events of a whole tree delivers the cards of the tree. -/
theorem Content.deliveries_eq (h : input.transcript.events = c.events) (r : Registry) :
    input.deliveries r = c.cards.map (.ofProperties r ·.propertyElements) := by
  have hjournal := (Reader.runs_outside (r := r) c "").journal
  rw [← c.acts_outside.2, ← hjournal, Input.deliveries, h]
  rfl

/-- What a listener gets, whether it stops or not, are the first cards of a tree that completes the
input. -/
theorem Content.Completes.taken_eq (h : c.Completes input.transcript) (r : Registry)
    (listener : Listener σ) (s : σ) :
    (input.read r listener.recording (s, [])).1.2 =
      (c.cards.take (input.read r listener.recording (s, [])).1.2.length).map
        (Delivery.ofProperties r ·.propertyElements) := by
  obtain ⟨taken, htaken, hafter⟩ := listener.recording.exists_hand (s, []) (input.deliveries r)
  have heq : (input.read r listener.recording (s, [])).1.2 = taken := by
    simp only [Input.read_eq, hafter, Listener.after_recording, List.nil_append]
  have hprefix := htaken.trans (h.deliveries_prefix r)
  rw [heq, List.map_take]
  exact List.prefix_iff_eq_take.mp hprefix

/-- A listener that never stops gets a delivery for each card if there is no fault. -/
theorem Content.Completes.length_taken (h : c.Completes input.transcript)
    (hlistener : listener.NeverStops) (hread : (input.read r listener.recording (s, [])).2 = none) :
    (input.read r listener.recording (s, [])).1.2.length = c.cards.length := by
  have hrecording : listener.recording.NeverStops := fun (s, _) d => hlistener s d
  rw [Input.read_eq, Listener.hand_of_neverStops hrecording] at hread ⊢
  obtain ⟨n, hevents, hfault⟩ := h
  obtain rfl := hfault hread
  rw [List.replicate_zero, List.append_nil] at hevents
  simp only [Listener.after_recording, List.nil_append, Content.deliveries_eq hevents.symm,
    List.length_map]

/-- What holds of the deliveries that property elements come to holds of those that a listener gets.
It gets one for each card if it never stops and there is no fault. -/
theorem Input.forall₂_taken (input : Input) (r : Registry) {P : Delivery → Element → Prop}
    (hP : ∀ card : Element, P (.ofProperties r card.propertyElements) card) :
    ∃ tree : Content, tree.Completes input.transcript ∧
      ∀ {σ : Type} (listener : Listener σ) (s : σ),
        let read := input.read r listener.recording (s, [])
        List.Forall₂ P read.1.2 (tree.cards.take read.1.2.length) ∧
          (listener.NeverStops → read.2 = none → read.1.2.length = tree.cards.length) := by
  obtain ⟨tree, htree⟩ := input.exists_completes
  refine ⟨tree, htree, ?_⟩
  intro σ listener s read
  refine ⟨?_, htree.length_taken⟩
  have htaken := htree.taken_eq r listener s
  change read.1.2 = _ at htaken
  generalize tree.cards.take read.1.2.length = cards at htaken ⊢
  rw [htaken, List.forall₂_map_left_iff, List.forall₂_same]
  exact fun card _ => hP card

/-- Reading a tree with one card delivers what its property elements come to. -/
theorem Input.read_tree_of_cards {root card : Element} (h : root.asContent.cards = [card])
    (r : Registry) :
    (tree root).read r Listener.collect.recording ([], []) =
      (([.ofProperties r card.propertyElements], [.ofProperties r card.propertyElements]),
        none) := by
  rw [read_eq, Listener.hand_of_neverStops fun _ _ => rfl,
    Content.deliveries_eq (c := root.asContent) rfl, h, List.map_singleton]
  rfl

/-- Only the tree itself completes what is read of a tree. -/
theorem Content.Completes.eq_asContent {e : Element}
    (h : c.Completes (Input.tree e).transcript) : c = e.asContent := by
  obtain ⟨n, hevents, hfault⟩ := h
  obtain rfl := hfault rfl
  rw [List.replicate_zero, List.append_nil] at hevents
  exact events_inj hevents

end ContactCards
