import ContactCards.Proofs.Markup.Rendering
import ContactCards.Reading.Session

/-! Streaming the text of an element is the same as replaying the element. -/
namespace ContactCards

/-- A receiver that keeps every event and never stops. -/
def Event.recorder : Sink (List Event) where
  receive kept event := (kept ++ [event], .more)

theorem Event.feed_recorder (kept events : List Event) :
    recorder.feed kept events = (kept ++ events, .more) := by
  induction events generalizing kept with
  | nil => simp [Sink.feed]
  | cons event events ih =>
    rw [Sink.feed_more (t := kept ++ [event]) rfl, ih, List.append_assoc]
    rfl

theorem Event.play_recorder (t : Transcript) : recorder.play [] t = (t.events, t.fault) := by
  rw [Sink.play, feed_recorder]
  rfl

/-- Streaming the text of an element meets no fault. It hands over the starts and ends that
replaying the element hands over, and the same character data between them. -/
theorem streams_as_replayed {e : Element} (h : e.WellNamed) :
    let streamed := Event.recorder.play [] (Input.document (Utf8.encode e.render)).transcript
    let replayed := Event.recorder.play [] (Input.tree e).transcript
    streamed.2 = none ∧ replayed.2 = none ∧
      Event.condense streamed.1 = Event.condense replayed.1 := by
  intro streamed replayed
  obtain ⟨d, hd, htranscript⟩ := Element.ofDocument_render h
  have hstreamed : streamed = ((⟨e.name, e.attributes, d⟩ : Element).events, none) := by
    rw [← Event.play_recorder ⟨_, none⟩, ← htranscript]
    rfl
  have hreplayed : replayed = (e.events, none) := Event.play_recorder _
  refine ⟨by rw [hstreamed], by rw [hreplayed], ?_⟩
  have hcontent : Event.condense d.events = Event.condense e.content.events := by
    rw [← Content.events_tidy, ← Content.events_tidy, hd]
  simp only [hstreamed, hreplayed, Element.events, List.cons_append, Event.condense_cons,
    Event.condense_append_finish, hcontent]

/-- Namespaces that change in both directions, and characters that are escaped. -/
theorem streams_as_replayed_nested :
    let e : Element := ⟨⟨"urn:a", "x"⟩, [⟨"k", "<\"&'>"⟩],
      .text "a<b" (.element ⟨"", "y"⟩ [] .empty
        (.element ⟨"urn:b", "z"⟩ [⟨"k", ""⟩, ⟨"l", "é"⟩] (.text "&" (.text "amp;" .empty)) .empty))⟩
    let streamed := Event.recorder.play [] (Input.document (Utf8.encode e.render)).transcript
    let replayed := Event.recorder.play [] (Input.tree e).transcript
    e.WellNamed ∧ streamed.2 = none ∧ replayed.2 = none ∧
      Event.condense streamed.1 = Event.condense replayed.1 := by
  intro e
  have h : e.WellNamed := by decide
  exact ⟨h, streams_as_replayed h⟩

end ContactCards
