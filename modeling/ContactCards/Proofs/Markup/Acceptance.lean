import ContactCards.Proofs.Markup.Completion
import ContactCards.Proofs.Markup.Feeding
import ContactCards.Proofs.Markup.Tidy
import ContactCards.Text.Blank
import Mathlib

/-! Which documents are accepted: those whose tokens can all be read, whose elements are all closed,
and that have an element at all. How many elements stand side by side, and what stands between
them, does not matter. -/
namespace ContactCards

variable {c d inner rest : Content} {events xs ys : List Event} {fault : Option Fault}
  {nesting nesting' last : Nesting} {token : Token} {tokens : List Token} {document : List UInt8}

namespace Event

def isStart : Event → Bool
  | start _ _ => true
  | _ => false

/-- As many ends as there are open elements close them. -/
theorem eq_of_depth?_replicate {k n : Nat} (h : depth? k (List.replicate n .finish) = some 0) :
    k = n := by
  induction n generalizing k with
  | zero => exact Option.some.inj h
  | succ n ih =>
    cases k with
    | zero => cases h
    | succ k => exact congrArg Nat.succ (ih h)

/-- The events of one element, with nothing but blanks around it. -/
def SingleRooted (events : List Event) : Prop :=
  ∃ (before after : List String) (root : Element),
    events = before.map .characters ++ root.events ++ after.map .characters ∧
      ∀ s ∈ before ++ after, s.toList.all isBlank

end Event

namespace Content

/-- Texts before a content. -/
def ofTexts (texts : List String) (rest : Content) : Content :=
  texts.foldr text rest

theorem events_ofTexts (texts : List String) (rest : Content) :
    (ofTexts texts rest).events = texts.map .characters ++ rest.events := by
  induction texts with
  | nil => rfl
  | cons s texts ih => exact congrArg (Event.characters s :: ·) ih

theorem elements_ofTexts (texts : List String) (rest : Content) :
    (ofTexts texts rest).elements = rest.elements := by
  induction texts with
  | nil => rfl
  | cons s texts ih => exact ih

theorem children_ofTexts (texts : List String) (rest : Content) :
    (ofTexts texts rest).children = texts.map .text ++ rest.children := by
  induction texts with
  | nil => rfl
  | cons s texts ih => exact congrArg (Child.text s :: ·) ih

theorem exists_ofTexts (h : c.elements = []) : ∃ texts, c = ofTexts texts .empty := by
  induction c with
  | empty => exact ⟨[], rfl⟩
  | text s rest ih =>
    obtain ⟨texts, rfl⟩ := ih h
    exact ⟨s :: texts, rfl⟩
  | element => cases h

/-- An element between texts. -/
def aroundRoot (before : List String) (root : Element) (after : List String) : Content :=
  ofTexts before (element root.name root.attributes root.content (ofTexts after .empty))

theorem events_aroundRoot (before : List String) (root : Element) (after : List String) :
    (aroundRoot before root after).events =
      before.map .characters ++ root.events ++ after.map .characters := by
  simp [aroundRoot, events_ofTexts, events, Element.events]

/-- Contents end where an end tag of an element around them stands, or where nothing does. -/
theorem events_append_inj (hxs : ∀ event ∈ xs.head?, event = .finish)
    (hys : ∀ event ∈ ys.head?, event = .finish) (h : c.events ++ xs = d.events ++ ys) :
    c = d ∧ xs = ys := by
  induction c generalizing d xs ys with
  | empty =>
    cases d with
    | empty => exact ⟨rfl, h⟩
    | text s rest =>
      obtain rfl : xs = .characters s :: rest.events ++ ys := h
      cases hxs _ rfl
    | element name attributes inner rest =>
      obtain rfl : xs = (element name attributes inner rest).events ++ ys := h
      cases hxs _ rfl
  | text s rest ih =>
    cases d with
    | empty =>
      obtain rfl : (text s rest).events ++ xs = ys := h
      cases hys _ rfl
    | text t rest' =>
      obtain ⟨hs, htail⟩ := List.cons.inj h
      obtain ⟨rfl, rfl⟩ := ih hxs hys htail
      cases hs
      exact ⟨rfl, rfl⟩
    | element => cases (List.cons.inj h).1
  | element name attributes inner rest ihi ihr =>
    cases d with
    | empty =>
      obtain rfl : (element name attributes inner rest).events ++ xs = ys := h
      cases hys _ rfl
    | text => cases (List.cons.inj h).1
    | element name' attributes' inner' rest' =>
      simp only [events, List.cons_append, List.append_assoc] at h
      obtain ⟨hstart, htail⟩ := List.cons.inj h
      -- Behind the inner contents both lists go on with the end tag of the element.
      have hfinish : ∀ zs : List Event, ∀ event ∈ (Event.finish :: zs).head?, event = .finish := by
        intro zs event hevent
        exact (Option.some.inj hevent).symm
      obtain ⟨rfl, hrest⟩ := ihi (hfinish _) (hfinish _) htail
      obtain ⟨rfl, rfl⟩ := ihr hxs hys (List.cons.inj hrest).2
      cases hstart
      exact ⟨rfl, rfl⟩

/-- The events of a content tell what the content is. -/
theorem events_inj (h : c.events = d.events) : c = d := by
  have hnil : c.events ++ [] = d.events ++ [] := by rw [h]
  exact (events_append_inj (by nofun) (by nofun) hnil).1

/-- What is open around a content is open after it. -/
theorem depth?_events (c : Content) (k : Nat) : Event.depth? k c.events = some k := by
  induction c generalizing k with
  | empty => rfl
  | text s rest ih => exact ih k
  | element name attributes inner rest ihi ihr =>
    change Event.depth? (k + 1) (inner.events ++ .finish :: rest.events) = some k
    rw [Event.depth?_append, ihi]
    exact ihr k

/-- As many ends complete the events of a content as elements are open after them. -/
theorem depth?_of_completed {n : Nat} (h : c.events = events ++ List.replicate n .finish) :
    Event.depth? 0 events = some n := by
  have hclosed := c.depth?_events 0
  rw [h, Event.depth?_append] at hclosed
  obtain ⟨k, hk, hends⟩ := Option.bind_eq_some_iff.mp hclosed
  rw [hk, Event.eq_of_depth?_replicate hends]

theorem any_isStart_events (c : Content) : c.events.any Event.isStart = !c.elements.isEmpty := by
  induction c with
  | empty => rfl
  | text s rest ih => exact ih
  | element => rfl

/-- A content is a single root just if it has one element, and its texts are blank. -/
theorem singleRooted_iff : Event.SingleRooted c.events ↔
    c.elements.length = 1 ∧ ∀ s, .text s ∈ c.children → s.toList.all isBlank := by
  constructor
  · rintro ⟨before, after, root, hevents, hblank⟩
    obtain rfl : c = aroundRoot before root after := by
      apply events_inj
      rw [hevents, events_aroundRoot]
    constructor
    · simp [aroundRoot, elements_ofTexts, elements]
    · intro s hs
      apply hblank
      simpa [aroundRoot, children_ofTexts, children] using hs
  · rintro ⟨hlength, hblank⟩
    induction c with
    | empty => cases hlength
    | text s rest ih =>
      obtain ⟨before, after, root, hevents, hrest⟩ :=
        ih hlength fun t ht => hblank t (List.mem_cons_of_mem _ ht)
      refine ⟨s :: before, after, root, congrArg (Event.characters s :: ·) hevents, ?_⟩
      exact List.forall_mem_cons.mpr ⟨hblank s List.mem_cons_self, hrest⟩
    | element name attributes inner rest =>
      obtain ⟨after, rfl⟩ := exists_ofTexts (List.length_eq_zero_iff.mp (Nat.succ.inj hlength))
      refine ⟨[], after, ⟨name, attributes, inner⟩, ?_, ?_⟩
      · simp [events, events_ofTexts, Element.events]
      · intro s hs
        apply hblank
        simpa [children, children_ofTexts] using hs

end Content

/-- The events of a single root leave no element open. -/
theorem Event.SingleRooted.exists_content (h : Event.SingleRooted events) :
    ∃ c : Content, c.events = events := by
  obtain ⟨before, after, root, rfl, -⟩ := h
  exact ⟨.aroundRoot before root after, Content.events_aroundRoot before root after⟩

namespace Nesting

/-- Reads tokens: the place after them, and their events. -/
def through (nesting : Nesting) : List Token → Except Fault (Nesting × List Event)
  | [] => .ok (nesting, [])
  | token :: tokens => do
    let (nesting, events) ← nesting.step token
    let (last, more) ← nesting.through tokens
    return (last, events ++ more)

theorem through_cons (h : nesting.through (token :: tokens) = .ok (last, events)) :
    ∃ nesting' xs ys, nesting.step token = .ok (nesting', xs) ∧
      nesting'.through tokens = .ok (last, ys) ∧ events = xs ++ ys := by
  obtain ⟨⟨nesting', xs⟩, hstep, h⟩ := ok_of_bind h
  obtain ⟨⟨last', ys⟩, hrest, h⟩ := ok_of_bind h
  cases h
  exact ⟨nesting', xs, ys, hstep, hrest, rfl⟩

/-- There has been an element just if there is a start tag. -/
theorem step_rooted (h : nesting.step token = .ok (nesting', events)) :
    nesting'.rooted = (nesting.rooted || events.any Event.isStart) := by
  rcases step_cases h with ⟨-, rfl, s, rfl⟩ | ⟨-, name, attributes, opened, rfl, rfl⟩ |
    ⟨-, name, attributes, rfl, rfl⟩ | ⟨-, rfl, innermost, rfl⟩
  · exact (Bool.or_false _).symm
  · exact (Bool.or_true _).symm
  · exact (Bool.or_true _).symm
  · exact (Bool.or_false _).symm

/-- What a place knows of the tokens before it: how many of their elements are open, and whether
there is one among them. -/
theorem through_keeps (h : nesting.through tokens = .ok (last, events)) :
    Event.depth? nesting.stack.length events = some last.stack.length ∧
      last.rooted = (nesting.rooted || events.any Event.isStart) := by
  induction tokens generalizing nesting events with
  | nil =>
    cases h
    exact ⟨rfl, (Bool.or_false _).symm⟩
  | cons token tokens ih =>
    obtain ⟨nesting', xs, ys, hstep, hrest, rfl⟩ := through_cons h
    obtain ⟨hdepth, hrooted⟩ := ih hrest
    constructor
    · rw [Event.depth?_append, step_depth? hstep]
      exact hdepth
    · rw [hrooted, step_rooted hstep, List.any_append, Bool.or_assoc]

/-- A run over tokens that can be read hands out their events. -/
theorem run_of_through (h : nesting.through tokens = .ok (last, events)) (found : List Event) :
    nesting.run found fault tokens = ⟨found.reverse ++ events, fault.or last.endFault⟩ := by
  induction tokens generalizing nesting events found with
  | nil =>
    cases h
    rw [run, List.append_nil]
  | cons token tokens ih =>
    obtain ⟨nesting', xs, ys, hstep, hrest, rfl⟩ := through_cons h
    rw [run, hstep]
    simp [ih hrest]

/-- Tokens that can be read can be read up to any place among them. -/
theorem through_append {more : List Token}
    (h : nesting.through (tokens ++ more) = .ok (last, events)) :
    ∃ nesting' xs ys, nesting.through tokens = .ok (nesting', xs) ∧
      nesting'.through more = .ok (last, ys) ∧ events = xs ++ ys := by
  induction tokens generalizing nesting events with
  | nil => exact ⟨nesting, [], events, rfl, h, rfl⟩
  | cons token tokens ih =>
    obtain ⟨next, xs, ys, hstep, hrest, rfl⟩ := through_cons h
    obtain ⟨nesting', ys, zs, hbefore, hmore, rfl⟩ := ih hrest
    refine ⟨nesting', xs ++ ys, zs, ?_, hmore, (List.append_assoc xs ys zs).symm⟩
    simp only [through, hstep, hbefore, bind, Except.bind, pure, Except.pure]

/-- A run ends at the first token that cannot be read. -/
theorem run_of_error {after : List Token} {why : Fault}
    (h : nesting.through tokens = .ok (last, events)) (hstep : last.step token = .error why)
    (found : List Event) :
    nesting.run found fault (tokens ++ token :: after) =
      ⟨found.reverse ++ events, some why⟩ := by
  induction tokens generalizing nesting events found with
  | nil =>
    cases h
    rw [List.nil_append, run, hstep, List.append_nil]
  | cons token tokens ih =>
    obtain ⟨nesting', xs, ys, hfirst, hrest, rfl⟩ := through_cons h
    rw [List.cons_append, run, hfirst]
    simp [ih hrest]

/-- A run over tokens that cannot all be read ends with a fault. -/
theorem exists_of_run (found : List Event) (h : (nesting.run found fault tokens).fault = none) :
    fault = none ∧ ∃ last events, nesting.through tokens = .ok (last, events) := by
  induction tokens generalizing nesting found with
  | nil => exact ⟨(Option.or_eq_none_iff.mp h).1, nesting, [], rfl⟩
  | cons token tokens ih =>
    rw [run] at h
    cases hstep : nesting.step token with
    | error fault =>
      rw [hstep] at h
      cases h
    | ok after =>
      obtain ⟨nesting', xs⟩ := after
      rw [hstep] at h
      obtain ⟨hfault, last, ys, hrest⟩ := ih _ h
      refine ⟨hfault, last, xs ++ ys, ?_⟩
      simp only [through, hstep, hrest, bind, Except.bind, pure, Except.pure]

end Nesting

/-- All tokens of a document can be found and read. -/
def Readable (document : List UInt8) : Prop :=
  (Token.scan document).2 = none ∧
    ∃ last events, Nesting.empty.through (Token.scan document).1 = .ok (last, events)

namespace Transcript

/-- What is wrong with a document whose tokens can be read shows at its end. -/
theorem fault_of_readable {n : Nat} (h : Readable document)
    (hc : c.events = (ofDocument document).events ++ List.replicate n .finish) :
    (ofDocument document).fault = if 0 < n then some (.unexpectedEnd n)
      else if c.elements = [] then some .noRoot else none := by
  obtain ⟨hscan, last, events, hthrough⟩ := h
  have hrun : ofDocument document = ⟨events, last.endFault⟩ := by
    calc ofDocument document
      _ = Nesting.empty.run [] (Token.scan document).2 (Token.scan document).1 := rfl
      _ = Nesting.empty.run [] none (Token.scan document).1 := by rw [hscan]
      _ = ⟨events, last.endFault⟩ := Nesting.run_of_through hthrough []
  have hdepth : Event.depth? 0 events = some last.stack.length :=
    (Nesting.through_keeps hthrough).1
  have hrooted := (Nesting.through_keeps hthrough).2
  rw [hrun] at hc ⊢
  dsimp only at hc
  have hlength : last.stack.length = n := by
    rw [Content.depth?_of_completed hc] at hdepth
    exact (Option.some.inj hdepth).symm
  have hstarts : last.rooted = !c.elements.isEmpty := by
    rw [hrooted, ← c.any_isStart_events, hc, List.any_append, List.any_replicate]
    simp [Event.isStart, Nesting.empty]
  simp [Nesting.endFault, hlength, hstarts]

/-- A document with a token that cannot be read has the events before it, and its fault. -/
theorem ofDocument_of_error {before after : List Token} {why : Fault}
    (hscan : (Token.scan document).1 = before ++ token :: after)
    (hbefore : Nesting.empty.through before = .ok (last, events))
    (hstep : last.step token = .error why) : ofDocument document = ⟨events, some why⟩ := by
  calc ofDocument document
    _ = Nesting.empty.run [] (Token.scan document).2 (Token.scan document).1 := rfl
    _ = Nesting.empty.run [] (Token.scan document).2 (before ++ token :: after) := by rw [hscan]
    _ = ⟨events, some why⟩ := Nesting.run_of_error hbefore hstep []

/-- A document without a fault can be read. -/
theorem readable_of_fault (h : (ofDocument document).fault = none) : Readable document :=
  Nesting.exists_of_run [] h

/-- The events of a document are those of a single root just if they leave no element open, and
the content that they list is a single root. -/
theorem singleRooted_iff {t : Transcript} {n : Nat}
    (hc : c.events = t.events ++ List.replicate n .finish) :
    Event.SingleRooted t.events ↔ n = 0 ∧ c.elements.length = 1 ∧
      ∀ s, .text s ∈ c.children → s.toList.all isBlank := by
  constructor
  · intro h
    obtain ⟨d, hd⟩ := h.exists_content
    have hopen := Content.depth?_of_completed hc
    rw [← hd, d.depth?_events] at hopen
    obtain rfl : 0 = n := Option.some.inj hopen
    rw [List.replicate_zero, List.append_nil] at hc
    rw [← hc] at h
    exact ⟨rfl, Content.singleRooted_iff.mp h⟩
  · rintro ⟨rfl, h⟩
    rw [List.replicate_zero, List.append_nil] at hc
    rw [← hc]
    exact Content.singleRooted_iff.mpr h

end Transcript

/-- A receiver that never stops is handed all events of a document. They are those of a content but
for the ends of the elements that are left open. The document is accepted just if it can be read,
no element is left open and there is an element: the content may hold more than one, and any
texts. Of these contents those of a single root hold one element, and blanks. -/
theorem accepted_iff_rooted (document : List UInt8) :
    (∀ {σ : Type} (sink : Sink σ) (s : σ), sink.NeverStops →
      (sink.recording.play (s, []) (.ofDocument document)).1.2 =
          (Transcript.ofDocument document).events ∧
        (sink.recording.play (s, []) (.ofDocument document)).2 =
          (Transcript.ofDocument document).fault) ∧
    ∃ (c : Content) (n : Nat),
      c.events = (Transcript.ofDocument document).events ++ List.replicate n .finish ∧
      ((Transcript.ofDocument document).fault = none ↔
        Readable document ∧ n = 0 ∧ c.elements ≠ []) ∧
      (Readable document → (Transcript.ofDocument document).fault =
        if 0 < n then some (.unexpectedEnd n)
        else if c.elements = [] then some .noRoot else none) ∧
      (Event.SingleRooted (Transcript.ofDocument document).events ↔
        n = 0 ∧ c.elements.length = 1 ∧
          ∀ s, .text s ∈ c.children → s.toList.all isBlank) := by
  let t := Transcript.ofDocument document
  obtain ⟨c, n, hc, -⟩ := Transcript.exists_completes document
  have hfault : Readable document → t.fault = if 0 < n then some (.unexpectedEnd n)
      else if c.elements = [] then some .noRoot else none := fun h =>
    Transcript.fault_of_readable h hc
  refine ⟨fun sink s h => Sink.play_recording_of_neverStops h s t, c, n, hc, ?_, hfault,
    Transcript.singleRooted_iff hc⟩
  constructor
  · intro hnone
    have hread := Transcript.readable_of_fault hnone
    have hend := hfault hread
    rw [hnone] at hend
    by_cases hn : 0 < n
    · simp [hn] at hend
    · by_cases helements : c.elements = []
      · simp [hn, helements] at hend
      · exact ⟨hread, by omega, helements⟩
  · rintro ⟨hread, rfl, helements⟩
    rw [hfault hread]
    simp [helements]

/-- Two elements side by side are accepted, and so are texts around an element. -/
theorem two_roots_accepted :
    let roots := Transcript.ofDocument (Utf8.encode "<a/><b/>")
    let texts := Transcript.ofDocument (Utf8.encode "x<a/>y")
    (roots.fault = none ∧ ¬ Event.SingleRooted roots.events) ∧
      (texts.fault = none ∧ ¬ Event.SingleRooted texts.events) := by
  have hroots : Transcript.ofDocument (Utf8.encode "<a/><b/>") =
      ⟨(Content.element ⟨"", "a"⟩ [] .empty (.element ⟨"", "b"⟩ [] .empty .empty)).events,
        none⟩ := by cbv
  have htexts : Transcript.ofDocument (Utf8.encode "x<a/>y") =
      ⟨(Content.text "x" (.element ⟨"", "a"⟩ [] .empty (.text "y" .empty))).events, none⟩ := by
    cbv
  rw [hroots, htexts]
  refine ⟨⟨rfl, ?_⟩, ⟨rfl, ?_⟩⟩
  · intro h
    have hone := (Content.singleRooted_iff.mp h).1
    exact absurd hone (by decide)
  · intro h
    have hblank := (Content.singleRooted_iff.mp h).2 "x" List.mem_cons_self
    exact absurd hblank (by decide)

end ContactCards
