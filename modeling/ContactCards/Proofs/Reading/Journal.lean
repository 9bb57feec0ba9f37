import ContactCards.Proofs.Markup.Tidy
import ContactCards.Reading.Session

/-! What a reader does as events arrive. At the end of an element it may hand a property to its
decoder or a card to its listener; at any other event it does neither. -/
namespace ContactCards

/-- What the end of an element brings about. -/
inductive Act where
  | decode (p : PropertyElement)
  | deliver (d : Delivery)
  deriving DecidableEq, Repr

namespace Act

def property? : Act → Option PropertyElement
  | decode p => some p
  | deliver _ => none

def delivery? : Act → Option Delivery
  | decode _ => none
  | deliver d => some d

/-- The property elements among what happened, in order. -/
def decoded (acts : List (Option Act)) : List PropertyElement :=
  acts.filterMap (·.bind property?)

/-- The deliveries among what happened, in order. -/
def delivered (acts : List (Option Act)) : List Delivery :=
  acts.filterMap (·.bind delivery?)

end Act

namespace Reader

variable {r : Registry} {x y z : Reader} {es es' : List Event} {js js' : List (Option Act)}

/-- What an event brings about at a place. -/
def act? (x : Reader) : Event → Option Act
  | .finish =>
    match x.stage with
    | .card card (.between .card) => some (.deliver ⟨card, x.warnings⟩)
    | .card _ (.property p) =>
      if x.path.isAt p.base then some (.decode (p.close x.text)) else none
    | _ => none
  | _ => none

/-- The place after events. -/
def after (r : Registry) (x : Reader) (es : List Event) : Reader :=
  es.foldl (fun x e => (x.step r e).1) x

/-- What each tag among events brings about, in order. -/
def journal (r : Registry) (x : Reader) : List Event → List (Option Act)
  | [] => []
  | .characters s :: es => (x.step r (.characters s)).1.journal r es
  | e :: es => x.act? e :: (x.step r e).1.journal r es

/-- The cards delivered at events, in order. -/
def deliveries (r : Registry) (x : Reader) (es : List Event) : List Delivery :=
  Act.delivered (x.journal r es)

/-- A step delivers what its act says. -/
theorem step_snd (r : Registry) (x : Reader) (e : Event) :
    (x.step r e).2 = (x.act? e).bind Act.delivery? := by
  cases e with
  | start => rfl
  | characters => rfl
  | finish =>
    obtain ⟨path, text, warnings, stage⟩ := x
    cases stage with
    | outside => rfl
    | collection => rfl
    | card card scope =>
      cases scope with
      | between place => cases place <;> rfl
      | property p =>
        by_cases h : path.isAt p.base <;> simp [step, finish, act?, h, Act.delivery?]

/-- A decoder is consulted where the act says so, about that property element. -/
theorem step_of_decode {e : Event} {p : PropertyElement} (h : x.act? e = some (.decode p)) :
    ∃ card scope scope', x.stage = .card card scope ∧ ∀ r,
      (x.step r e).1.stage = .card (conclude r card x.warnings p).1 scope' ∧
      (x.step r e).1.warnings = (conclude r card x.warnings p).2 := by
  cases e with
  | start => simp [act?] at h
  | characters => simp [act?] at h
  | finish =>
    obtain ⟨path, text, warnings, stage⟩ := x
    cases stage with
    | outside => simp [act?] at h
    | collection => simp [act?] at h
    | card card scope =>
      cases scope with
      | between place => cases place <;> simp [act?] at h
      | property q =>
        by_cases hb : path.isAt q.base
        · simp only [act?, hb, ↓reduceIte, Option.some.injEq, Act.decode.injEq] at h
          subst p
          exact ⟨card, .property q, .between q.place, rfl, fun r =>
            ⟨by simp [step, finish, hb], by simp [step, finish, hb]⟩⟩
        · simp [act?, hb] at h

/-- No decoder is consulted anywhere else. -/
theorem step_of_not_decode {e : Event} (h : ∀ p, x.act? e ≠ some (.decode p)) (r r' : Registry) :
    x.step r e = x.step r' e := by
  cases e with
  | start => rfl
  | characters => rfl
  | finish =>
    obtain ⟨path, text, warnings, stage⟩ := x
    cases stage with
    | outside => rfl
    | collection => rfl
    | card card scope =>
      cases scope with
      | between place => cases place <;> rfl
      | property p =>
        by_cases hb : path.isAt p.base
        · exact absurd (by simp [act?, hb]) (h (p.close text))
        · simp [step, finish, hb]

/-- What the decoders are consulted about as events arrive: property elements, in order. An event
either does the same whatever the decoders are, or it concludes one property element with them. -/
inductive Consults (r : Registry) : Reader → List Event → List PropertyElement → Prop where
  | nil {x : Reader} : Consults r x [] []
  | other {x : Reader} {e : Event} {es : List Event} {ps : List PropertyElement}
    (hstep : ∀ r', x.step r' e = x.step r e) (hrest : Consults r (x.step r e).1 es ps) :
    Consults r x (e :: es) ps
  | conclude {x : Reader} {e : Event} {es : List Event} {p : PropertyElement}
    {ps : List PropertyElement} {card : Card} {scope scope' : Scope}
    (hcard : x.stage = .card card scope)
    (hstep : ∀ r', (x.step r' e).1.stage = .card (conclude r' card x.warnings p).1 scope' ∧
      (x.step r' e).1.warnings = (conclude r' card x.warnings p).2)
    (hrest : Consults r (x.step r e).1 es ps) : Consults r x (e :: es) (p :: ps)

theorem decoded_journal_cons (r : Registry) (x : Reader) (e : Event) (es : List Event) :
    Act.decoded (x.journal r (e :: es)) =
      ((x.act? e).bind Act.property?).toList ++ Act.decoded ((x.step r e).1.journal r es) := by
  cases e with
  | start => rfl
  | characters => rfl
  | finish =>
    simp only [journal, Act.decoded, List.filterMap_cons]
    cases (x.act? .finish).bind Act.property? <;> rfl

/-- The decoders are consulted about what the journal says, and about nothing else. -/
theorem consults_journal (r : Registry) (x : Reader) (es : List Event) :
    Consults r x es (Act.decoded (x.journal r es)) := by
  induction es generalizing x with
  | nil => exact .nil
  | cons e es ih =>
    have hrest := ih (x.step r e).1
    rw [decoded_journal_cons]
    by_cases hact : ∃ p, x.act? e = some (.decode p)
    · obtain ⟨p, hp⟩ := hact
      obtain ⟨card, scope, scope', hcard, hstep⟩ := step_of_decode hp
      rw [hp]
      exact .conclude hcard hstep hrest
    · have hno : ∀ p, x.act? e ≠ some (.decode p) := not_exists.mp hact
      have hnone : (x.act? e).bind Act.property? = none := by
        rcases h : x.act? e with _ | _ | _
        · rfl
        · exact absurd h (hno _)
        · rfl
      rw [hnone]
      exact .other (fun r' => step_of_not_decode hno r' r) hrest

theorem after_append (x : Reader) (es es' : List Event) :
    x.after r (es ++ es') = (x.after r es).after r es' :=
  List.foldl_append

theorem journal_append (x : Reader) (es es' : List Event) :
    x.journal r (es ++ es') = x.journal r es ++ (x.after r es).journal r es' := by
  induction es generalizing x with
  | nil => rfl
  | cons e es ih =>
    cases e with
    | start => exact congrArg (_ :: ·) (ih _)
    | characters => exact ih _
    | finish => exact congrArg (_ :: ·) (ih _)

/-- From one place to another, with what happens on the way. -/
structure Runs (r : Registry) (x : Reader) (es : List Event) (js : List (Option Act))
    (y : Reader) : Prop where
  journal : x.journal r es = js
  after : x.after r es = y

theorem Runs.nil (r : Registry) (x : Reader) : Runs r x [] [] x := ⟨rfl, rfl⟩

theorem Runs.trans (h : Runs r x es js y) (h' : Runs r y es' js' z) :
    Runs r x (es ++ es') (js ++ js') z := by
  obtain ⟨rfl, rfl⟩ := h
  obtain ⟨rfl, rfl⟩ := h'
  exact ⟨journal_append x es es', after_append x es es'⟩

theorem Runs.characters {s : String} (h : Runs r (x.step r (.characters s)).1 es js y) :
    Runs r x (.characters s :: es) js y := ⟨h.journal, h.after⟩

/-- An element and what follows it. -/
theorem Runs.element {name : ExpandedName} {attributes : List Attribute} {inner : List Event}
    (hi : Runs r (x.step r (.start name attributes)).1 inner js y)
    (hf : Runs r (y.step r .finish).1 es js' z) :
    Runs r x (.start name attributes :: inner ++ .finish :: es)
      (none :: (js ++ y.act? .finish :: js')) z := by
  have hs : Runs r x [.start name attributes] [none] (x.step r (.start name attributes)).1 :=
    ⟨rfl, rfl⟩
  have he : Runs r y [.finish] [y.act? .finish] (y.step r .finish).1 := ⟨rfl, rfl⟩
  simpa using hs.trans (hi.trans (he.trans hf))

theorem step_characters_append (x : Reader) (s t : String) :
    (x.step r (.characters (s ++ t))).1 =
      ((x.step r (.characters s)).1.step r (.characters t)).1 := by
  simp [step, String.append_assoc]

theorem step_characters_empty (x : Reader) : (x.step r (.characters "")).1 = x := by
  simp [step]

/-- Joining runs of character data changes nothing. -/
theorem runs_joinTo (x : Reader) (e : Event) (es : List Event) :
    Runs r x (e.joinTo es) (x.journal r (e :: es)) (x.after r (e :: es)) := by
  cases e with
  | start => exact ⟨rfl, rfl⟩
  | finish => exact ⟨rfl, rfl⟩
  | characters s =>
    by_cases hs : s = ""
    · subst s
      rw [Event.joinTo_empty]
      simp only [journal, after, List.foldl_cons, step_characters_empty]
      exact ⟨rfl, rfl⟩
    · cases es with
      | nil => simp only [Event.joinTo, hs]; exact ⟨rfl, rfl⟩
      | cons e es =>
        cases e with
        | characters t =>
          constructor
          · simp only [Event.joinTo, journal, step_characters_append]
          · simp only [Event.joinTo, after, List.foldl_cons, step_characters_append]
        | start => simp only [Event.joinTo, hs]; exact ⟨rfl, rfl⟩
        | finish => simp only [Event.joinTo, hs]; exact ⟨rfl, rfl⟩

/-- How character data is cut into runs does not matter. -/
theorem runs_condense (x : Reader) (es : List Event) :
    Runs r x (Event.condense es) (x.journal r es) (x.after r es) := by
  induction es generalizing x with
  | nil => exact Runs.nil r x
  | cons e es ih =>
    have hj := runs_joinTo (r := r) x e (Event.condense es)
    obtain ⟨hjs, hay⟩ := ih (x.step r e).1
    rw [Event.condense_cons]
    constructor
    · rw [hj.journal]
      cases e <;> simp only [journal, hjs]
    · rw [hj.after]
      exact hay

theorem Runs.of_condense (h : Event.condense es = Event.condense es') (hr : Runs r x es' js y) :
    Runs r x es js y := by
  have h1 := runs_condense (r := r) x es
  have h2 := runs_condense (r := r) x es'
  rw [h] at h1
  exact ⟨(h1.journal.symm.trans h2.journal).trans hr.journal,
    (h1.after.symm.trans h2.after).trans hr.after⟩

end Reader
end ContactCards
