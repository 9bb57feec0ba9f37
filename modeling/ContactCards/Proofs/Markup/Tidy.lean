import ContactCards.Markup.Element

/-! Tidy contents and condensed events: no run of character data is empty, and no two meet. How
character data is cut into runs does not matter to either. -/
namespace ContactCards

variable {c d : Content} {s t : String}

namespace Content

/-- Character data at the end of a content. Data that follows a text joins it, and empty data
adds nothing. -/
def addText : Content → String → Content
  | .empty, s => if s = "" then .empty else .text s .empty
  | .text t .empty, s => .text (t ++ s) .empty
  | .text t rest, s => .text t (rest.addText s)
  | .element name attributes inner rest, s => .element name attributes inner (rest.addText s)

/-- Character data before a content. -/
def prependText (s : String) : Content → Content
  | .text t rest => .text (s ++ t) rest
  | c => if s = "" then c else .text s c

/-- A content without empty texts, and with texts that meet joined. -/
def tidy : Content → Content
  | .empty => .empty
  | .text s rest => prependText s rest.tidy
  | .element name attributes inner rest => .element name attributes inner.tidy rest.tidy

/-- A content with the items of another added one by one. -/
def extend (c : Content) : Content → Content
  | .empty => c
  | .text s rest => (c.addText s).extend rest
  | .element name attributes inner rest =>
    (c.append (.element name attributes inner.tidy .empty)).extend rest

@[simp] theorem append_empty (c : Content) : c.append .empty = c := by
  induction c with
  | empty => rfl
  | text s rest ih => simp [append, ih]
  | element name attributes inner rest _ ih => simp [append, ih]

theorem append_assoc (c d e : Content) : (c.append d).append e = c.append (d.append e) := by
  induction c with
  | empty => rfl
  | text s rest ih => simp [append, ih]
  | element name attributes inner rest _ ih => simp [append, ih]

@[simp] theorem empty_addText_empty : Content.empty.addText "" = .empty := rfl

theorem empty_addText (h : s ≠ "") : Content.empty.addText s = .text s .empty := by
  simp [addText, h]

theorem text_addText (h : c ≠ .empty) : (Content.text t c).addText s = .text t (c.addText s) := by
  cases c with
  | empty => exact absurd rfl h
  | text => rfl
  | element => rfl

theorem append_ne_empty (h : d ≠ .empty) : c.append d ≠ .empty := by
  cases c with
  | empty => exact h
  | text => simp [append]
  | element => simp [append]

/-- Character data only touches the last item. -/
theorem append_addText (h : d ≠ .empty) : (c.append d).addText s = c.append (d.addText s) := by
  induction c with
  | empty => rfl
  | text t rest ih => simp only [append, text_addText (append_ne_empty h), ih]
  | element name attributes inner rest _ ih => simp only [append, addText, ih]

@[simp] theorem addText_empty (c : Content) : c.addText "" = c := by
  induction c with
  | empty => rfl
  | text t rest ih =>
    cases rest with
    | empty => simp [addText]
    | text => rw [text_addText (by simp), ih]
    | element => rw [text_addText (by simp), ih]
  | element name attributes inner rest _ ih => simp [addText, ih]

theorem addText_ne_empty (h : c ≠ .empty) : c.addText s ≠ .empty := by
  cases c with
  | empty => exact absurd rfl h
  | text t rest => cases rest <;> simp [addText]
  | element => simp [addText]

theorem addText_addText (c : Content) (s t : String) :
    (c.addText s).addText t = c.addText (s ++ t) := by
  induction c with
  | empty => by_cases hs : s = "" <;> simp [addText, hs]
  | text u rest ih =>
    by_cases h : rest = .empty
    · subst rest
      simp [addText, String.append_assoc]
    · rw [text_addText h, text_addText (addText_ne_empty h), ih, text_addText h]
  | element name attributes inner rest _ ih => simp [addText, ih]

@[simp] theorem prependText_empty (c : Content) : prependText "" c = c := by
  cases c <;> simp [prependText]

theorem prependText_ne_text_empty (h : c ≠ .text "" d) : prependText s c ≠ .text "" d := by
  cases c with
  | text t rest =>
    intro he
    simp only [prependText, text.injEq, String.append_eq_empty_iff] at he
    exact h (by rw [he.1.2, he.2])
  | empty => by_cases hs : s = "" <;> simp [prependText, hs]
  | element => by_cases hs : s = "" <;> simp [prependText, hs]

theorem tidy_ne_text_empty : c.tidy ≠ .text "" d := by
  induction c with
  | empty => simp [tidy]
  | text s rest ih => exact prependText_ne_text_empty ih
  | element => simp [tidy]

/-- One tidy content after another, the texts that meet joined. -/
def meet (c : Content) : Content → Content
  | .text s rest => (c.addText s).append rest
  | d => c.append d

theorem meet_prependText (c d : Content) (s : String) :
    c.meet (prependText s d) = (c.addText s).meet d := by
  cases d with
  | text t rest => simp only [prependText, meet, addText_addText]
  | empty => by_cases hs : s = "" <;> simp [prependText, meet, hs]
  | element => by_cases hs : s = "" <;> simp [prependText, meet, hs]

/-- An element keeps the texts on either side of it apart. -/
theorem append_element_meet {name : ExpandedName} {attributes : List Attribute} {inner : Content}
    (h : ∀ e, d ≠ .text "" e) :
    (c.append (.element name attributes inner .empty)).meet d =
      c.append (.element name attributes inner d) := by
  cases d with
  | text s rest =>
    have hs : s ≠ "" := by
      rintro rfl
      exact h rest rfl
    simp only [meet]
    rw [append_addText (by simp), append_assoc]
    simp only [addText, hs, ↓reduceIte, append]
  | empty => simp [meet]
  | element => simp only [meet, append_assoc, append]

/-- Adding items one by one keeps a content tidy. -/
theorem extend_eq_meet (c d : Content) : c.extend d = c.meet d.tidy := by
  induction d generalizing c with
  | empty => simp [extend, tidy, meet]
  | text s rest ih => simp only [extend, tidy, ih, meet_prependText]
  | element name attributes inner rest _ ih =>
    rw [extend, ih, append_element_meet (fun _ => tidy_ne_text_empty)]
    rfl

theorem empty_extend (c : Content) : Content.empty.extend c = c.tidy := by
  rw [extend_eq_meet]
  cases h : c.tidy with
  | text s rest =>
    have hs : s ≠ "" := by
      rintro rfl
      exact tidy_ne_text_empty h
    simp only [meet, empty_addText hs, append]
  | empty => rfl
  | element => rfl

end Content

namespace Event

variable {xs ys : List Event}

/-- Puts an event before others. Empty character data is dropped, and runs that meet are joined. -/
def joinTo : Event → List Event → List Event
  | .characters s, .characters t :: events => .characters (s ++ t) :: events
  | .characters s, events => if s = "" then events else .characters s :: events
  | event, events => event :: events

/-- Events with their character data in as few runs as possible. -/
def condense (events : List Event) : List Event :=
  events.foldr joinTo []

@[simp] theorem condense_nil : condense [] = [] := rfl

theorem condense_cons (event : Event) (events : List Event) :
    condense (event :: events) = joinTo event (condense events) := rfl

theorem joinTo_empty (events : List Event) : joinTo (.characters "") events = events := by
  cases events with
  | nil => simp [joinTo]
  | cons event events => cases event <;> simp [joinTo]

theorem joinTo_append_finish (event : Event) (xs ys : List Event) :
    joinTo event (xs ++ .finish :: ys) = joinTo event xs ++ .finish :: ys := by
  cases event with
  | start => rfl
  | finish => rfl
  | characters s =>
    cases xs with
    | nil => by_cases hs : s = "" <;> simp [joinTo, hs]
    | cons event xs => cases event <;> by_cases hs : s = "" <;> simp [joinTo, hs]

theorem condense_append_finish (xs ys : List Event) :
    condense (xs ++ .finish :: ys) = condense xs ++ .finish :: condense ys := by
  induction xs with
  | nil => rfl
  | cons event xs ih =>
    rw [List.cons_append, condense_cons, ih, condense_cons, joinTo_append_finish]

end Event

namespace Content

theorem events_prependText (s : String) (c : Content) :
    (prependText s c).events = Event.joinTo (.characters s) c.events := by
  cases c with
  | empty => by_cases hs : s = "" <;> simp [prependText, events, Event.joinTo, hs]
  | text => rfl
  | element => by_cases hs : s = "" <;> simp [prependText, events, Event.joinTo, hs]

/-- The events of a tidy content are those of the content, condensed. -/
theorem events_tidy (c : Content) : c.tidy.events = Event.condense c.events := by
  induction c with
  | empty => rfl
  | text s rest ih => rw [tidy, events_prependText, ih]; rfl
  | element name attributes inner rest ihi ihr =>
    simp only [tidy, events, ihi, ihr, List.cons_append]
    rw [Event.condense_cons, Event.condense_append_finish]
    rfl

theorem events_append (c d : Content) : (c.append d).events = c.events ++ d.events := by
  induction c with
  | empty => rfl
  | text s rest ih => simp [append, events, ih]
  | element name attributes inner rest _ ih => simp [append, events, ih]

theorem extend_append (c d e : Content) : c.extend (d.append e) = (c.extend d).extend e := by
  induction d generalizing c with
  | empty => rfl
  | text s rest ih => exact ih _
  | element name attributes inner rest _ ih => exact ih _

theorem tidy_append (c d : Content) : (c.append d).tidy = c.tidy.meet d.tidy := by
  rw [← empty_extend, extend_append, empty_extend, extend_eq_meet]

theorem prependText_prependText (s t : String) (c : Content) :
    prependText s (prependText t c) = prependText (s ++ t) c := by
  cases c with
  | text u rest => simp [prependText, String.append_assoc]
  | empty => by_cases ht : t = "" <;> simp [prependText, ht]
  | element => by_cases ht : t = "" <;> simp [prependText, ht]

theorem tidy_prependText (s : String) (c : Content) :
    (prependText s c).tidy = prependText s c.tidy := by
  cases c with
  | text t rest => exact (prependText_prependText s t rest.tidy).symm
  | empty => by_cases hs : s = "" <;> simp [prependText, tidy, hs]
  | element => by_cases hs : s = "" <;> simp [prependText, tidy, hs]

theorem tidy_tidy (c : Content) : c.tidy.tidy = c.tidy := by
  induction c with
  | empty => rfl
  | text s rest ih => rw [tidy, tidy_prependText, ih]
  | element name attributes inner rest ihi ihr => rw [tidy, tidy, ihi, ihr]

/-- Contents that differ in the cuts of their character data only. -/
def Alike (c d : Content) : Prop := c.tidy = d.tidy

namespace Alike

variable {c' d' e : Content}

theorem refl (c : Content) : c.Alike c := rfl

theorem trans (h : c.Alike d) (h' : d.Alike e) : c.Alike e := Eq.trans h h'

theorem symm (h : c.Alike d) : d.Alike c := Eq.symm h

theorem append (h : c.Alike d) (h' : c'.Alike d') : (c.append c').Alike (d.append d') := by
  rw [Alike, tidy_append, tidy_append, h, h']

theorem text (h : c.Alike d) (s : String) : (Content.text s c).Alike (.text s d) :=
  congrArg (prependText s) h

theorem text_text (s t : String) (c : Content) :
    (Content.text s (.text t c)).Alike (.text (s ++ t) c) :=
  prependText_prependText s t c.tidy

theorem text_empty (c : Content) : (Content.text "" c).Alike c :=
  prependText_empty c.tidy

/-- Whether empty character data is added as a text does not matter. -/
theorem addText (s : String) (c : Content) :
    ((Content.empty.addText s).append c).Alike (.text s c) := by
  by_cases hs : s = ""
  · subst s
    exact (text_empty c).symm
  · rw [empty_addText hs]
    exact refl _

theorem element {name : ExpandedName} {attributes : List Attribute} (h : c.Alike d)
    (h' : c'.Alike d') :
    (Content.element name attributes c c').Alike (.element name attributes d d') := by
  rw [Alike, tidy, tidy, h, h']

end Alike

end Content
end ContactCards
