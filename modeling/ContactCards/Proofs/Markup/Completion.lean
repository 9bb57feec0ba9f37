import ContactCards.Markup.Document
import ContactCards.Markup.Element

/-! The events of a document are the start of the events of a tree, whatever is wrong with the
document: only ends of elements can be missing. -/
namespace ContactCards

variable {c : Content} {d : Nat} {events : List Event} {fault : Option Fault} {token : Token}
  {nesting nesting' : Nesting}

def Token.isTag : Token → Bool
  | startTag _ => true
  | endTag _ => true
  | _ => false

namespace Event

def isTag : Event → Bool
  | characters _ => false
  | _ => true

/-- The number of tags among events. -/
def tags (events : List Event) : Nat :=
  events.countP isTag

/-- How many elements are open after events, `d` being open before them. There is no such number
if the events end an element that is not open. -/
def depth? (d : Nat) : List Event → Option Nat
  | [] => some d
  | .start _ _ :: events => depth? (d + 1) events
  | .characters _ :: events => depth? d events
  | .finish :: events =>
    match d with
    | 0 => none
    | d + 1 => depth? d events

theorem depth?_append (d : Nat) (xs ys : List Event) :
    depth? d (xs ++ ys) = (depth? d xs).bind (depth? · ys) := by
  induction xs generalizing d with
  | nil => rfl
  | cons event xs ih =>
    cases event with
    | start => exact ih (d + 1)
    | characters => exact ih d
    | finish =>
      cases d with
      | zero => rfl
      | succ d => exact ih d

end Event

/-- The events of a content with as many elements around it as there are contents in `after`, each
of which follows the end of one of them. -/
def Content.eventsInside (c : Content) (after : List Content) : List Event :=
  c.events ++ after.flatMap fun rest => .finish :: rest.events

/-- Events are completed by the ends of the elements that they leave open. -/
theorem Event.exists_content {k : Nat} (h : depth? k events = some d) :
    ∃ (c : Content) (after : List Content), after.length = k ∧
      c.eventsInside after = events ++ List.replicate d .finish := by
  induction events generalizing k with
  | nil =>
    obtain rfl : k = d := Option.some.inj h
    refine ⟨.empty, List.replicate k .empty, List.length_replicate, ?_⟩
    simp [Content.eventsInside, Content.events, List.flatMap_replicate]
  | cons event events ih =>
    cases event with
    | characters s =>
      obtain ⟨c, after, hlen, hc⟩ := ih h
      refine ⟨.text s c, after, hlen, ?_⟩
      rw [List.cons_append, ← hc]
      rfl
    | start name attributes =>
      obtain ⟨inner, after, hlen, hc⟩ := ih h
      cases after with
      | nil => simp at hlen
      | cons rest after =>
        refine ⟨.element name attributes inner rest, after, Nat.succ.inj hlen, ?_⟩
        rw [List.cons_append, ← hc]
        simp [Content.eventsInside, Content.events]
    | finish =>
      cases k with
      | zero => simp [depth?] at h
      | succ k =>
        obtain ⟨c, after, hlen, hc⟩ := ih h
        refine ⟨.empty, c :: after, congrArg Nat.succ hlen, ?_⟩
        rw [List.cons_append, ← hc]
        rfl

namespace Nesting

/-- A computation that succeeds does so in each of its two parts. -/
theorem ok_of_bind {ε α β : Type} {x : Except ε α} {f : α → Except ε β} {b : β}
    (h : x >>= f = .ok b) : ∃ a, x = .ok a ∧ f a = .ok b := by
  cases x with
  | error => cases h
  | ok a => exact ⟨a, rfl, h⟩

/-- What a token may be: character data, the start tag of an element that stays open or is closed
at once, or an end tag. -/
theorem step_cases (h : nesting.step token = .ok (nesting', events)) :
    (token.isTag = false ∧ nesting' = nesting ∧ ∃ s, events = [.characters s]) ∨
    (token.isTag = true ∧ ∃ name attributes opened, events = [.start name attributes] ∧
      nesting' = ⟨opened :: nesting.stack, true⟩) ∨
    (token.isTag = true ∧ ∃ name attributes, events = [.start name attributes, .finish] ∧
      nesting' = ⟨nesting.stack, true⟩) ∨
    (token.isTag = true ∧ events = [.finish] ∧
      ∃ innermost, nesting = ⟨innermost :: nesting'.stack, nesting'.rooted⟩) := by
  cases token with
  | text bytes =>
    obtain ⟨s, -, h⟩ := ok_of_bind h
    cases h
    exact Or.inl ⟨rfl, rfl, s, rfl⟩
  | cdata bytes =>
    obtain ⟨s, -, h⟩ := ok_of_bind h
    cases h
    exact Or.inl ⟨rfl, rfl, s, rfl⟩
  | reference bytes =>
    obtain ⟨name, -, h⟩ := ok_of_bind h
    cases hc : Reference.expand name with
    | none => simp [hc, throw] at h
    | some c =>
      simp only [hc] at h
      cases h
      exact Or.inl ⟨rfl, rfl, c.toString, rfl⟩
  | startTag content =>
    obtain ⟨bindings, -, h⟩ := ok_of_bind h
    obtain ⟨name, -, h⟩ := ok_of_bind h
    obtain ⟨attributes, -, h⟩ := ok_of_bind h
    dsimp only at h
    split at h
    · cases h
      exact Or.inr (Or.inr (Or.inl ⟨rfl, name, attributes, rfl, rfl⟩))
    · cases h
      exact Or.inr (Or.inl ⟨rfl, name, attributes, _, rfl, rfl⟩)
  | endTag content =>
    simp only [step, closeElement] at h
    split at h
    · cases h
    · next innermost outer hstack =>
      split at h
      · cases h
        exact Or.inr (Or.inr (Or.inr ⟨rfl, rfl, innermost, by rw [← hstack]⟩))
      · cases h

/-- The elements that a token opens and closes are those of its events. -/
theorem step_depth? (h : nesting.step token = .ok (nesting', events)) :
    Event.depth? nesting.stack.length events = some nesting'.stack.length := by
  rcases step_cases h with ⟨-, rfl, s, rfl⟩ | ⟨-, name, attributes, opened, rfl, rfl⟩ |
    ⟨-, name, attributes, rfl, rfl⟩ | ⟨-, rfl, innermost, rfl⟩
  · rfl
  · rfl
  · rfl
  · rfl

theorem length_of_endFault (h : nesting.endFault = none) : nesting.stack.length = 0 := by
  by_cases hlen : 0 < nesting.stack.length
  · simp [endFault, hlen] at h
  · omega

/-- The events of a document never end an element that is not open. If there is no fault, all
elements are closed in the end. -/
theorem run_depth? {found : List Event} {tokens : List Token}
    (h : Event.depth? 0 found.reverse = some nesting.stack.length) :
    ∃ d, Event.depth? 0 (nesting.run found fault tokens).events = some d ∧
      ((nesting.run found fault tokens).fault = none → d = 0) := by
  induction tokens generalizing nesting found with
  | nil =>
    refine ⟨nesting.stack.length, h, fun hfault => ?_⟩
    have hend : nesting.endFault = none := (Option.or_eq_none_iff.mp hfault).2
    exact length_of_endFault hend
  | cons token tokens ih =>
    rw [run]
    cases hstep : nesting.step token with
    | error fault => exact ⟨nesting.stack.length, h, nofun⟩
    | ok after =>
      obtain ⟨nesting', events⟩ := after
      apply ih
      rw [List.reverse_append, List.reverse_reverse, Event.depth?_append, h]
      exact step_depth? hstep

end Nesting

/-- A content whose events are those of a transcript and the ends of the elements that it leaves
open. A transcript without a fault leaves none open. -/
def Content.Completes (c : Content) (t : Transcript) : Prop :=
  ∃ n, c.events = t.events ++ List.replicate n .finish ∧ (t.fault = none → n = 0)

/-- The events of tokens, whatever they are, are the start of a tree. -/
theorem Nesting.exists_completes (fault : Option Fault) (tokens : List Token) :
    ∃ c : Content, c.Completes (empty.run [] fault tokens) := by
  obtain ⟨d, hd, hfault⟩ : ∃ d, Event.depth? 0 (empty.run [] fault tokens).events = some d ∧
      ((empty.run [] fault tokens).fault = none → d = 0) := run_depth? rfl
  obtain ⟨c, after, hlen, hc⟩ := Event.exists_content hd
  obtain rfl := List.length_eq_zero_iff.mp hlen
  rw [Content.eventsInside, List.flatMap_nil, List.append_nil] at hc
  exact ⟨c, d, hc, hfault⟩

/-- Every document is the start of a tree. -/
theorem Transcript.exists_completes (document : List UInt8) :
    ∃ c : Content, c.Completes (.ofDocument document) :=
  Nesting.exists_completes _ _

end ContactCards
