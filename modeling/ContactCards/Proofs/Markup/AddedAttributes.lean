import ContactCards.Proofs.Markup.Completion
import ContactCards.Proofs.Markup.MappedAttributes

/-! Documents whose elements gain attributes. Reading goes on in the same way, and ends with a fault
where it did before; an element keeps the values of the attributes whose names are not among those
added. -/
namespace ContactCards

variable {allowed : String → Prop} {found : RawAttribute} {a : Attribute}
  {attributes attributes' : List Attribute} {entries entries' : List RawAttribute}
  {bindings : Bindings} {nesting : Nesting} {token token' : Token} {tokens tokens' : List Token}
  {content content' document document' : List UInt8} {fault : Option Fault}

/-- The entries of a start tag before and after attributes are added to it, in any places. None of
them is a declaration, each can be read, and their local names are allowed; what their labels are
does not matter. The entries that were there before may move. -/
inductive RawAttribute.Gain (allowed : String → Prop) :
    List RawAttribute → List RawAttribute → Prop
  | nil : Gain allowed [] []
  | keep (key value : List UInt8) (position position' : Nat) {entries entries' : List RawAttribute}
    (h : Gain allowed entries entries') :
    Gain allowed (⟨key, position, value⟩ :: entries) (⟨key, position', value⟩ :: entries')
  | add {found : RawAttribute} {a : Attribute} {entries entries' : List RawAttribute}
    (hread : Nesting.readAttribute found = .ok (some a)) (hname : allowed a.name)
    (h : Gain allowed entries entries') : Gain allowed entries (found :: entries')

/-- A start tag gains attributes. No attribute is given twice in the one tag unless one is in the
other. -/
structure Nesting.TagGain (allowed : String → Prop) (content content' : List UInt8) : Prop where
  closed : (splitSlash content').2 = (splitSlash content).2
  name : RawAttribute.nameOf (splitSlash content').1 = RawAttribute.nameOf (splitSlash content).1
  entries : ∀ distinct, RawAttribute.Gain allowed
    (RawAttribute.scan distinct (splitSlash content).1).1
    (RawAttribute.scan distinct (splitSlash content').1).1
  fault : (RawAttribute.scan true (splitSlash content').1).2.isSome =
    (RawAttribute.scan true (splitSlash content).1).2.isSome

/-- A token stays, or it is a start tag that gains attributes. -/
inductive Token.Gain (allowed : String → Prop) : Token → Token → Prop
  | same (token : Token) : Gain allowed token token
  | startTag {content content' : List UInt8} (h : Nesting.TagGain allowed content content') :
    Gain allowed (.startTag content) (.startTag content')

/-- Any of the elements of a document gain attributes with local names that are allowed, and nothing
else changes. -/
structure GainsAttributes (allowed : String → Prop) (document document' : List UInt8) : Prop where
  tokens : List.Forall₂ (Token.Gain allowed) (Token.scan document).1 (Token.scan document').1
  fault : (Token.scan document').2 = (Token.scan document).2

/-- The values of attributes that are not among the allowed ones stay. -/
def Attribute.Stay (allowed : String → Prop) (attributes attributes' : List Attribute) : Prop :=
  ∀ name, ¬ allowed name → attribute? attributes' name = attribute? attributes name

/-- An event stays, or it is the start of an element whose other attributes stay. -/
inductive Event.Gain (allowed : String → Prop) : Event → Event → Prop
  | same (event : Event) : Gain allowed event event
  | start (name : ExpandedName) {attributes attributes' : List Attribute}
    (h : Attribute.Stay allowed attributes attributes') :
    Gain allowed (.start name attributes) (.start name attributes')

/-- Two readings end together, with faults or with results that are related. -/
inductive Together {α β : Type} (R : α → β → Prop) : Except Fault α → Except Fault β → Prop
  | error (why why' : Fault) : Together R (.error why) (.error why')
  | ok {a : α} {b : β} (h : R a b) : Together R (.ok a) (.ok b)

namespace Together

theorem refl {α : Type} (x : Except Fault α) : Together Eq x x := by
  cases x with
  | error why => exact error why why
  | ok a => exact ok rfl

theorem bind {α β γ δ : Type} {R : α → β → Prop} {S : γ → δ → Prop} {x : Except Fault α}
    {y : Except Fault β} {f : α → Except Fault γ} {g : β → Except Fault δ} (h : Together R x y)
    (hfg : ∀ a b, R a b → Together S (f a) (g b)) : Together S (x >>= f) (y >>= g) := by
  cases h with
  | error why why' => exact error why why'
  | ok h => exact hfg _ _ h

end Together

theorem attribute?_cons (a : Attribute) (attributes : List Attribute) (name : String) :
    attribute? (a :: attributes) name =
      if a.name = name then some a.value else attribute? attributes name := by
  by_cases h : a.name = name <;> simp [attribute?, h]

namespace Attribute.Stay

theorem cons (a : Attribute) (h : Stay allowed attributes attributes') :
    Stay allowed (a :: attributes) (a :: attributes') := by
  intro name hname
  rw [attribute?_cons, attribute?_cons, h name hname]

theorem add (hallowed : allowed a.name) (h : Stay allowed attributes attributes') :
    Stay allowed attributes (a :: attributes') := by
  intro name hname
  have hne : a.name ≠ name := by
    rintro rfl
    exact hname hallowed
  rw [attribute?_cons, if_neg hne, h name hname]

end Attribute.Stay

/-- What is read as an attribute declares nothing. -/
theorem Bindings.declare_of_readAttribute (hread : Nesting.readAttribute found = .ok (some a))
    (bindings : Bindings) : bindings.declare found = .ok bindings := by
  rw [Nesting.readAttribute] at hread
  rw [declare]
  cases hdeclared : Bindings.declared? found.key with
  | none => rfl
  | some label =>
    rw [hdeclared] at hread
    cases hread

namespace RawAttribute.Gain

theorem foldlM_declare (h : Gain allowed entries entries') (bindings : Bindings) :
    entries'.foldlM Bindings.declare bindings = entries.foldlM Bindings.declare bindings := by
  induction h generalizing bindings with
  | nil => rfl
  | keep key value position position' h ih =>
    rw [List.foldlM_cons, List.foldlM_cons]
    exact congrArg (bindings.declare ⟨key, position, value⟩ >>= ·) (funext ih)
  | add hread hname h ih =>
    rw [List.foldlM_cons, Bindings.declare_of_readAttribute hread]
    exact ih bindings

theorem mapM_readAttribute (h : Gain allowed entries entries') :
    Together (fun xs ys => Attribute.Stay allowed (xs.filterMap id) (ys.filterMap id))
      (entries.mapM Nesting.readAttribute) (entries'.mapM Nesting.readAttribute) := by
  induction h with
  | nil => exact .ok fun _ _ => rfl
  | keep key value position position' h ih =>
    rw [List.mapM_cons, List.mapM_cons]
    refine (Together.refl (Nesting.readAttribute ⟨key, position, value⟩)).bind ?_
    rintro read _ rfl
    refine ih.bind fun xs ys hstay => .ok ?_
    cases read with
    | none => exact hstay
    | some a => exact hstay.cons a
  | @add found a entries entries' hread hname h ih =>
    -- Behind the attribute that was added the lists are read in step again.
    rw [List.mapM_cons, hread, ← bind_pure (entries.mapM Nesting.readAttribute)]
    exact ih.bind fun xs ys hstay => .ok (hstay.add hname)

end RawAttribute.Gain

namespace Nesting

theorem readAttributes_gain
    (hentries : RawAttribute.Gain allowed (RawAttribute.scan true content).1
      (RawAttribute.scan true content').1)
    (hfault : (RawAttribute.scan true content').2.isSome =
      (RawAttribute.scan true content).2.isSome) :
    Together (Attribute.Stay allowed) (readAttributes content) (readAttributes content') := by
  rw [readAttributes, readAttributes]
  generalize RawAttribute.scan true content = found at hentries hfault ⊢
  generalize RawAttribute.scan true content' = found' at hentries hfault ⊢
  obtain ⟨entries, fault⟩ := found
  obtain ⟨entries', fault'⟩ := found'
  refine hentries.mapM_readAttribute.bind fun xs ys hstay => ?_
  cases fault with
  | none =>
    obtain rfl : fault' = none := by simpa using hfault
    exact .ok hstay
  | some why =>
    obtain ⟨why', rfl⟩ := Option.isSome_iff_exists.mp hfault
    exact .error _ _

/-- A token brings about the same with attributes added to it. -/
theorem step_gain (nesting : Nesting) (h : Token.Gain allowed token token') :
    Together (fun x y => y.1 = x.1 ∧ List.Forall₂ (Event.Gain allowed) x.2 y.2)
      (nesting.step token) (nesting.step token') := by
  cases h with
  | same =>
    cases nesting.step token with
    | error why => exact .error why why
    | ok next => exact .ok ⟨rfl, List.forall₂_same.mpr fun event _ => .same event⟩
  | @startTag content content' h =>
    rw [step, step, openElement, openElement]
    dsimp only
    rw [h.closed, h.name, (h.entries false).foldlM_declare]
    refine (Together.refl _).bind ?_
    rintro bindings _ rfl
    refine (Together.refl _).bind ?_
    rintro name _ rfl
    refine (readAttributes_gain (h.entries true) h.fault).bind fun _ _ hstay => ?_
    split
    · exact .ok ⟨rfl, .cons (.start name hstay) (.cons (.same _) .nil)⟩
    · exact .ok ⟨rfl, .cons (.start name hstay) .nil⟩

/-- A run over tokens hands out the same events with attributes added. -/
theorem run_gain {events events' : List Event}
    (h : List.Forall₂ (Token.Gain allowed) tokens tokens')
    (hevents : List.Forall₂ (Event.Gain allowed) events.reverse events'.reverse) :
    List.Forall₂ (Event.Gain allowed) (nesting.run events fault tokens).events
        (nesting.run events' fault tokens').events ∧
      (nesting.run events' fault tokens').fault.isSome =
        (nesting.run events fault tokens).fault.isSome := by
  induction h generalizing nesting events events' with
  | nil => exact ⟨hevents, rfl⟩
  | @cons token token' tokens tokens' hfirst hrest ih =>
    rw [run, run]
    have hstep := nesting.step_gain hfirst
    generalize nesting.step token = x at hstep ⊢
    generalize nesting.step token' = y at hstep ⊢
    cases hstep with
    | error why why' => exact ⟨hevents, rfl⟩
    | @ok next next' hnext =>
      obtain ⟨place, more⟩ := next
      obtain ⟨place', more'⟩ := next'
      -- Both tokens lead to one place, so the runs go on side by side.
      obtain ⟨rfl, hmore⟩ := hnext
      apply ih
      rw [List.reverse_append, List.reverse_append, List.reverse_reverse, List.reverse_reverse]
      exact List.rel_append hevents hmore

end Nesting

/-- One of the elements of a document gains attributes. -/
theorem GainsAttributes.of_startTag {before after : List Token}
    (hscan : Token.scan document = (before ++ .startTag content :: after, fault))
    (hscan' : Token.scan document' = (before ++ .startTag content' :: after, fault))
    (h : Nesting.TagGain allowed content content') :
    GainsAttributes allowed document document' := by
  have hsame (tokens : List Token) : List.Forall₂ (Token.Gain allowed) tokens tokens :=
    List.forall₂_same.mpr fun token _ => .same token
  constructor
  · rw [hscan, hscan']
    exact List.rel_append (hsame before) (.cons (.startTag h) (hsame after))
  · rw [hscan, hscan']

/-- The events of a document with attributes added are those of the document with attributes added,
and it is well-formed just if the document is. -/
theorem Transcript.gain (h : GainsAttributes allowed document document') :
    List.Forall₂ (Event.Gain allowed) (ofDocument document).events (ofDocument document').events ∧
      (ofDocument document').fault.isSome = (ofDocument document).fault.isSome := by
  have hrun : ofDocument document' =
      Nesting.empty.run [] (Token.scan document).2 (Token.scan document').1 := by
    rw [← h.fault]
    rfl
  rw [hrun]
  exact Nesting.run_gain h.tokens .nil

end ContactCards
