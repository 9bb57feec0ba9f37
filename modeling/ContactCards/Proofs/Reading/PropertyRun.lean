import ContactCards.Proofs.Markup.Trail
import ContactCards.Proofs.Reading.Meaning

/-! Reading one property element: its content grows as a draft, and its parameter blocks fill the
parameters and leave no trace in the draft. -/
namespace ContactCards

variable {r : Registry} {c : Content} {text : String} {name : ExpandedName}
  {attributes : List Attribute} {base below : List ExpandedName}

namespace Path

@[simp] theorem isAt_append (base below : List ExpandedName) :
    Path.isAt ⟨base ++ below⟩ base = below.isEmpty := by
  cases below with
  | nil => simp [isAt]
  | cons => simp [isAt]

@[simp] theorem isInside_append (base below tail : List ExpandedName) :
    Path.isInside ⟨base ++ below⟩ base tail = (below == tail) := by
  rw [Bool.eq_iff_iff]
  simp [isInside]

@[simp] theorem leadsThrough_append (base below tail : List ExpandedName) :
    Path.leadsThrough ⟨base ++ below⟩ base tail = tail.isPrefixOf below := by
  induction base with
  | nil => rfl
  | cons name base ih => simpa [leadsThrough] using ih

@[simp] theorem push_append (base below : List ExpandedName) (name : ExpandedName) :
    Path.push ⟨base ++ below⟩ name = ⟨base ++ (below ++ [name])⟩ := by
  simp [push]

@[simp] theorem pop_append (base below : List ExpandedName) (name : ExpandedName) :
    Path.pop ⟨base ++ (below ++ [name])⟩ = ⟨base ++ below⟩ := by
  rw [← List.append_assoc]
  simp [pop]

@[simp] theorem below_append (base below : List ExpandedName) :
    Path.below ⟨base ++ below⟩ (base.length + 1) = below.drop 1 := by
  simp [Path.below, ← List.drop_drop]

theorem singleton_isPrefixOf {names : List ExpandedName} (h : names.head? ≠ some name) :
    [name].isPrefixOf names = false := by
  cases names with
  | nil => rfl
  | cons x names =>
    have hx : (name == x) = false := by
      rw [beq_eq_false_iff_ne]
      rintro rfl
      exact h rfl
    simp [List.isPrefixOf, hx]

end Path

namespace Parameters

/-- Puts values under names, one after another. -/
def putAll (ps : Parameters) (puts : List (String × String)) : Parameters :=
  puts.foldl (fun ps (name, value) => ps.put name value) ps

@[simp] theorem putAll_nil (ps : Parameters) : ps.putAll [] = ps := rfl

theorem putAll_append (ps : Parameters) (puts puts' : List (String × String)) :
    ps.putAll (puts ++ puts') = (ps.putAll puts).putAll puts' :=
  List.foldl_append

end Parameters

namespace ParameterBlock

variable (block : ParameterBlock) (n w : ExpandedName)

theorem start_below_value : block.start (n :: w :: (below ++ [name])) = block := by
  cases below <;> rfl

theorem finish_below_value : block.finish (n :: w :: (below ++ [name])) text = block := by
  cases below <;> rfl

/-- The block while the parameter element called `n` is open; elements outside the namespace of
cards open no parameter. -/
def opened (ps : Parameters) (n : ExpandedName) : ParameterBlock :=
  ⟨ps, if n.isCard then some n else none, none⟩

theorem start_parameter (ps : Parameters) :
    (ParameterBlock.mk ps none none).start [n] = opened ps n := by
  by_cases h : n.isCard <;> simp [start, opened, h]

theorem finish_parameter (ps : Parameters) :
    (opened ps n).finish [n] text = ⟨ps, none, none⟩ := by
  by_cases h : n.isCard <;> simp [finish, opened, h]

/-- From the start of a value to its end the value is put, if both elements are in the namespace of
cards. -/
theorem finish_value (ps : Parameters) :
    ((opened ps n).start [n, w]).finish [n, w] text =
      opened (if n.isCard ∧ w.isCard then ps.put n.localName text else ps) n := by
  by_cases hn : n.isCard <;> by_cases hw : w.isCard <;> simp [start, finish, opened, hn, hw]

end ParameterBlock

namespace Element

variable {n w : ExpandedName} {as ws : List Attribute}

theorem puts_empty : puts ⟨n, as, .empty⟩ = [] := rfl

theorem puts_element (inner rest : Content) :
    puts ⟨n, as, .element w ws inner rest⟩ =
      (if w.isCard then [(n.localName, inner.lastText "")] else []) ++ puts ⟨n, as, rest⟩ := by
  by_cases hw : w.isCard <;> simp [puts, cardElements, elements, Content.elements, localName, hw]

theorem parameterPuts_block (inner rest : Content) :
    parameterPuts ⟨n, as, .element .parameters ws inner rest⟩ =
      (inner.elements.filter (·.name.isCard)).flatMap puts ++ parameterPuts ⟨n, as, rest⟩ := by
  simp [parameterPuts, elements, Content.elements, cardElements]

theorem parameterPuts_element {inner rest : Content} (h : w ≠ .parameters) :
    parameterPuts ⟨n, as, .element w ws inner rest⟩ = parameterPuts ⟨n, as, rest⟩ := by
  simp [parameterPuts, elements, Content.elements, h]

end Element

/-- A place inside the property `p`, which has grown to a draft and a parameter block. -/
def Delivery.inside (d : Delivery) (p : OpenProperty) (draft : Draft) (block : ParameterBlock)
    (below : List ExpandedName) (text : String) : Reader :=
  ⟨⟨p.base ++ below⟩, text, d.warnings, .card d.card (.property { p with draft, block })⟩

/-- A place in a card or in one of its groups, between properties. -/
def Delivery.between (d : Delivery) (place : Place) (names : List ExpandedName) (text : String) :
    Reader :=
  ⟨⟨names⟩, text, d.warnings, .card d.card (.between place)⟩

namespace Reader

variable {d : Delivery} {p : OpenProperty} {draft : Draft} {block : ParameterBlock}

/-- Inside a parameter block an element goes to the block. -/
theorem step_start_block (below : List ExpandedName) (text : String) :
    ((d.inside p draft block (.parameters :: below) text).step r (.start name attributes)).1 =
      d.inside p draft (block.start (below ++ [name])) (.parameters :: (below ++ [name])) "" := by
  simp [step, start, Delivery.inside, startInCard, startInProperty]

/-- A parameter block leaves the text before it in the draft. -/
theorem step_start_parameters (text : String) :
    ((d.inside p draft block [] text).step r (.start .parameters attributes)).1 =
      d.inside p (draft.addText text) block [.parameters] "" := by
  simp only [step, start, Delivery.inside, startInCard, startInProperty, Path.leadsThrough_append,
    Path.isAt_append, Path.push_append]
  rfl

/-- Any other element becomes part of the draft. -/
theorem step_start_draft (text : String) (h : (below ++ [name]).head? ≠ some .parameters) :
    ((d.inside p draft block below text).step r (.start name attributes)).1 =
      d.inside p ((draft.addText text).openChild name attributes) block (below ++ [name]) "" := by
  have hthrough : [ExpandedName.parameters].isPrefixOf below = false := by
    apply Path.singleton_isPrefixOf
    cases below with
    | nil => simp
    | cons => exact h
  have hat : ¬ (below.isEmpty = true ∧ name = .parameters) := by
    rintro ⟨hb, rfl⟩
    have hb : below = [] := by simpa using hb
    subst below
    exact h rfl
  simp only [step, start, Delivery.inside, startInCard, startInProperty, Path.leadsThrough_append,
    Path.isAt_append, Path.push_append, hthrough, hat]
  rfl

/-- The end of an element in a parameter block goes to the block. -/
theorem step_finish_block (below : List ExpandedName) (name : ExpandedName) (text : String) :
    ((d.inside p draft block (.parameters :: (below ++ [name])) text).step r .finish).1 =
      d.inside p draft (block.finish (below ++ [name]) text) (.parameters :: below) "" := by
  have hpop := Path.pop_append p.base (.parameters :: below) name
  rw [List.cons_append] at hpop
  simp [step, finish, Delivery.inside, finishInProperty, hpop]

/-- The text in a parameter block itself is dropped. -/
theorem step_finish_parameters (text : String) :
    ((d.inside p draft block [.parameters] text).step r .finish).1 =
      d.inside p draft block [] "" := by
  have hpop := Path.pop_append p.base [] .parameters
  rw [List.nil_append] at hpop
  simp [step, finish, Delivery.inside, finishInProperty, hpop]

theorem step_finish_draft (text : String) (h : (below ++ [name]).head? ≠ some .parameters) :
    ((d.inside p draft block (below ++ [name]) text).step r .finish).1 =
      d.inside p (draft.addText text).closeChild block below "" := by
  have hpop := Path.pop_append p.base below name
  have hthrough := Path.singleton_isPrefixOf h
  have hinside : (below ++ [name] == [ExpandedName.parameters]) = false := by
    rw [beq_eq_false_iff_ne]
    intro hb
    rw [hb] at h
    exact h rfl
  simp [step, finish, Delivery.inside, finishInProperty, hpop, hthrough, hinside]

/-- Inside a property nothing happens at the end of an element. -/
theorem act?_finish_inside (h : below ≠ []) :
    (d.inside p draft block below text).act? .finish = none := by
  simp [act?, Delivery.inside, h]

/-- A child element: its start, its content, its end and what follows. -/
theorem Runs.child {role role' : Role} {inner rest : Content} {x y z : Reader}
    (hrole : role.child name attributes = role')
    (hi : Runs r (x.step r (.start name attributes)).1 inner.events (inner.acts r role') y)
    (hr : Runs r (y.step r .finish).1 rest.events (rest.acts r role) z)
    (hact : y.act? .finish = role'.act? r ⟨name, attributes, inner⟩) :
    Runs r x (Content.element name attributes inner rest).events
      ((Content.element name attributes inner rest).acts r role) z := by
  have h := hi.element hr
  rw [hact] at h
  rw [Content.acts, hrole]
  exact h

/-- A child element inside a property. -/
theorem Runs.elementInside {inner rest : Content} {y z : Reader} (hb : below ≠ [])
    (hi : Runs r (y.step r (.start name attributes)).1 inner.events (inner.acts r .within)
      (d.inside p draft block below text))
    (hr : Runs r ((d.inside p draft block below text).step r .finish).1 rest.events
      (rest.acts r .within) z) :
    Runs r y (Content.element name attributes inner rest).events
      ((Content.element name attributes inner rest).acts r .within) z :=
  Runs.child rfl hi hr (act?_finish_inside hb)

/-- An element in a parameter block. -/
theorem Runs.elementInBlock {inner rest : Content} {z : Reader} {block' : ParameterBlock}
    (below : List ExpandedName) (s : String)
    (hi : Runs r (d.inside p draft (block.start (below ++ [name]))
        (.parameters :: (below ++ [name])) "") inner.events (inner.acts r .within)
      (d.inside p draft block' (.parameters :: (below ++ [name])) s))
    (hr : Runs r (d.inside p draft (block'.finish (below ++ [name]) s) (.parameters :: below) "")
      rest.events (rest.acts r .within) z) :
    Runs r (d.inside p draft block (.parameters :: below) text)
      (Content.element name attributes inner rest).events
      ((Content.element name attributes inner rest).acts r .within) z := by
  apply Runs.elementInside (List.cons_ne_nil _ _)
  · rw [step_start_block]
    exact hi
  · rw [step_finish_block]
    exact hr

/-- Below the value of a parameter nothing but the character data matters. -/
theorem runs_below_value (c : Content) (n w : ExpandedName) (below : List ExpandedName)
    (text : String) :
    Runs r (d.inside p draft block (.parameters :: n :: w :: below) text) c.events
      (c.acts r .within)
      (d.inside p draft block (.parameters :: n :: w :: below) (c.lastText text)) := by
  induction c generalizing below text with
  | empty => exact Runs.nil r _
  | text s rest ih => exact Runs.characters (ih below (text ++ s))
  | element name attributes inner rest ihi ihr =>
    apply Runs.elementInBlock (n :: w :: below) (inner.lastText "")
    · rw [List.cons_append, List.cons_append, ParameterBlock.start_below_value]
      exact ihi (below ++ [name]) ""
    · rw [List.cons_append, List.cons_append, ParameterBlock.finish_below_value]
      exact ihr below ""

/-- Below a parameter each child element is a value. -/
theorem runs_below_parameter (c : Content) (n : ExpandedName) (as : List Attribute)
    (ps : Parameters) (text : String) :
    Runs r (d.inside p draft (.opened ps n) [.parameters, n] text) c.events (c.acts r .within)
      (d.inside p draft
        (.opened (ps.putAll (if n.isCard then Element.puts ⟨n, as, c⟩ else [])) n)
        [.parameters, n] (c.lastText text)) := by
  induction c generalizing ps text with
  | empty =>
    rw [Element.puts_empty, ite_self]
    exact Runs.nil r _
  | text s rest ih => exact Runs.characters (ih ps (text ++ s))
  | element w ws inner rest _ ih =>
    apply Runs.elementInBlock [n] (inner.lastText "")
    · exact runs_below_value inner n w [] ""
    · rw [List.singleton_append, ParameterBlock.finish_value]
      have hputs : ps.putAll (if n.isCard then Element.puts ⟨n, as, .element w ws inner rest⟩
          else []) = (if n.isCard ∧ w.isCard then ps.put n.localName (inner.lastText "")
            else ps).putAll (if n.isCard then Element.puts ⟨n, as, rest⟩ else []) := by
        by_cases hn : n.isCard
        · by_cases hw : w.isCard <;>
            simp [hn, hw, Element.puts_element, Parameters.putAll]
        · simp [hn]
      rw [hputs]
      exact ih _ ""

/-- In a parameter block each child element in the namespace of cards is a parameter. -/
theorem runs_in_block (c : Content) (ps : Parameters) (text : String) :
    Runs r (d.inside p draft ⟨ps, none, none⟩ [.parameters] text) c.events (c.acts r .within)
      (d.inside p draft
        ⟨ps.putAll ((c.elements.filter (·.name.isCard)).flatMap Element.puts), none, none⟩
        [.parameters] (c.lastText text)) := by
  induction c generalizing ps text with
  | empty => exact Runs.nil r _
  | text s rest ih => exact Runs.characters (ih ps (text ++ s))
  | element n as inner rest _ ih =>
    apply Runs.elementInBlock [] (inner.lastText "")
    · rw [List.nil_append, ParameterBlock.start_parameter]
      exact runs_below_parameter inner n as ps ""
    · rw [List.nil_append, ParameterBlock.finish_parameter]
      have hputs : (((Content.element n as inner rest).elements.filter (·.name.isCard)).flatMap
          Element.puts) = (if n.isCard then Element.puts ⟨n, as, inner⟩ else []) ++
            (rest.elements.filter (·.name.isCard)).flatMap Element.puts := by
        by_cases hn : n.isCard <;> simp [Content.elements, hn]
      rw [hputs, Parameters.putAll_append]
      exact ih _ ""

/-- An element that becomes part of the draft. -/
theorem Runs.elementInDraft {inner rest : Content} {z : Reader} {trail trail' : Trail} {s : String}
    (h : (below ++ [name]).head? ≠ some .parameters)
    (hi : Runs r (d.inside p ((trail.addText text).openChild name attributes).toDraft block
        (below ++ [name]) "") inner.events (inner.acts r .within)
      (d.inside p trail'.toDraft block (below ++ [name]) s))
    (hr : Runs r (d.inside p (trail'.addText s).closeChild.toDraft block below "") rest.events
      (rest.acts r .within) z) :
    Runs r (d.inside p trail.toDraft block below text)
      (Content.element name attributes inner rest).events
      ((Content.element name attributes inner rest).acts r .within) z := by
  have hb : below ++ [name] ≠ [] := by simp
  apply Runs.elementInside hb
  · rw [step_start_draft text h, Trail.toDraft_addText, Trail.toDraft_openChild]
    exact hi
  · rw [step_finish_draft s h, Trail.toDraft_addText, Trail.toDraft_closeChild]
    exact hr

/-- In an element that is part of the draft, the whole content becomes part of it. The last text
stays pending until the next tag. -/
theorem runs_in_draft (c : Content) (trail : Trail) (text : String) (hb : below ≠ [])
    (h : below.head? ≠ some .parameters) :
    ∃ trail' : Trail,
      Runs r (d.inside p trail.toDraft block below text) c.events (c.acts r .within)
        (d.inside p trail'.toDraft block below (c.lastText text)) ∧
      trail'.addText (c.lastText text) = (trail.addText text).extend c := by
  induction c generalizing trail below text with
  | empty => exact ⟨trail, Runs.nil r _, rfl⟩
  | text s rest ih =>
    obtain ⟨trail', hrun, htrail⟩ := ih trail (text ++ s) hb h
    refine ⟨trail', Runs.characters hrun, ?_⟩
    rw [← Trail.addText_addText] at htrail
    exact htrail
  | element name attributes inner rest ihi ihr =>
    have h' : (below ++ [name]).head? ≠ some .parameters := by
      cases below with
      | nil => exact absurd rfl hb
      | cons => exact h
    obtain ⟨inside, hi, htrail⟩ :=
      ihi ((trail.addText text).openChild name attributes) "" (by simp) h'
    obtain ⟨trail', hr, htrail'⟩ :=
      ihr (inside.addText (inner.lastText "")).closeChild "" hb h
    refine ⟨trail', Runs.elementInDraft h' hi hr, ?_⟩
    rw [Trail.addText_empty] at htrail htrail'
    rw [Trail.extend_element, ← htrail]
    exact htrail'

/-- In the property itself everything but its parameter blocks becomes part of the draft. -/
theorem runs_in_property (c : Content) (n : ExpandedName) (as : List Attribute) (ps : Parameters)
    (trail : Trail) (text : String) :
    ∃ trail' : Trail,
      Runs r (d.inside p trail.toDraft ⟨ps, none, none⟩ [] text) c.events (c.acts r .within)
        (d.inside p trail'.toDraft ⟨ps.putAll (Element.parameterPuts ⟨n, as, c⟩), none, none⟩
          [] (c.lastText text)) ∧
      trail'.addText (c.lastText text) = (trail.addText text).extend c.withoutBlocks := by
  induction c generalizing ps trail text with
  | empty => exact ⟨trail, Runs.nil r _, rfl⟩
  | text s rest ih =>
    obtain ⟨trail', hrun, htrail⟩ := ih ps trail (text ++ s)
    refine ⟨trail', Runs.characters hrun, ?_⟩
    rw [← Trail.addText_addText] at htrail
    exact htrail
  | element m ms inner rest _ ih =>
    by_cases hm : m = .parameters
    · subst m
      obtain ⟨trail', hr, htrail⟩ := ih
        (ps.putAll ((inner.elements.filter (·.name.isCard)).flatMap Element.puts))
        (trail.addText text) ""
      refine ⟨trail', ?_, ?_⟩
      · rw [Element.parameterPuts_block, Parameters.putAll_append]
        apply Runs.elementInside (List.cons_ne_nil _ _)
        · rw [step_start_parameters, Trail.toDraft_addText]
          exact runs_in_block inner ps ""
        · rw [step_finish_parameters]
          exact hr
      · rw [Trail.addText_empty] at htrail
        exact htrail
    · have hhead : ([] ++ [m]).head? ≠ some ExpandedName.parameters := by simpa using hm
      obtain ⟨inside, hi, htrail⟩ :=
        runs_in_draft inner ((trail.addText text).openChild m ms) "" (by simp) hhead
      obtain ⟨trail', hr, htrail'⟩ := ih ps (inside.addText (inner.lastText "")).closeChild ""
      refine ⟨trail', ?_, ?_⟩
      · rw [Element.parameterPuts_element hm]
        exact Runs.elementInDraft hhead hi hr
      · rw [Trail.addText_empty] at htrail htrail'
        rw [Content.withoutBlocks, if_neg hm, Trail.extend_element, ← htrail]
        exact htrail'

/-- A property element starts in a place that is no property. -/
theorem step_start_property {place : Place} {names : List ExpandedName} {text : String}
    (h : place = .card → name ≠ .group) :
    ((d.between place names text).step r (.start name attributes)).1 =
      d.inside (openProperty place (names ++ [name]) name attributes)
        (Trail.start name attributes).toDraft .empty [] "" := by
  cases place with
  | card => simp [step, start, startInCard, Delivery.between, Delivery.inside, openProperty,
      Path.push, h rfl]
  | group label => simp [step, start, startInCard, Delivery.between, Delivery.inside,
      openProperty, Path.push]

theorem act?_finish_property (d : Delivery) (p : OpenProperty) (trail : Trail)
    (block : ParameterBlock) (text : String) :
    (d.inside p trail.toDraft block [] text).act? .finish =
      some (.decode ⟨p.name, p.place.label, (trail.addText text).finish, block.parameters⟩) := by
  simp [act?, Delivery.inside, OpenProperty.close, Trail.toDraft_addText, Trail.toDraft_finish,
    Path.isAt]

theorem step_finish_property (d : Delivery) (p : OpenProperty) (trail : Trail)
    (block : ParameterBlock) (text : String) :
    ((d.inside p trail.toDraft block [] text).step r .finish).1 =
      (d.conclude r ⟨p.name, p.place.label, (trail.addText text).finish,
        block.parameters⟩).between p.place p.base.dropLast "" := by
  simp [step, finish, Delivery.inside, Delivery.between, Delivery.conclude, OpenProperty.close,
    Trail.toDraft_addText, Trail.toDraft_finish, Path.isAt, Path.pop]

/-- A property element and what follows it: its decoder is told of it at its end. -/
theorem runs_property {place : Place} {names : List ExpandedName} {rest : List Event}
    {js : List (Option Act)} {z : Reader} (c : Content) (h : place = .card → name ≠ .group)
    (hr : Runs r ((d.conclude r (Element.asProperty place.label ⟨name, attributes, c⟩)).between
      place names "") rest js z) :
    Runs r (d.between place names text) (.start name attributes :: c.events ++ .finish :: rest)
      (none :: (c.acts r .within ++
        some (.decode (Element.asProperty place.label ⟨name, attributes, c⟩)) :: js)) z := by
  let p := openProperty place (names ++ [name]) name attributes
  let block : ParameterBlock := ⟨.ofPuts (Element.parameterPuts ⟨name, attributes, c⟩), none, none⟩
  obtain ⟨trail, hrun, htrail⟩ := runs_in_property (r := r) (d := d) (p := p) c name attributes
    .empty (Trail.start name attributes) ""
  have hproperty : Element.asProperty place.label ⟨name, attributes, c⟩ =
      ⟨p.name, p.place.label, (trail.addText (c.lastText "")).finish, block.parameters⟩ := by
    rw [htrail, Trail.addText_empty, Trail.start_extend_finish]
    rfl
  have hact := act?_finish_property d p trail block (c.lastText "")
  have hstep := step_finish_property (r := r) d p trail block (c.lastText "")
  have hbase : p.base.dropLast = names := List.dropLast_concat
  rw [hbase] at hstep
  have hstart : Runs r ((d.between place names text).step r (.start name attributes)).1 c.events
      (c.acts r .within) (d.inside p trail.toDraft block [] (c.lastText "")) := by
    rw [step_start_property h]
    exact hrun
  rw [hproperty] at hr ⊢
  rw [← hact]
  apply hstart.element
  rw [hstep]
  exact hr

end Reader
end ContactCards
