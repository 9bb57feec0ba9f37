import ContactCards.Proofs.Reading.Streaming
import Mathlib.Data.List.Basic

/-! Where a reader stands. It keeps its position in several places at once, and after any events,
balanced or not, they agree: the path, the stage, the base and the draft of the open property and
the slots of its parameter block. -/
namespace ContactCards

variable {r : Registry} {x : Reader} {below : List ExpandedName} {name root : ExpandedName}

namespace Draft

/-- The names of the elements of a table from the root down to row `i`. -/
def namesTo (rows : Array DraftRow) (i : Nat) : List ExpandedName :=
  match rows[i]? with
  | some ⟨none, .element name _ _⟩ => [name]
  | some ⟨some parent, .element name _ _⟩ =>
    if parent < i then namesTo rows parent ++ [name] else []
  | _ => []

/-- The names of the open elements of a draft, the root first and the current one last. -/
def openNames (draft : Draft) : List ExpandedName :=
  namesTo draft.rows draft.current

end Draft

namespace Trail

/-- The names of the open elements, the outermost first. -/
def names (trail : Trail) : List ExpandedName :=
  (trail.outer.map Frame.name).reverse ++ [trail.inner.name]

theorem names_start (name : ExpandedName) (attributes : List Attribute) :
    (start name attributes).names = [name] := rfl

theorem names_addText (trail : Trail) (s : String) : (trail.addText s).names = trail.names := rfl

theorem names_openChild (trail : Trail) (name : ExpandedName) (attributes : List Attribute) :
    (trail.openChild name attributes).names = trail.names ++ [name] := by
  simp [names, openChild]

theorem names_closeChild {trail : Trail} (h : trail.names = root :: (below ++ [name])) :
    trail.closeChild.names = root :: below := by
  obtain ⟨inner, outer⟩ := trail
  have hlast := congrArg List.dropLast h
  rw [names, List.dropLast_concat, ← List.cons_append, List.dropLast_concat] at hlast
  cases outer with
  | nil => cases hlast
  | cons f fs => simpa [names, closeChild, Frame.add] using hlast

/-- The root is in row 0. -/
theorem currentRow_of_names {trail : Trail} (h : trail.names = [root]) : trail.currentRow = 0 := by
  obtain ⟨inner, outer⟩ := trail
  have houter : (outer.map Frame.name).reverse = [] := by
    have hlast := congrArg List.dropLast h
    rwa [names, List.dropLast_concat] at hlast
  obtain rfl : outer = [] := by simpa using houter
  rfl

/-- The names up to an open element stand in the rows before it. -/
theorem namesTo_frameRows {table : Array DraftRow} (fs : List Frame) (name : ExpandedName)
    (attributes : List Attribute) (children : List Nat) (after : List DraftRow)
    (h : table.toList = frameRows fs ++
      Content.elementRow (frameRows.parentRow fs) name attributes children :: after) :
    Draft.namesTo table (frameRows fs).length = (fs.map Frame.name).reverse ++ [name] := by
  induction fs generalizing name attributes children after with
  | nil =>
    have hrow := Content.getElem?_table _ h
    rw [Draft.namesTo, hrow]
    rfl
  | cons f fs ih =>
    have hrow := Content.getElem?_table _ h
    have hlt : (frameRows fs).length < (frameRows (f :: fs)).length := by
      rw [length_frameRows_cons]
      omega
    rw [frameRows, List.append_assoc, List.cons_append] at h
    have hnames := ih _ _ _ _ h
    rw [Draft.namesTo, hrow]
    simp [Content.elementRow, frameRows.parentRow, hlt, hnames]

theorem toDraft_openNames (trail : Trail) : trail.toDraft.openNames = trail.names :=
  namesTo_frameRows trail.outer trail.inner.name trail.inner.attributes _ _ rfl

theorem head?_names (trail : Trail) : trail.names.head? = some trail.finish.name := by
  obtain ⟨inner, outer⟩ := trail
  rw [finish]
  induction outer generalizing inner with
  | nil => rfl
  | cons f fs ih =>
    have hnames : names ⟨inner, f :: fs⟩ = names ⟨f.add inner.closed, fs⟩ ++ [inner.name] := by
      simp [names, Frame.add]
    rw [hnames, List.head?_append, ih]
    rfl

theorem toDraft_finish_name {trail : Trail} (h : trail.names = root :: below) :
    trail.toDraft.finish.name = root := by
  have hroot := trail.head?_names
  rw [h] at hroot
  rw [toDraft_finish]
  exact (Option.some.inj hroot).symm

end Trail

namespace ParameterBlock

/-- The block along a path of elements below it: the outermost of them is the parameter and the
next one its value, as far as both are in the namespace of cards. -/
def along (ps : Parameters) : List ExpandedName → ParameterBlock
  | [] => ⟨ps, none, none⟩
  | [n] => opened ps n
  | n :: w :: _ => (opened ps n).start [n, w]

theorem start_along (ps : Parameters) (below : List ExpandedName) (name : ExpandedName) :
    (along ps below).start (below ++ [name]) = along ps (below ++ [name]) := by
  match below with
  | [] => exact start_parameter name ps
  | [n] => rfl
  | n :: w :: below => exact start_below_value _ n w

theorem finish_along (ps : Parameters) (below : List ExpandedName) (name : ExpandedName)
    (text : String) :
    ∃ ps', (along ps (below ++ [name])).finish (below ++ [name]) text = along ps' below := by
  match below with
  | [] => exact ⟨ps, finish_parameter name ps⟩
  | [n] => exact ⟨_, finish_value n name ps⟩
  | n :: w :: below => exact ⟨ps, finish_below_value _ n w⟩

theorem name_opened (ps : Parameters) (m n : ExpandedName) :
    (opened ps m).name = some n ↔ m = n ∧ n.isCard := by
  by_cases hm : m.isCard
  · simp only [opened, hm, ↓reduceIte, Option.some.injEq]
    constructor
    · rintro rfl
      exact ⟨rfl, hm⟩
    · exact And.left
  · simp only [opened, hm, Bool.false_eq_true, ↓reduceIte, reduceCtorEq, false_iff]
    rintro ⟨rfl, hn⟩
    exact hm hn

/-- The parameter slot holds the first element below the block if that is in the namespace of
cards. -/
theorem name_along (ps : Parameters) (below : List ExpandedName) (n : ExpandedName) :
    (along ps below).name = some n ↔ below.head? = some n ∧ n.isCard := by
  match below with
  | [] => simp [along]
  | [m] =>
    rw [along, name_opened]
    simp
  | m :: w :: below =>
    have hname : (along ps (m :: w :: below)).name = (opened ps m).name := by
      simp only [along, start]
      split <;> rfl
    rw [hname, name_opened]
    simp

/-- The value slot holds the second element below the block if it and the first are in the
namespace of cards. -/
theorem wrapper_along (ps : Parameters) (below : List ExpandedName) (w : ExpandedName) :
    (along ps below).wrapper = some w ↔
      ∃ n deeper, below = n :: w :: deeper ∧ n.isCard ∧ w.isCard := by
  match below with
  | [] => simp [along]
  | [m] => simp [along, opened]
  | m :: v :: below =>
    have hopen : (opened ps m).name = some m ↔ m.isCard := by simp [name_opened]
    simp only [along, start, hopen]
    by_cases h : v.isCard ∧ m.isCard
    · rw [if_pos h]
      constructor
      · intro hw
        obtain rfl := Option.some.inj hw
        exact ⟨m, below, rfl, h.2, h.1⟩
      · rintro ⟨n, deeper, hb, -, -⟩
        simp_all
    · rw [if_neg h]
      constructor
      · intro hw
        cases hw
      · rintro ⟨n, deeper, hb, hn, hw⟩
        simp_all

end ParameterBlock
/-- The path up to a place. -/
def Place.path : Place → List ExpandedName
  | card => [.vcards, .vcard]
  | group _ => [.vcards, .vcard, .group]

/-- An open property agrees with the path of open elements. Its base is the path up to it. In a
parameter block the current element of the draft is the root, and the slots hold the elements below
the block; anywhere else the open elements of the draft are those from the property on, and the
slots are empty. -/
structure OpenProperty.Along (p : OpenProperty) (path : List ExpandedName) : Prop where
  base : p.base = p.place.path ++ [p.name]
  through : p.base <+: path
  root : p.draft.finish.name = p.name
  inBlock : ∀ below, path = p.base ++ .parameters :: below →
    p.draft.current = 0 ∧
    (∀ n, p.block.name = some n ↔ below.head? = some n ∧ n.isCard) ∧
    ∀ w, p.block.wrapper = some w ↔ ∃ n deeper, below = n :: w :: deeper ∧ n.isCard ∧ w.isCard
  inDraft : ∀ below, path = p.base ++ below → below.head? ≠ some .parameters →
    p.draft.openNames = p.name :: below ∧ p.block.name = none ∧ p.block.wrapper = none

/-- The scope of a reader in a card agrees with the path of open elements. -/
def Scope.Along (scope : Scope) (path : List ExpandedName) : Prop :=
  match scope with
  | .between place => path = place.path
  | .property p => p.Along path

theorem Scope.Along.ne_nil {scope : Scope} {path : List ExpandedName} (h : scope.Along path) :
    path ≠ [] := by
  cases scope with
  | between place =>
    obtain rfl : path = place.path := h
    cases place <;> simp [Place.path]
  | property p =>
    obtain ⟨hbase, ⟨below, hpath⟩, -⟩ : p.Along path := h
    simp [← hpath, hbase]

namespace Reader

/-- A reader keeps track: its path and its stage say the same of where it stands. -/
structure KeepsTrack (x : Reader) : Prop where
  outside : x.stage = .outside ↔ x.path.names = []
  collection : x.stage = .collection → x.path.names = [.vcards] ∨
    ∃ name below, x.path.names = .vcards :: name :: below ∧ name ≠ .vcard
  card : ∀ card, x.stage = .card card (.between .card) → x.path.names = [.vcards, .vcard]
  group : ∀ card label, x.stage = .card card (.between (.group label)) →
    x.path.names = [.vcards, .vcard, .group]
  property : ∀ card p, x.stage = .card card (.property p) → p.Along x.path.names

/-- The places that a reader can come to. -/
inductive Stands : Reader → Prop where
  | outside (text : String) : Stands (outside text)
  | collection (below : List ExpandedName) (text : String) (h : below.head? ≠ some .vcard) :
    Stands (inCollection below text)
  | between (d : Delivery) (place : Place) (text : String) :
    Stands (d.between place place.path text)
  | inDraft (d : Delivery) (p : OpenProperty) (trail : Trail) (ps : Parameters)
    (below : List ExpandedName) (text : String) (hbase : p.base = p.place.path ++ [p.name])
    (hnames : trail.names = p.name :: below) (h : below.head? ≠ some .parameters) :
    Stands (d.inside p trail.toDraft (.along ps []) below text)
  | inBlock (d : Delivery) (p : OpenProperty) (trail : Trail) (ps : Parameters)
    (below : List ExpandedName) (text : String) (hbase : p.base = p.place.path ++ [p.name])
    (hnames : trail.names = [p.name]) :
    Stands (d.inside p trail.toDraft (.along ps below) (.parameters :: below) text)

/-- Outside the cards there are the ends of the path to keep track of. -/
theorem keepsTrack_of_ne_card (hstage : ∀ card scope, x.stage ≠ .card card scope)
    (houtside : x.stage = .outside ↔ x.path.names = [])
    (hcollection : x.stage = .collection → x.path.names = [.vcards] ∨
      ∃ name below, x.path.names = .vcards :: name :: below ∧ name ≠ .vcard) : x.KeepsTrack where
  outside := houtside
  collection := hcollection
  card card h := absurd h (hstage card _)
  group card _ h := absurd h (hstage card _)
  property card _ h := absurd h (hstage card _)

/-- In a card there is the scope to keep track of. -/
theorem keepsTrack_of_along {card : Card} {scope : Scope} (hstage : x.stage = .card card scope)
    (h : scope.Along x.path.names) : x.KeepsTrack := by
  have hscope {c : Card} {s : Scope} (hs : x.stage = .card c s) : s.Along x.path.names := by
    obtain ⟨-, rfl⟩ := Stage.card.inj (hstage.symm.trans hs)
    exact h
  refine ⟨⟨?_, fun hpath => absurd hpath h.ne_nil⟩, ?_, fun _ hs => hscope hs,
    fun _ _ hs => hscope hs, fun _ _ hs => hscope hs⟩
  · intro hout
    cases hstage.symm.trans hout
  · intro hin
    cases hstage.symm.trans hin

theorem Stands.keepsTrack (h : Stands x) : x.KeepsTrack := by
  cases h with
  | outside text =>
    refine keepsTrack_of_ne_card ?_ (by simp [Reader.outside, empty, Path.empty]) ?_
    · intro card scope hstage
      cases hstage
    · intro hstage
      cases hstage
  | collection below text hb =>
    refine keepsTrack_of_ne_card ?_ (by simp [inCollection]) fun _ => ?_
    · intro card scope hstage
      cases hstage
    · cases below with
      | nil => exact Or.inl rfl
      | cons name below => exact Or.inr ⟨name, below, rfl, by simpa using hb⟩
  | between d place text => exact keepsTrack_of_along rfl (rfl : Scope.Along (.between place) _)
  | inDraft d p trail ps below text hbase hnames hb =>
    refine keepsTrack_of_along rfl ⟨hbase, List.prefix_append _ _,
      Trail.toDraft_finish_name hnames, ?_, ?_⟩
    · intro below' hpath
      obtain rfl := List.append_cancel_left hpath
      exact absurd rfl hb
    · intro below' hpath _
      obtain rfl := List.append_cancel_left hpath
      exact ⟨by rw [Trail.toDraft_openNames, hnames], rfl, rfl⟩
  | inBlock d p trail ps below text hbase hnames =>
    refine keepsTrack_of_along rfl ⟨hbase, List.prefix_append _ _,
      Trail.toDraft_finish_name hnames, ?_, ?_⟩
    · intro below' hpath
      obtain rfl := (List.cons.inj (List.append_cancel_left hpath)).2
      exact ⟨Trail.currentRow_of_names hnames, ParameterBlock.name_along ps below,
        ParameterBlock.wrapper_along ps below⟩
    · intro below' hpath hb
      obtain rfl := List.append_cancel_left hpath
      exact absurd rfl hb

theorem step_finish_collection (text : String) :
    ((inCollection [] text).step r .finish).1 = Reader.outside "" := rfl

theorem Stands.start (h : Stands x) (name : ExpandedName) (attributes : List Attribute) :
    Stands (x.step r (.start name attributes)).1 := by
  cases h with
  | outside text =>
    by_cases hname : name = .vcards
    · subst name
      rw [step_start_collection]
      exact .collection [] "" nofun
    · rw [step_start_outside hname]
      exact .outside ""
  | collection below text hb =>
    by_cases hcard : below = [] ∧ name = .vcard
    · obtain ⟨rfl, rfl⟩ := hcard
      rw [step_start_card]
      exact .between .empty .card ""
    · rw [step_start_within fun hnil hname => hcard ⟨hnil, hname⟩]
      refine .collection _ "" ?_
      cases below with
      | nil => simpa using hcard
      | cons => exact hb
  | between d place text =>
    by_cases hgroup : place = .card ∧ name = .group
    · obtain ⟨rfl, rfl⟩ := hgroup
      rw [step_start_group]
      exact .between d (.group (attribute? attributes "name")) ""
    · rw [step_start_property fun hplace hname => hgroup ⟨hplace, hname⟩]
      exact .inDraft d (openProperty place (place.path ++ [name]) name attributes) _ .empty [] ""
        rfl (Trail.names_start name attributes) nofun
  | inDraft d p trail ps below text hbase hnames hb =>
    by_cases hblock : (below ++ [name]).head? = some .parameters
    · obtain ⟨rfl, rfl⟩ : below = [] ∧ name = .parameters := by
        cases below with
        | nil => exact ⟨rfl, by simpa using hblock⟩
        | cons => exact absurd hblock hb
      rw [step_start_parameters, Trail.toDraft_addText]
      exact .inBlock d p _ ps [] "" hbase hnames
    · rw [step_start_draft text hblock, Trail.toDraft_addText, Trail.toDraft_openChild]
      refine .inDraft d p _ ps _ "" hbase ?_ hblock
      rw [Trail.names_openChild, Trail.names_addText, hnames, List.cons_append]
  | inBlock d p trail ps below text hbase hnames =>
    rw [step_start_block, ParameterBlock.start_along]
    exact .inBlock d p trail ps _ "" hbase hnames

theorem head?_ne_of_concat (h : (below ++ [name]).head? ≠ some root) :
    below.head? ≠ some root := by
  cases below with
  | nil => nofun
  | cons => exact h

theorem Stands.finish (h : Stands x) : Stands (x.step r .finish).1 := by
  cases h with
  | outside text => exact .outside ""
  | collection below text hb =>
    rcases List.eq_nil_or_concat' below with rfl | ⟨below, name, rfl⟩
    · rw [step_finish_collection]
      exact .outside ""
    · rw [step_finish_within]
      exact .collection below "" (head?_ne_of_concat hb)
  | between d place text =>
    cases place with
    | card => exact .collection [] "" nofun
    | group label =>
      have hfinish : ((d.between (.group label) ([.vcards, .vcard] ++ [.group]) text).step r
          .finish).1 = d.between .card [.vcards, .vcard] "" := step_finish_group
      exact hfinish ▸ .between d .card ""
  | inDraft d p trail ps below text hbase hnames hb =>
    rcases List.eq_nil_or_concat' below with rfl | ⟨below, name, rfl⟩
    · rw [step_finish_property, hbase, List.dropLast_concat]
      exact .between _ p.place ""
    · rw [step_finish_draft text hb, Trail.toDraft_addText, Trail.toDraft_closeChild]
      exact .inDraft d p _ ps below "" hbase (Trail.names_closeChild hnames)
        (head?_ne_of_concat hb)
  | inBlock d p trail ps below text hbase hnames =>
    rcases List.eq_nil_or_concat' below with rfl | ⟨below, name, rfl⟩
    · rw [step_finish_parameters]
      exact .inDraft d p trail ps [] "" hbase hnames nofun
    · obtain ⟨ps', hps⟩ := ParameterBlock.finish_along ps below name text
      rw [step_finish_block, hps]
      exact .inBlock d p trail ps' below "" hbase hnames

theorem Stands.characters (h : Stands x) (s : String) :
    Stands (x.step r (.characters s)).1 := by
  cases h with
  | outside text => exact .outside (text ++ s)
  | collection below text hb => exact .collection below (text ++ s) hb
  | between d place text => exact .between d place (text ++ s)
  | inDraft d p trail ps below text hbase hnames hb =>
    exact .inDraft d p trail ps below (text ++ s) hbase hnames hb
  | inBlock d p trail ps below text hbase hnames =>
    exact .inBlock d p trail ps below (text ++ s) hbase hnames

theorem Stands.step (h : Stands x) (r : Registry) (event : Event) :
    Stands (x.step r event).1 := by
  cases event with
  | start name attributes => exact h.start name attributes
  | characters s => exact h.characters s
  | finish => exact h.finish

theorem Stands.after (h : Stands x) (r : Registry) (events : List Event) :
    Stands (x.after r events) := by
  induction events generalizing x with
  | nil => exact h
  | cons event events ih => exact ih (h.step r event)

/-- After any events, balanced or not, the reader keeps track of where it stands. -/
theorem keepsTrack_after (r : Registry) (events : List Event) :
    (Reader.empty.after r events).KeepsTrack :=
  ((Stands.outside "").after r events).keepsTrack

end Reader
end ContactCards
