import ContactCards.Proofs.Markup.Completion

/-! The events up to the end of an element depend on the bytes up to there only. -/
namespace ContactCards

variable {lexer lexer' : Lexer} {nesting nesting' : Nesting} {b : UInt8} {bs : List UInt8}
  {tokens : List Token} {token : Token} {events pre post : List Event} {fault : Option Fault}

namespace Lexer

/-- What a byte may complete: nothing, a token that is no tag, or a tag that ends with it. -/
def Yields (b : UInt8) (lexer' : Lexer) (tokens : List Token) : Prop :=
  tokens = [] ∨ ∃ token, tokens = [token] ∧ (token.isTag = false ∨ b = 62 ∧ lexer' = .text [])

theorem yields_flush (held : List UInt8) : Yields b lexer' (flush held) := by
  by_cases h : held.isEmpty
  · exact Or.inl (if_pos h)
  · exact Or.inr ⟨_, if_neg h, Or.inl rfl⟩

theorem yields_stepTag (quote : Option UInt8) (held : List UInt8) :
    Yields b (stepTag quote held b).1 (stepTag quote held b).2 := by
  cases quote with
  | none =>
    by_cases h : b = 62
    · exact Or.inr ⟨tagToken held.reverse, by simp [stepTag, h], Or.inr ⟨h, by simp [stepTag, h]⟩⟩
    · exact Or.inl (by simp [stepTag, h])
  | some q => exact Or.inl rfl

theorem step_yields (h : lexer.step b = .ok (lexer', tokens)) :
    Yields b lexer' tokens := by
  cases lexer with
  | text held =>
    simp only [step] at h
    split at h
    · cases h
      exact yields_flush held
    · split at h
      · cases h
        exact yields_flush held
      · cases h
        exact Or.inl rfl
  | reference held =>
    simp only [step] at h
    split at h
    · cases h
      exact Or.inr ⟨_, rfl, Or.inl rfl⟩
    · split at h
      · cases h
      · cases h
        exact Or.inl rfl
  | markup =>
    simp only [step] at h
    split at h
    · cases h
      exact Or.inl rfl
    · split at h
      · cases h
        exact Or.inl rfl
      · have hstep : stepTag none [] b = (lexer', tokens) := Except.ok.inj h
        have hc := yields_stepTag (b := b) none []
        rw [hstep] at hc
        exact hc
  | tag quote held =>
    have hstep : stepTag quote held b = (lexer', tokens) := Except.ok.inj h
    have hc := yields_stepTag (b := b) quote held
    rw [hstep] at hc
    exact hc
  | bang =>
    simp only [step] at h
    split at h
    · cases h
      exact Or.inl rfl
    · split at h
      · cases h
        exact Or.inl rfl
      · split at h
        · cases h
          exact Or.inl rfl
        · cases h
  | comment held =>
    simp only [step, stepComment] at h
    split at h
    · split at h
      · cases h
        exact Or.inl rfl
      · cases h
    · cases h
      exact Or.inl rfl
  | cdata held =>
    simp only [step, stepCdata] at h
    split at h
    · split at h
      · cases h
        exact Or.inr ⟨_, rfl, Or.inl rfl⟩
      · cases h
    · cases h
      exact Or.inl rfl
  | doctype place held =>
    simp only [step] at h
    split at h
    · cases h
      exact Or.inl rfl
    · simp only [endDoctype] at h
      split at h
      · cases h
      · split at h
        · cases h
        · cases h
          exact Or.inl rfl
  | instruction held =>
    simp only [step, stepInstruction] at h
    split at h
    · split at h
      · cases h
      · cases h
        exact Or.inl rfl
    · cases h
      exact Or.inl rfl

theorem run_found (lexer : Lexer) (found : List Token) (bs : List UInt8) :
    lexer.run found bs = (found.reverse ++ (lexer.run [] bs).1, (lexer.run [] bs).2) := by
  induction bs generalizing lexer found with
  | nil =>
    simp only [run_nil]
    cases lexer.finish <;> simp
  | cons b bs ih =>
    simp only [run_cons]
    cases lexer.step b with
    | error fault => simp
    | ok after =>
      obtain ⟨lexer', tokens⟩ := after
      simp only [ih lexer' (tokens.reverse ++ found), ih lexer' (tokens.reverse ++ [])]
      simp

end Lexer

namespace Nesting

theorem run_found (nesting : Nesting) (found : List Event) (fault : Option Fault)
    (tokens : List Token) :
    (nesting.run found fault tokens).events =
      found.reverse ++ (nesting.run [] fault tokens).events := by
  induction tokens generalizing nesting found with
  | nil => simp [run]
  | cons token tokens ih =>
    simp only [run]
    cases nesting.step token with
    | error fault => simp
    | ok after =>
      obtain ⟨nesting', events⟩ := after
      simp only [ih nesting' (events.reverse ++ found), ih nesting' (events.reverse ++ [])]
      simp

/-- What tokens say before others does not depend on these: the others say it no more, or say theirs
from some place on. -/
theorem run_append (nesting : Nesting) (fault fault' : Option Fault) (tokens later : List Token) :
    ∃ rest, (nesting.run [] fault (tokens ++ later)).events =
        (nesting.run [] fault' tokens).events ++ rest ∧
      (rest = [] ∨ ∃ nesting' : Nesting, rest = (nesting'.run [] fault later).events) := by
  induction tokens generalizing nesting with
  | nil => exact ⟨_, rfl, Or.inr ⟨nesting, rfl⟩⟩
  | cons token tokens ih =>
    rw [List.cons_append, run, run]
    cases nesting.step token with
    | error fault => exact ⟨[], rfl, Or.inl rfl⟩
    | ok after =>
      obtain ⟨nesting', events⟩ := after
      obtain ⟨rest, heq, hrest⟩ := ih nesting'
      refine ⟨rest, ?_, hrest⟩
      rw [run_found, heq, run_found nesting' (events.reverse ++ [])]
      simp

theorem fault_run_ne_none (nesting : Nesting) (found : List Event) (fault : Fault)
    (tokens : List Token) : (nesting.run found (some fault) tokens).fault ≠ none := by
  induction tokens generalizing nesting found with
  | nil => exact Option.some_ne_none fault
  | cons token tokens ih =>
    rw [run]
    cases nesting.step token with
    | error stopped => exact Option.some_ne_none stopped
    | ok after => exact ih after.1 _

/-- Only tags end elements, and no other event of theirs comes after that. -/
theorem step_finish (h : nesting.step token = .ok (nesting', pre ++ .finish :: post)) :
    token.isTag = true ∧ post = [] := by
  generalize hevents : pre ++ .finish :: post = events at h
  rcases step_cases h with ⟨-, -, s, rfl⟩ | ⟨-, name, attributes, opened, rfl, -⟩ |
    ⟨htag, name, attributes, rfl, -⟩ | ⟨htag, rfl, -⟩
  · simp [List.append_eq_cons_iff] at hevents
  · simp [List.append_eq_cons_iff] at hevents
  · obtain ⟨-, he⟩ | ⟨pre', -, he⟩ := List.append_eq_cons_iff.mp hevents
    · cases he
    · obtain ⟨-, he⟩ := List.append_eq_singleton_iff.mp he.symm |>.resolve_right nofun
      exact ⟨htag, (List.cons.inj he).2⟩
  · obtain ⟨-, he⟩ := List.append_eq_singleton_iff.mp hevents |>.resolve_right nofun
    exact ⟨htag, (List.cons.inj he).2⟩

end Nesting

/-- The events found from a place on. -/
def eventsFrom (lexer : Lexer) (nesting : Nesting) (bs : List UInt8) : List Event :=
  (nesting.run [] (lexer.run [] bs).2 (lexer.run [] bs).1).events

theorem eventsFrom_skip (h : lexer.step b = .ok (lexer', [])) :
    eventsFrom lexer nesting (b :: bs) = eventsFrom lexer' nesting bs := by
  simp only [eventsFrom, Lexer.run_cons, h]
  rfl

theorem eventsFrom_token (h : lexer.step b = .ok (lexer', [token]))
    (hn : nesting.step token = .ok (nesting', events)) :
    eventsFrom lexer nesting (b :: bs) = events ++ eventsFrom lexer' nesting' bs := by
  simp only [eventsFrom, Lexer.run_cons, h]
  rw [Lexer.run_found]
  simp only [List.reverse_nil, List.reverse_cons, List.nil_append,
    List.singleton_append, Nesting.run, hn]
  rw [Nesting.run_found]
  simp

/-- The end of the input adds character data at most. -/
theorem eventsFrom_nil (lexer : Lexer) (nesting : Nesting) :
    .finish ∉ eventsFrom lexer nesting [] := by
  cases lexer with
  | text held =>
    by_cases hheld : held.isEmpty
    · simp [eventsFrom, Lexer.run_nil, Lexer.finish, Lexer.flush, hheld, Nesting.run]
    · cases hn : nesting.step (.text held.reverse) with
      | error fault =>
        simp [eventsFrom, Lexer.run_nil, Lexer.finish, Lexer.flush, hheld, Nesting.run, hn]
      | ok after =>
        obtain ⟨nesting', events⟩ := after
        have hcharacters : .finish ∉ events := by
          intro hmem
          obtain ⟨pre, post, rfl⟩ := List.append_of_mem hmem
          cases (Nesting.step_finish hn).1
        simpa [eventsFrom, Lexer.run_nil, Lexer.finish, Lexer.flush, hheld, Nesting.run, hn]
          using hcharacters
  | tag quote held => cases quote <;> exact List.not_mem_nil
  | reference held => exact List.not_mem_nil
  | markup => exact List.not_mem_nil
  | bang => exact List.not_mem_nil
  | comment held => exact List.not_mem_nil
  | cdata held => exact List.not_mem_nil
  | doctype place held => exact List.not_mem_nil
  | instruction held => exact List.not_mem_nil

/-- Two ways to cut a list either leave an element to the second part of the one, or have it in the
first part. -/
theorem append_eq_append_cons {α : Type} {xs ys zs ws : List α} {x : α}
    (h : xs ++ ys = zs ++ x :: ws) :
    (∃ zs', zs = xs ++ zs' ∧ ys = zs' ++ x :: ws) ∨ ∃ ws', xs = zs ++ x :: ws' := by
  rcases List.append_eq_append_iff.mp h with ⟨zs', hz, hy⟩ | ⟨ws', hx, hw⟩
  · exact Or.inl ⟨zs', hz, hy⟩
  · cases ws' with
    | nil => exact Or.inl ⟨[], by simp [hx], hw.symm⟩
    | cons y ws' =>
      obtain ⟨rfl, -⟩ := List.cons.inj hw
      exact Or.inr ⟨ws', hx⟩

/-- Where the end of an element is found, the bytes up to there suffice to find it, and nothing that
follows can undo it. -/
theorem eventsFrom_finish (h : eventsFrom lexer nesting bs = pre ++ .finish :: post) :
    ∃ head rest : List UInt8, bs = head ++ rest ∧ 62 ∈ head ∧
      eventsFrom lexer nesting head = pre ++ [.finish] ∧
      ∀ tail, pre ++ [.finish] <+: eventsFrom lexer nesting (head ++ tail) := by
  induction bs generalizing lexer nesting pre with
  | nil =>
    have hmem : .finish ∈ pre ++ .finish :: post := by simp
    rw [← h] at hmem
    exact absurd hmem (eventsFrom_nil lexer nesting)
  | cons b bs ih =>
    cases hstep : lexer.step b with
    | error fault =>
      simp only [eventsFrom, Lexer.run_cons, hstep] at h
      simp [Nesting.run] at h
    | ok after =>
      obtain ⟨lexer', tokens⟩ := after
      rcases Lexer.step_yields hstep with rfl | ⟨token, rfl, htoken⟩
      · rw [eventsFrom_skip hstep] at h
        obtain ⟨head, rest, rfl, hmem, hhead, htail⟩ := ih h
        refine ⟨b :: head, rest, rfl, List.mem_cons_of_mem b hmem, ?_, ?_⟩
        · rw [eventsFrom_skip hstep, hhead]
        · intro tail
          rw [List.cons_append, eventsFrom_skip hstep]
          exact htail tail
      · cases hn : nesting.step token with
        | error fault =>
          simp only [eventsFrom, Lexer.run_cons, hstep] at h
          rw [Lexer.run_found] at h
          simp [Nesting.run, hn] at h
        | ok after =>
          obtain ⟨nesting', events⟩ := after
          rw [eventsFrom_token hstep hn] at h
          rcases append_eq_append_cons h with ⟨pre', rfl, hrest⟩ | ⟨last, rfl⟩
          · obtain ⟨head, rest, rfl, hmem, hhead, htail⟩ := ih hrest
            refine ⟨b :: head, rest, rfl, List.mem_cons_of_mem b hmem, ?_, ?_⟩
            · rw [eventsFrom_token hstep hn, hhead, List.append_assoc]
            · intro tail
              rw [List.cons_append, eventsFrom_token hstep hn, List.append_assoc]
              exact (List.prefix_append_right_inj events).mpr (htail tail)
          · -- The tag that ends with this byte is the one that ends the element.
            obtain ⟨htag, rfl⟩ := Nesting.step_finish hn
            obtain ⟨rfl, rfl⟩ : b = 62 ∧ lexer' = .text [] := by
              rcases htoken with hno | hend
              · rw [htag] at hno
                cases hno
              · exact hend
            refine ⟨[62], bs, rfl, List.mem_singleton_self 62, ?_, ?_⟩
            · rw [eventsFrom_token hstep hn]
              exact List.append_nil _
            · intro tail
              rw [List.singleton_append, eventsFrom_token hstep hn]
              exact List.prefix_append _ _

namespace Transcript

theorem events_ofDocument (document : List UInt8) :
    (ofDocument document).events = eventsFrom (.text []) .empty (Token.unmarked document) := rfl

/-- A document that cannot be read any further says what its bytes say as a document, but for
character data at their end. -/
theorem events_ofInterrupted (document : List UInt8) (reason : String) :
    ∃ rest, (ofDocument document).events = (ofInterrupted document reason).events ++ rest ∧
      .finish ∉ rest := by
  rw [ofDocument, ofInterrupted, Token.scan, Token.scanInterrupted, Lexer.runInterrupted]
  cases hadvance : (Lexer.text []).advance [] (Token.unmarked document) with
  | error stopped =>
    refine ⟨[], ?_, List.not_mem_nil⟩
    simp only [Lexer.run, hadvance, List.append_nil]
  | ok reached =>
    obtain ⟨lexer, found⟩ := reached
    have hscan : (Lexer.text []).run [] (Token.unmarked document) = lexer.run found [] := by
      simp only [Lexer.run, hadvance]
      rfl
    rw [hscan, Lexer.run_found]
    obtain ⟨rest, heq, hrest⟩ := Nesting.run_append .empty (lexer.run [] []).2
      (some (.lexical (.interrupted reason))) found.reverse (lexer.run [] []).1
    refine ⟨rest, heq, ?_⟩
    rcases hrest with rfl | ⟨nesting, rfl⟩
    · exact List.not_mem_nil
    · exact eventsFrom_nil lexer nesting

theorem fault_ofInterrupted (document : List UInt8) (reason : String) :
    (ofInterrupted document reason).fault ≠ none := by
  rw [ofInterrupted, Token.scanInterrupted, Lexer.runInterrupted]
  cases (Lexer.text []).advance [] (Token.unmarked document) with
  | error stopped => exact Nesting.fault_run_ne_none _ _ _ _
  | ok reached => exact Nesting.fault_run_ne_none _ _ _ _

/-- What a document says up to the end of an element stands in the bytes up to there, whatever
follows them. -/
theorem exists_head {document : List UInt8}
    (h : (ofDocument document).events = pre ++ .finish :: post) :
    ∃ head rest : List UInt8, document = head ++ rest ∧
      (ofDocument head).events = pre ++ [.finish] ∧
      ∀ tail, pre ++ [.finish] <+: (ofDocument (head ++ tail)).events := by
  rw [events_ofDocument] at h
  obtain ⟨head, rest, hbytes, hmem, hhead, htail⟩ := eventsFrom_finish h
  by_cases hmark : byteOrderMark <+: document
  · obtain ⟨body, rfl⟩ := hmark
    have hunmarked : ∀ bytes, Token.unmarked (byteOrderMark ++ bytes) = bytes := fun _ => rfl
    rw [hunmarked] at hbytes
    subst body
    refine ⟨byteOrderMark ++ head, rest, (List.append_assoc ..).symm, hhead, ?_⟩
    intro tail
    rw [List.append_assoc]
    exact htail tail
  · have hunmarked : ∀ bytes, ¬ byteOrderMark <+: bytes → Token.unmarked bytes = bytes := by
      intro bytes hbytes
      exact if_neg (by rwa [List.isPrefixOf_iff_prefix])
    rw [hunmarked document hmark] at hbytes
    subst document
    -- The head holds the end of a tag, so it is no part of a mark.
    have hno : ∀ tail, ¬ byteOrderMark <+: head ++ tail := by
      intro tail hp
      rcases List.prefix_or_prefix_of_prefix hp (List.prefix_append head tail) with hp | hp
      · exact hmark (hp.trans (List.prefix_append head rest))
      · have hend : 62 ∈ byteOrderMark := hp.subset hmem
        exact absurd hend (by decide)
    refine ⟨head, rest, rfl, ?_, ?_⟩
    · have hself := hno []
      rw [List.append_nil] at hself
      rw [events_ofDocument, hunmarked head hself, hhead]
    · intro tail
      rw [events_ofDocument, hunmarked _ (hno tail)]
      exact htail tail

end Transcript
end ContactCards
