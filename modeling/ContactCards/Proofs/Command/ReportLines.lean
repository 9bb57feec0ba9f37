import ContactCards.Proofs.Command.Printing
import ContactCards.Proofs.Command.ShownTexts
import ContactCards.Proofs.Text.LineBreaks
import Mathlib

/-! The lines of a report. There is one for the card, one for each of its properties and one for
each warning, and one more for every line break in the texts that these show. -/
namespace ContactCards

namespace Report

theorem lineBreaks_propertyLine (p : Property) :
    lineBreaks (propertyLine p) = lineBreaksIn p.shown := by
  have hdot : lineBreaks "." = 0 := rfl
  have hsemicolon : lineBreaks ";" = 0 := rfl
  have hcolon : lineBreaks ": " = 0 := rfl
  have hgroup : lineBreaks ((p.group.map (· ++ ".")).getD "") = lineBreaksIn p.group.toList := by
    apply lineBreaks_optional
    simp [hdot]
  have hparameters : lineBreaks (if p.parameters.isEmpty then "" else ";" ++ p.parameters.render) =
      lineBreaksIn p.parameters.shown := by
    split_ifs with hempty
    · rw [Parameters.shown, List.isEmpty_iff.mp hempty]
      rfl
    · simp [hsemicolon, Parameters.lineBreaks_render]
  simp only [propertyLine, Property.shown, lineBreaks_append, lineBreaksIn_append,
    lineBreaksIn_cons, hgroup, hparameters, hcolon, Value.lineBreaks_render]
  omega

theorem lineBreaks_summaryLine (n : Nat) (card : Card) :
    lineBreaks (summaryLine n card) = 0 := by
  have hcard : lineBreaks "card " = 0 := rfl
  have hversion : lineBreaks ": version " = 0 := rfl
  have hcomma : lineBreaks ", " = 0 := rfl
  have hproperties : lineBreaks " properties" = 0 := rfl
  have hrender : lineBreaks card.version.render = 0 := by cases card.version <;> rfl
  have hline : summaryLine n card = "card " ++ toString n ++ ": version " ++
      card.version.render ++ (", " ++ toString card.size ++ " properties") := rfl
  simp only [hline, lineBreaks_append, lineBreaks_toString, hcard, hversion, hcomma, hproperties,
    hrender]

/-- The lines about a card have the line breaks of the texts that they show. -/
theorem lineBreaksIn_lines (showWarnings : Bool) (n : Nat) (d : Delivery) :
    lineBreaksIn (lines showWarnings n d) = lineBreaksIn (d.shown showWarnings) := by
  have hproperties : lineBreaksIn (d.card.properties.flatMap Property.shown) =
      lineBreaksIn (d.card.properties.map ("  " ++ propertyLine ·)) := by
    apply lineBreaksIn_flatMap
    intro p _
    have hindent : lineBreaks "  " = 0 := rfl
    rw [lineBreaks_append, hindent, lineBreaks_propertyLine, Nat.zero_add]
  have hwarnings : lineBreaksIn (d.warnings.flatMap Warning.shown) =
      lineBreaksIn (d.warnings.map ("  warning: " ++ ·.render)) := by
    apply lineBreaksIn_flatMap
    intro w _
    have hword : lineBreaks "  warning: " = 0 := rfl
    rw [lineBreaks_append, hword, Warning.lineBreaks_render, Nat.zero_add]
  rw [lines, Delivery.shown, List.cons_append, lineBreaksIn_cons, lineBreaks_summaryLine,
    lineBreaksIn_append, lineBreaksIn_append, hproperties, Nat.zero_add]
  cases showWarnings
  · rfl
  · simp only [if_true, hwarnings]

/-- A text at the end of a card may have a line break and whole lines behind it, those of any other
card among them. -/
theorem block_forged (showWarnings : Bool) (n : Nat) (version : Version) (ps : List Property)
    (p : Property) (s : String) (next : Delivery) :
    let card (s : String) : Delivery :=
      ⟨⟨version, ps ++ [{ p with value := .text s, raw := s }]⟩, []⟩
    block showWarnings n (card (s ++ "\n" ++ joined '\n' (lines showWarnings (n + 1) next))) =
      block showWarnings n (card s) ++ block showWarnings (n + 1) next := by
  intro card
  have hproperty (s : String) : propertyLine { p with value := .text s, raw := s } =
      propertyLine { p with value := .text "" } ++ s := by
    simp [propertyLine, Value.render]
  -- Everything up to the text, which is the end of the last line.
  obtain ⟨head, hblock⟩ : ∃ head, ∀ s, block showWarnings n (card s) = head ++ s ++ "\n" := by
    refine ⟨String.join ((summaryLine n (card "").card :: ps.map ("  " ++ propertyLine ·)).map
      (· ++ "\n")) ++ "  " ++ propertyLine { p with value := .text "" }, ?_⟩
    intro s
    have hsummary : summaryLine n (card s).card = summaryLine n (card "").card := by
      simp [summaryLine, card, Card.size]
    rw [block, lines, hsummary]
    cases showWarnings <;>
      simp [card, hproperty s, String.join_append, String.join_cons, String.append_assoc]
  have hnext : block showWarnings (n + 1) next =
      joined '\n' (lines showWarnings (n + 1) next) ++ "\n" := join_lines (List.cons_ne_nil _ _)
  rw [hblock, hblock, hnext]
  simp only [String.append_assoc]

end Report

/-- A report that is the first on an output without a limit. -/
theorem Printer.printed_start (showWarnings : Bool) (ds : List Delivery) :
    (start .unlimited showWarnings).printed ds =
      ⟨⟨Utf8.encode (Report.blocks showWarnings 0 ds), none⟩, showWarnings, ds.length, false⟩ := by
  simp [printed, start, Output.unlimited]

/-- What is written about a card is cut into lines where the texts that it shows have line breaks.
There is a summary line, a line for each property and, if they are shown, a line for each warning,
in this order, just if none of these texts has a line break; each line break adds a line. -/
theorem report_lines_counted (written : List UInt8) (showWarnings failed : Bool) (cards : Nat)
    (d : Delivery) :
    let lines := Report.summaryLine (cards + 1) d.card ::
      d.card.properties.map ("  " ++ Report.propertyLine ·) ++
        if showWarnings then d.warnings.map ("  warning: " ++ ·.render) else []
    lines.length = 1 + d.card.size + (if showWarnings then d.warnings.length else 0) ∧
    ∃ text : String,
      Printer.print ⟨⟨written, none⟩, showWarnings, cards, failed⟩ d =
        (⟨⟨written ++ Utf8.encode text, none⟩, showWarnings, cards + 1, failed⟩, .more) ∧
      pieces '\n' text = lines.flatMap (pieces '\n') ++ [""] ∧
      lineBreaks text = lines.length + lineBreaksIn (d.shown showWarnings) ∧
      (pieces '\n' text = lines ++ [""] ↔ ∀ s ∈ d.shown showWarnings, '\n' ∉ s.toList) := by
  intro lines
  have hlength :
      lines.length = 1 + d.card.size + (if showWarnings then d.warnings.length else 0) := by
    simp only [lines, Card.size, List.length_cons, List.length_append, List.length_map]
    cases showWarnings <;> simp <;> omega
  have hbreaks : lineBreaksIn lines = lineBreaksIn (d.shown showWarnings) :=
    Report.lineBreaksIn_lines showWarnings (cards + 1) d
  have hpieces : pieces '\n' (Report.block showWarnings (cards + 1) d) =
      lines.flatMap (pieces '\n') ++ [""] := pieces_lines lines
  refine ⟨hlength, Report.block showWarnings (cards + 1) d, ?_, hpieces, ?_, ?_⟩
  · simp [Printer.print, Output.write]
  · have hcount := length_pieces '\n' (Report.block showWarnings (cards + 1) d)
    rw [hpieces, List.length_append, length_lines, hbreaks] at hcount
    rw [lineBreaks]
    simp only [List.length_singleton] at hcount
    omega
  · rw [hpieces, List.append_left_inj, lines_eq_self_iff, hbreaks, lineBreaksIn_eq_zero_iff]

set_option maxRecDepth 4000 in
/-- A single card with one property, whose value has a line break, is reported on three lines, with
the very bytes that are written about two cards. -/
theorem forged_summary :
    let input := Input.document (Utf8.encode
      ("<vcards xmlns=\"urn:ietf:params:xml:ns:vcard-4.0\"><vcard><note><text>x&#10;" ++
        "card 2: version 4.0, 0 properties</text></note></vcard></vcards>"))
    let note (s : String) : Delivery := ⟨⟨.four, [⟨none, "NOTE", .empty, .text s, s⟩]⟩, []⟩
    let text := "card 1: version 4.0, 1 properties\n  NOTE: x\ncard 2: version 4.0, 0 properties\n"
    let printer := Printer.start .unlimited true
    let forged := note "x\ncard 2: version 4.0, 0 properties"
    input.read .standard .collect [] = ([forged], none) ∧
    input.readLimited .standard none Printer.listener printer =
      (⟨⟨Utf8.encode text, none⟩, true, 1, false⟩, .ok 1) ∧
    Printer.listener.after printer [note "x", .empty] =
      ⟨⟨Utf8.encode text, none⟩, true, 2, false⟩ ∧
    lineBreaks text = 3 ∧ 1 + forged.card.size + forged.warnings.length = 2 := by
  intro input note text printer forged
  -- The text up to a reference, its character and the text behind it are items of their own.
  let noteText : Content :=
    .text "x" (.text "\n" (.text "card 2: version 4.0, 0 properties" .empty))
  let tree : Content := .element .vcards [] (.element .vcard [] (.element (.card "note") []
    (.element (.card "text") [] noteText .empty) .empty) .empty) .empty
  have htranscript : input.transcript = ⟨tree.events, none⟩ := by cbv
  have hcards : input.deliveries .standard = [forged] := by
    rw [tree.deliveries_eq (congrArg Transcript.events htranscript)]
    cbv
  have htext : Report.blocks true 0 [note "x", .empty] = text := by cbv
  have hforged : Report.blocks true 0 [forged] = text := by
    have hblock := Report.block_forged true 1 .four [] ⟨none, "NOTE", .empty, .text "", ""⟩ "x"
      .empty
    have hlines : "x" ++ "\n" ++ joined '\n' (Report.lines true 2 .empty) =
        "x\ncard 2: version 4.0, 0 properties" := by cbv
    rw [← htext, Report.blocks_cons, Report.blocks_cons, Report.blocks_cons, ← String.append_assoc]
    rw [hlines] at hblock
    exact congrArg (· ++ "") hblock
  have hroom : printer.output.room = none := rfl
  have hlimit : (none : Option Nat) ≠ some 0 := (Option.some_ne_none 0).symm
  refine ⟨?_, ?_, ?_, by cbv, rfl⟩
  · rw [Input.read_collect, hcards, htranscript]
  · rw [Command.readLimited_printer hroom hlimit, Input.readWithin_eq, hcards, htranscript]
    change (printer.printed [forged], Except.ok 1) = _
    rw [Printer.printed_start, hforged]
    rfl
  · rw [Printer.after_of_room hroom, Printer.printed_start, htext]
    rfl

end ContactCards
