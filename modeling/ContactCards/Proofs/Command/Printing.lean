import ContactCards.Proofs.Command.Limits
import ContactCards.Proofs.Reading.Within
import ContactCards.Proofs.Text.Utf8
import Mathlib

/-! Whole runs of the command. Each file comes to the cards that are read from it and, perhaps, to
a failure; a run prints the cards up to the first failure, numbered throughout. -/
namespace ContactCards

variable {printer : Printer} {d : Delivery} {ds ds' : List Delivery} {limit : Option Nat}
  {around : Surroundings} {files : List String} {file : String} {input : Source}

namespace Report

/-- The report on cards that come after `n` others. -/
def blocks (showWarnings : Bool) (n : Nat) (ds : List Delivery) : String :=
  String.join (ds.mapIdx fun i d => block showWarnings (n + i + 1) d)

theorem blocks_cons (showWarnings : Bool) (n : Nat) (d : Delivery) (ds : List Delivery) :
    blocks showWarnings n (d :: ds) =
      block showWarnings (n + 1) d ++ blocks showWarnings (n + 1) ds := by
  simp only [blocks, List.mapIdx_cons, String.join_cons, Nat.add_zero]
  simp only [Nat.add_assoc, Nat.add_comm 1]

theorem blocks_append (showWarnings : Bool) (n : Nat) (ds ds' : List Delivery) :
    blocks showWarnings n (ds ++ ds') =
      blocks showWarnings n ds ++ blocks showWarnings (n + ds.length) ds' := by
  induction ds generalizing n with
  | nil => simp [blocks]
  | cons d ds ih =>
    rw [List.cons_append, blocks_cons, blocks_cons, ih, String.append_assoc, List.length_cons,
      Nat.add_assoc, Nat.add_comm 1]

end Report

namespace Printer

/-- A printer after cards that its output has room for. -/
def printed (printer : Printer) (ds : List Delivery) : Printer :=
  { printer with
    output := ⟨printer.output.written ++
      Utf8.encode (Report.blocks printer.showWarnings printer.cards ds), printer.output.room⟩
    cards := printer.cards + ds.length }

@[simp] theorem printed_nil (printer : Printer) : printer.printed [] = printer := by
  simp [printed, Report.blocks, Utf8.encode]

theorem printed_append (printer : Printer) (ds ds' : List Delivery) :
    (printer.printed ds).printed ds' = printer.printed (ds ++ ds') := by
  simp [printed, Report.blocks_append, Utf8.encode_append, Nat.add_assoc]

/-- An output without a limit has room for every card. -/
theorem take_of_room (h : printer.output.room = none) (d : Delivery) :
    listener.take printer d = (printer.printed [d], .more) := by
  have hblock : Report.blocks printer.showWarnings printer.cards [d] =
      Report.block printer.showWarnings (printer.cards + 1) d := by
    rw [Report.blocks_cons]
    exact String.append_empty
  simp [listener, print, Output.write, printed, h, hblock]

theorem after_of_room (h : printer.output.room = none) (ds : List Delivery) :
    listener.after printer ds = printer.printed ds := by
  induction ds generalizing printer with
  | nil => exact (printed_nil printer).symm
  | cons d ds ih =>
    have hroom : (printer.printed [d]).output.room = none := h
    rw [Listener.after_cons, take_of_room h, ih hroom, printed_append, List.singleton_append]

theorem stopsFirstAt_of_room (h : printer.output.room = none) (ds : List Delivery) :
    listener.StopsFirstAt (ds.length + 1) printer ds := by
  apply Listener.stopsFirstAt_of_invariant (P := fun printer => printer.output.room = none) _ h
  intro printer d h
  rw [take_of_room h]
  exact ⟨h, rfl⟩

end Printer

/-- What a file comes to: the cards that are read from it, and what it fails with and the causes
of that. -/
structure FileReading where
  cards : List Delivery
  failure : Option (String × List String)

def FileReading.failed (reading : FileReading) : Bool :=
  reading.failure.isSome

namespace Command

/-- What can be read of a file or of standard input, or why it cannot be opened. -/
def source (around : Surroundings) (file : String) : Except String Source :=
  if file = "-" then .ok around.standardInput else around.file file

/-- What a file comes to within a limit. -/
def readFile (around : Surroundings) (limit : Option Nat) (file : String) : FileReading :=
  match source around file with
  | .error cause => ⟨[], some ("failed to open " ++ file, [cause])⟩
  | .ok source =>
    let (cards, fault) := source.input.readWithin .standard limit
    ⟨cards, fault.map fun fault => ("failed to read " ++ file, fault.chain)⟩

theorem readFile_of_source {found : Source} (h : source around file = .ok found) :
    readFile around limit file = ⟨(found.input.readWithin .standard limit).1,
      (found.input.readWithin .standard limit).2.map
        fun fault => ("failed to read " ++ file, fault.chain)⟩ := by
  rw [readFile, h]

/-- A file that cannot be read to its end comes to the cards that end before that. It fails unless
the limit allows no more of them. -/
theorem readFile_of_interrupted {bytes : List UInt8} {reason : String}
    (h : source around file = .ok ⟨bytes, some reason⟩) :
    (readFile around limit file).cards = ((Input.document bytes).readWithin .standard limit).1 ∧
      ((readFile around limit file).failed = false ↔
        Input.limitReached limit ((Input.document bytes).deliveries .standard).length) := by
  obtain ⟨hcards, hfault⟩ := Input.readWithin_interrupted bytes reason .standard limit
  rw [readFile_of_source h, ← hfault]
  refine ⟨hcards, ?_⟩
  rw [FileReading.failed, Option.isSome_map, Option.isSome_eq_false_iff, Option.isNone_iff_eq_none]
  rfl

/-- The cards of the files up to the first that fails, and of that one. -/
def cardsRead (readings : List FileReading) : List Delivery :=
  (readings.take (readings.findIdx FileReading.failed + 1)).flatMap FileReading.cards

theorem cardsRead_failed {reading : FileReading} (h : reading.failed)
    (readings : List FileReading) : cardsRead (reading :: readings) = reading.cards := by
  simp [cardsRead, List.findIdx_cons, h]

theorem cardsRead_succeeded {reading : FileReading} (h : ¬ reading.failed)
    (readings : List FileReading) :
    cardsRead (reading :: readings) = reading.cards ++ cardsRead readings := by
  simp [cardsRead, List.findIdx_cons, h]

/-- What a run leaves behind that has written bytes and prints what files come to. -/
def resultOf (printer : Printer) (readings : List FileReading) : RunResult :=
  ⟨if readings.any FileReading.failed then 1 else 0,
    (printer.printed (cardsRead readings)).output.written,
    (readings.findSome? FileReading.failure).map fun (top, causes) => report top causes⟩

/-- Reading a file prints its cards, and its failure is that of reading it. -/
theorem readLimited_printer (hroom : printer.output.room = none) (hlimit : limit ≠ some 0)
    (input : Input) :
    input.readLimited .standard limit Printer.listener printer =
      (printer.printed (input.readWithin .standard limit).1,
        match (input.readWithin .standard limit).2 with
        | none => .ok (input.readWithin .standard limit).1.length
        | some fault => .error fault) := by
  have hread := input.read_limited .standard hlimit (Printer.stopsFirstAt_of_room hroom _)
  rw [Printer.after_of_room hroom] at hread
  rw [Input.readLimited, hread]
  cases (input.readWithin .standard limit).2 <;> rfl

/-- A run over files reads the first one, and goes on if that does not fail. -/
theorem printFiles_cons (hlimit : limit ≠ some 0) (hroom : printer.output.room = none)
    (hinput : file = "-" → input = around.standardInput) :
    let reading := readFile around limit file
    printFiles around limit printer input (file :: files) =
      match reading.failure with
      | some (top, causes) =>
        failure (printer.printed reading.cards).output.written top causes
      | none =>
        printFiles around limit (printer.printed reading.cards)
          (if file = "-" then ⟨[], none⟩ else input) files := by
  have hsource : (if file = "-" then .ok input else around.file file) = source around file := by
    by_cases hfile : file = "-"
    · rw [source, hinput hfile]
    · rw [source, if_neg hfile, if_neg hfile]
  intro reading
  rw [printFiles, hsource]
  cases h : source around file with
  | error cause =>
    have hreading : reading = ⟨[], some ("failed to open " ++ file, [cause])⟩ := by
      simp only [reading, readFile, h]
    simp [hreading]
  | ok found =>
    have hreading : reading = _ := readFile_of_source h
    simp only [readLimited_printer hroom hlimit, hreading]
    cases (found.input.readWithin .standard limit).2 <;> rfl

theorem resultOf_nil (printer : Printer) :
    resultOf printer [] = ⟨0, printer.output.written, none⟩ := by
  simp [resultOf, cardsRead]

theorem resultOf_failed {reading : FileReading} {top : String} {causes : List String}
    (h : reading.failure = some (top, causes)) (readings : List FileReading) :
    resultOf printer (reading :: readings) =
      failure (printer.printed reading.cards).output.written top causes := by
  have hfailed : reading.failed := by rw [FileReading.failed, h]; rfl
  simp [resultOf, cardsRead_failed hfailed, hfailed, h, failure]

theorem resultOf_succeeded {reading : FileReading} (h : reading.failure = none)
    (readings : List FileReading) :
    resultOf printer (reading :: readings) =
      resultOf (printer.printed reading.cards) readings := by
  have hfailed : ¬ reading.failed := by rw [FileReading.failed, h]; exact Bool.false_ne_true
  simp [resultOf, cardsRead_succeeded hfailed, hfailed, h, Printer.printed_append]

/-- A run over files prints what they come to. Standard input is still there if one of them is to
be read from it. -/
theorem printFiles_eq (hlimit : limit ≠ some 0) (hroom : printer.output.room = none)
    (honce : files.count "-" ≤ 1) (hinput : "-" ∈ files → input = around.standardInput) :
    printFiles around limit printer input files =
      resultOf printer (files.map (readFile around limit)) := by
  induction files generalizing printer input with
  | nil => exact (resultOf_nil printer).symm
  | cons file files ih =>
    rw [List.map_cons, printFiles_cons hlimit hroom fun hfile => hinput (by simp [hfile])]
    cases hfailure : (readFile around limit file).failure with
    | some what =>
      obtain ⟨top, causes⟩ := what
      exact (resultOf_failed hfailure _).symm
    | none =>
      rw [resultOf_succeeded hfailure]
      have hcount : files.count "-" ≤ 1 := by
        rw [List.count_cons] at honce
        omega
      apply ih _ hcount
      · intro hmem
        -- Standard input is not read twice, so it is not this file.
        have hpos : 0 < files.count "-" := List.count_pos_iff.mpr hmem
        have hfile : file ≠ "-" := by
          rintro rfl
          rw [List.count_cons_self] at honce
          omega
        rw [if_neg hfile]
        exact hinput (List.mem_cons_of_mem file hmem)
      · exact hroom

/-- A run over files, with output that has room for everything, prints the cards that are read from
them up to the first that fails, and of that one, with numbers that go on from file to file. It
succeeds just if no file fails, and otherwise reports the first failure. A limit allows a card at
least, and what stands in a document behind the last card that it allows may be anything. -/
theorem run_prints_cards {args : List String} {quiet : Bool} {settings : Settings}
    (hargs : Request.ofArguments? args = some (.print files limit quiet))
    (hsettings : Settings.load around.settingsFile around.variables = .ok settings)
    (honce : files.count "-" ≤ 1) :
    let most := limit.or settings.limit
    let readings := files.map (readFile around most)
    let cards := (readings.take (readings.findIdx FileReading.failed + 1)).flatMap
      FileReading.cards
    run around args =
      ⟨if readings.any FileReading.failed then 1 else 0,
        Utf8.encode (String.join (cards.mapIdx fun i card =>
          Report.block (settings.showWarnings && ! quiet) (i + 1) card)),
        (readings.findSome? FileReading.failure).map fun (top, causes) => report top causes⟩ ∧
    most ≠ some 0 ∧
    ∀ document : List UInt8, Input.limitReached most
        ((Input.document document).read .standard .collect []).1.length →
      ∃ head rest : List UInt8, document = head ++ rest ∧ ∀ tail,
        (Input.document (head ++ tail)).readWithin .standard most =
          (((Input.document document).readWithin .standard most).1, none) := by
  intro most readings cards
  have hmost : most ≠ some 0 := by
    cases limit with
    | none => exact Settings.limit_ne_zero hsettings
    | some m => exact Request.limit_ne_zero hargs
  refine ⟨?_, hmost, ?_⟩
  · rw [run, hargs]
    simp only [hsettings]
    rw [printFiles_eq hmost rfl honce fun _ => rfl]
    simp only [resultOf, Printer.printed, Printer.start, Output.unlimited, List.nil_append,
      Report.blocks, Nat.zero_add]
    rfl
  · intro document hreached
    rw [Input.read_collect] at hreached
    exact Input.exists_head_within hmost hreached

set_option maxRecDepth 4000 in
/-- Two cards and a missing file. The first document is broken behind the card that the limit
allows. -/
theorem run_prints_cards_missing :
    let collection := "<vcards xmlns=\"urn:ietf:params:xml:ns:vcard-4.0\"><vcard/>"
    let around : Surroundings :=
      { file := fun file =>
          if file = "a" then .ok (Utf8.encode (collection ++ "<<")) else .error "No such file"
        standardInput := Utf8.encode (collection ++ "</vcards>")
        settingsFile := none
        environment := [] }
    let args := ["--max-cards=1", "a", "-", "b", "c"]
    let files := ["a", "-", "b", "c"]
    Request.ofArguments? args = some (.print files (some 1) false) ∧
    Settings.load none [] = .ok ⟨"info", none, true⟩ ∧ files.count "-" ≤ 1 ∧
    (Input.document (Utf8.encode (collection ++ "<<"))).transcript.fault ≠ none ∧
    run around args = ⟨1,
      Utf8.encode "card 1: version 4.0, 0 properties\ncard 2: version 4.0, 0 properties\n",
      some "Error: failed to open b\n\nCaused by:\n    No such file"⟩ := by
  intro collection around args files
  have hbroken : (Input.document (Utf8.encode (collection ++ "<<"))).transcript =
      ⟨[.start .vcards [], .start .vcard [], .finish], some (.lexical .tagOpen)⟩ := by cbv
  have hwhole : (Input.document (Utf8.encode (collection ++ "</vcards>"))).transcript =
      ⟨[.start .vcards [], .start .vcard [], .finish, .finish], none⟩ := by cbv
  have ha : readFile around (some 1) "a" = ⟨[.empty], none⟩ := by
    have hsource : source around "a" = .ok (Utf8.encode (collection ++ "<<")) := rfl
    rw [readFile_of_source hsource, Source.input_ofBytes, Input.readWithin_eq, Input.deliveries,
      hbroken]
    rfl
  have hinput : readFile around (some 1) "-" = ⟨[.empty], none⟩ := by
    have hsource : source around "-" = .ok (Utf8.encode (collection ++ "</vcards>")) := rfl
    rw [readFile_of_source hsource, Source.input_ofBytes, Input.readWithin_eq, Input.deliveries,
      hwhole]
    rfl
  have hargs : Request.ofArguments? args = some (.print files (some 1) false) := rfl
  have hsettings : Settings.load around.settingsFile around.variables =
      .ok ⟨"info", none, true⟩ := rfl
  have honce : files.count "-" ≤ 1 := by decide
  obtain ⟨hrun, -, -⟩ := run_prints_cards hargs hsettings honce
  refine ⟨hargs, hsettings, honce, ?_, ?_⟩
  · rw [hbroken]
    exact Option.some_ne_none _
  · rw [hrun]
    have hreadings : files.map (readFile around ((some 1).or none)) =
        [⟨[.empty], none⟩, ⟨[.empty], none⟩, ⟨[], some ("failed to open b", ["No such file"])⟩,
          ⟨[], some ("failed to open c", ["No such file"])⟩] := by
      simp only [files, List.map_cons, List.map_nil, Option.or_none, ha, hinput]
      rfl
    rw [hreadings]
    cbv

end Command

end ContactCards
