import ContactCards.Proofs.Command.Room
import Mathlib

/-! Reports on an output with little room. Inputs are read in turn for one printer, which is asked
after each whether its output ran out of room. The report is cut off where the room ends, and every
reading that finds no room ends with its first card that does not fit. -/
namespace ContactCards

variable {r : Registry} {limit : Option Nat} {start printer : Printer} {input : Input}
  {ds cards : List Delivery} {k : Nat}

namespace Printer

/-- Reading an input for a printer ends with card `k`, the first that the output has no room for. -/
structure EndsFull (printer : Printer) (input : Input) (r : Registry) (limit : Option Nat)
    (k : Nat) : Prop where
  pos : 0 < k
  le : k ≤ (input.kept r limit).length
  before : printer.Fits ((input.kept r limit).take (k - 1))
  full : ¬ printer.Fits ((input.kept r limit).take k)
  /-- The reading succeeds, and the card counts. -/
  read : input.readLimited r limit listener printer =
    (printer.reported ((input.kept r limit).take k), .ok k)
  /-- What is behind the card is not looked at. -/
  ends : input.EndsWithin r limit listener printer k

theorem EndsFull.cards_eq (h : printer.EndsFull input r limit k) :
    (input.readLimited r limit listener printer).1.cards = printer.cards + k := by
  rw [h.read, reported, List.length_take, Nat.min_eq_left h.le]

/-- Reading for a printer stops at the first card that does not fit, if there is one. -/
theorem readLimited_cases (printer : Printer) (input : Input) (r : Registry) (limit : Option Nat) :
    (printer.Fits (input.kept r limit) ∧ input.readLimited r limit listener printer =
      (printer.reported (input.kept r limit), (input.readLimited r limit .collect []).2)) ∨
    (¬ printer.Fits (input.kept r limit) ∧ ∃ k, printer.EndsFull input r limit k) := by
  obtain ⟨k, hstops⟩ := listener.exists_stopsFirstAt printer (input.deliveries r)
  have hkept : listener.StopsFirstAt k printer (input.kept r limit) := by
    rw [Input.kept_eq_take]
    apply Listener.StopsFirstAt.of_append
    rwa [List.take_append_drop]
  obtain ⟨hafter, hbefore, hat⟩ := stopsFirstAt_listener hkept
  have hread := Input.readLimited_eq_kept limit hstops
  rw [hafter] at hread
  by_cases hk : k ≤ (input.kept r limit).length
  · right
    have hfull : ¬ printer.Fits ((input.kept r limit).take k) := hat.mp hk
    rw [if_pos hk] at hread
    have hends := Input.endsWithin_of_stopsFirstAt hstops hk
    refine ⟨?_, k, hkept.pos, hk, hbefore, hfull, hread, hends⟩
    intro hfits
    rw [← List.take_append_drop k (input.kept r limit)] at hfits
    exact hfull hfits.of_append
  · left
    have hfits := not_not.mp (mt hat.mpr hk)
    rw [if_neg hk] at hread
    rw [List.take_of_length_le (Nat.le_of_not_le hk)] at hfits hread
    exact ⟨hfits, hread⟩

/-- The output after a reading has what there was room for of the report on the cards. -/
theorem readLimited_output (printer : Printer) (input : Input) (r : Registry) (limit : Option Nat) :
    let read := (input.readLimited r limit listener printer).1
    read.output = (printer.reported (input.kept r limit)).output ∧
      read.failed = (printer.reported (input.kept r limit)).failed ∧
      read.showWarnings = printer.showWarnings := by
  rcases printer.readLimited_cases input r limit with ⟨-, hread⟩ | ⟨-, k, hends⟩
  · rw [hread]
    exact ⟨rfl, rfl, rfl⟩
  · have hwrite := write_append_of_not_fits hends.full ((input.kept r limit).drop k)
    rw [List.take_append_drop] at hwrite
    rw [hends.read]
    simp only [reported, hwrite, and_self]

theorem readLimited_failed_iff (h : printer.failed = false) (input : Input) (r : Registry)
    (limit : Option Nat) :
    (input.readLimited r limit listener printer).1.failed = true ↔
      ¬ printer.Fits (input.kept r limit) := by
  obtain ⟨-, hfailed, -⟩ := printer.readLimited_output input r limit
  rw [hfailed, reported, h, Fits]
  simp

theorem exists_endsFull (h : printer.failed = false)
    (hread : (input.readLimited r limit listener printer).1.failed = true) :
    ∃ k, printer.EndsFull input r limit k := by
  rcases printer.readLimited_cases input r limit with ⟨hfits, -⟩ | ⟨-, hends⟩
  · exact absurd hfits ((readLimited_failed_iff h input r limit).mp hread)
  · exact hends

theorem readLimited_of_not_failed (h : printer.failed = false)
    (hread : (input.readLimited r limit listener printer).1.failed = false) :
    input.readLimited r limit listener printer =
      (printer.reported (input.kept r limit), (input.readLimited r limit .collect []).2) := by
  rcases printer.readLimited_cases input r limit with ⟨-, heq⟩ | ⟨hnot, -⟩
  · exact heq
  · rw [(readLimited_failed_iff h input r limit).mpr hnot] at hread
    cases hread

/-- It makes no difference in which pieces the report is written. -/
theorem writeAll_eq_readLimited (h : printer.failed = false) {pieces : List (List UInt8)}
    (hpieces : pieces.flatten = printer.bytes (input.kept r limit)) :
    let read := (input.readLimited r limit listener printer).1
    printer.output.writeAll pieces = (read.output, !read.failed) := by
  obtain ⟨houtput, hfailed, -⟩ := printer.readLimited_output input r limit
  intro read
  rw [Output.writeAll_eq, hpieces, houtput, hfailed, reported, h]
  simp

/-- The printer is what another one comes to that is given cards, some of which it may have left out
after its output was full. -/
structure Follows (start printer : Printer) (ds : List Delivery) : Prop where
  output : printer.output = (start.reported ds).output
  showWarnings : printer.showWarnings = start.showWarnings
  cards : start.Fits ds → printer.cards = start.cards + ds.length

theorem Follows.refl (start : Printer) : start.Follows start [] :=
  ⟨by rw [reported_nil], rfl, fun _ => rfl⟩

/-- As long as all cards fit, the report goes on as it would. -/
theorem Follows.bytes_eq (h : start.Follows printer ds) (hfits : start.Fits ds)
    (ds' : List Delivery) : printer.bytes ds' = (start.reported ds).bytes ds' := by
  rw [bytes, h.showWarnings, h.cards hfits]
  rfl

theorem Follows.write_of_full (h : start.Follows printer ds) (hfull : ¬ start.Fits ds)
    (bs : List UInt8) : printer.output.write bs = (printer.output, bs.isEmpty) := by
  rw [h.output]
  exact Output.write_of_full (Bool.eq_false_of_not_eq_true hfull) bs

/-- Cards fit if there are none, or if all cards until then fit. -/
theorem Follows.fits_iff (h : start.Follows printer ds) :
    printer.Fits cards ↔ cards = [] ∨ start.Fits (ds ++ cards) := by
  by_cases hfits : start.Fits ds
  · have hiff : printer.Fits cards ↔ start.Fits (ds ++ cards) := by
      rw [fits_append hfits, Fits, Fits, h.bytes_eq hfits, h.output]
    rw [hiff]
    constructor
    · exact Or.inr
    · rintro (rfl | hall)
      · rwa [List.append_nil]
      · exact hall
  · have hall : ¬ start.Fits (ds ++ cards) := mt Fits.of_append hfits
    rw [Fits, h.write_of_full hfits]
    simp [hall, bytes_eq_nil_iff]

theorem Follows.output_reported (h : start.Follows printer ds) (cards : List Delivery) :
    (printer.reported cards).output = (start.reported (ds ++ cards)).output := by
  by_cases hfits : start.Fits ds
  · rw [← reported_append hfits]
    simp only [reported, h.bytes_eq hfits, h.output]
  · simp only [reported, h.write_of_full hfits, write_append_of_not_fits hfits]
    exact h.output

/-- A reading keeps the printer in step. -/
theorem Follows.readLimited (h : start.Follows printer ds) (input : Input) (r : Registry)
    (limit : Option Nat) :
    start.Follows (input.readLimited r limit listener printer).1.clear
      (ds ++ input.kept r limit) := by
  obtain ⟨houtput, -, hshow⟩ := printer.readLimited_output input r limit
  refine ⟨houtput.trans (h.output_reported _), hshow.trans h.showWarnings, ?_⟩
  intro hall
  rcases printer.readLimited_cases input r limit with ⟨-, hread⟩ | ⟨hfull, -⟩
  · rw [hread, List.length_append, ← Nat.add_assoc, ← h.cards hall.of_append]
    rfl
  · exact absurd (h.fits_iff.mpr (Or.inr hall)) hfull

/-- Reads inputs in turn. After each the printer forgets that its output ran out of room, if it
did. -/
def readAll (printer : Printer) (r : Registry) (limit : Option Nat) (inputs : List Input) :
    Printer :=
  inputs.foldl (fun printer input => (input.readLimited r limit listener printer).1.clear) printer

theorem Follows.readAll (h : start.Follows printer ds) (r : Registry) (limit : Option Nat)
    (inputs : List Input) :
    start.Follows (printer.readAll r limit inputs) (ds ++ inputs.flatMap (·.kept r limit)) := by
  induction inputs generalizing printer ds with
  | nil => rwa [List.flatMap_nil, List.append_nil]
  | cons input inputs ih =>
    rw [List.flatMap_cons, ← List.append_assoc]
    exact ih (h.readLimited input r limit)

/-- Inputs that are read in turn are reported as their cards, one after another. -/
theorem follows_readAll (start : Printer) (r : Registry) (limit : Option Nat)
    (inputs : List Input) :
    start.Follows (start.readAll r limit inputs) (inputs.flatMap (·.kept r limit)) := by
  have hfollows := (Follows.refl start).readAll r limit inputs
  rwa [List.nil_append] at hfollows

/-- What the printer was told to forget is not left for the next input. -/
theorem failed_readAll (h : printer.failed = false) (inputs : List Input) :
    (printer.readAll r limit inputs).failed = false := by
  induction inputs generalizing printer with
  | nil => exact h
  | cons input inputs ih => exact ih rfl

end Printer

/-- Inputs are read in turn for a printer, each within the limit, and after each the printer is asked
whether its output ran out of room. The whole report is on the cards of the inputs, with numbers that
go on from input to input, and an output with limited room has the first bytes of it. A reading leaves
the printer without room just if the input has a card and the report up to and with this input is
longer than the room. Such a reading succeeds, ends with the first card that does not fit, whatever
is behind it, and counts that card; any other ends as it does for a listener that keeps all cards. It
makes no difference in which pieces the report is written. -/
theorem full_output_cuts_report (r : Registry) (limit : Option Nat) (showWarnings : Bool)
    (room : Nat) :
    let unlimited (inputs : List Input) : List UInt8 :=
      ((Printer.start .unlimited showWarnings).readAll r limit inputs).output.written
    let limited (inputs : List Input) : Printer :=
      (Printer.start (.limited room) showWarnings).readAll r limit inputs
    (∀ inputs, unlimited inputs =
        Utf8.encode (Report.blocks showWarnings 0 (inputs.flatMap (·.kept r limit))) ∧
      (limited inputs).output.written = (unlimited inputs).take room) ∧
    ∀ (earlier : List Input) (input : Input),
      let printer := limited earlier
      let read := input.readLimited r limit Printer.listener printer
      printer.failed = false ∧
      (read.1.failed = true ↔
        input.kept r limit ≠ [] ∧ room < (unlimited (earlier ++ [input])).length) ∧
      (read.1.failed = true → ∃ k, printer.EndsFull input r limit k ∧ read.2 = .ok k ∧
        read.1.cards = printer.cards + k) ∧
      (read.1.failed = false → read.2 = (input.readLimited r limit .collect []).2 ∧
        read.1.cards = printer.cards + (input.kept r limit).length) ∧
      (∀ cards, printer.Fits cards ↔ printer.output.written.length +
        (Utf8.encode (Report.blocks showWarnings printer.cards cards)).length ≤ room) ∧
      ∀ pieces, pieces.flatten = Utf8.encode
          (Report.blocks showWarnings printer.cards (input.kept r limit)) →
        printer.output.writeAll pieces = (read.1.output, !read.1.failed) := by
  intro unlimited limited
  have hunlimited (inputs : List Input) : unlimited inputs =
      Utf8.encode (Report.blocks showWarnings 0 (inputs.flatMap (·.kept r limit))) :=
    congrArg Output.written
      (Printer.follows_readAll (.start .unlimited showWarnings) r limit inputs).output
  have hfollows (inputs : List Input) :=
    Printer.follows_readAll (.start (.limited room) showWarnings) r limit inputs
  have hlimited (inputs : List Input) :
      (limited inputs).output = ((Output.limited room).write (unlimited inputs)).1 := by
    rw [hunlimited]
    exact (hfollows inputs).output
  refine ⟨fun inputs => ⟨hunlimited inputs, congrArg Output.written (hlimited inputs)⟩, ?_⟩
  intro earlier input printer read
  have hfailed : printer.failed = false := Printer.failed_readAll rfl earlier
  have hbytes (cards : List Delivery) : printer.bytes cards =
      Utf8.encode (Report.blocks showWarnings printer.cards cards) := by
    rw [Printer.bytes, (hfollows earlier).showWarnings]
    rfl
  refine ⟨hfailed, ?_, ?_, ?_, ?_, ?_⟩
  · rw [Printer.readLimited_failed_iff hfailed, (hfollows earlier).fits_iff, not_or,
      Printer.fits_limited_start, not_le, hunlimited, List.flatMap_append, List.flatMap_singleton]
  · intro hread
    obtain ⟨k, hends⟩ := Printer.exists_endsFull hfailed hread
    exact ⟨k, hends, congrArg Prod.snd hends.read, hends.cards_eq⟩
  · intro hread
    have heq := Printer.readLimited_of_not_failed hfailed hread
    exact ⟨congrArg Prod.snd heq, congrArg (·.1.cards) heq⟩
  · intro cards
    rw [← hbytes]
    exact Output.fits_limited_iff (hlimited earlier) _
  · intro pieces hpieces
    exact Printer.writeAll_eq_readLimited hfailed (hpieces.trans (hbytes _).symm)

set_option maxRecDepth 4000 in
/-- The first document is broken behind its second card, and the output has room for one card and a
part of the second. -/
theorem full_output_cuts_report_broken :
    let collection := "<vcards xmlns=\"urn:ietf:params:xml:ns:vcard-4.0\"><vcard/>"
    let broken := Input.document (Utf8.encode (collection ++ "<vcard/><<"))
    let whole := Input.document (Utf8.encode (collection ++ "</vcards>"))
    let printer := Printer.start (.limited 40) true
    broken.transcript.fault ≠ none ∧
    (broken.readLimited .standard none Printer.listener printer).2 = .ok 2 ∧
    (whole.readLimited .standard none Printer.listener
      (printer.readAll .standard none [broken])).2 = .ok 1 ∧
    (printer.readAll .standard none [broken, whole]).output.written =
      Utf8.encode "card 1: version 4.0, 0 properties\ncard 2" := by
  intro collection broken whole printer
  have hbroken : broken.transcript = ⟨[.start .vcards [], .start .vcard [], .finish,
      .start .vcard [], .finish], some (.lexical .tagOpen)⟩ := by cbv
  have hwhole : whole.transcript =
      ⟨[.start .vcards [], .start .vcard [], .finish, .finish], none⟩ := by cbv
  have htwo : broken.kept .standard none = [.empty, .empty] := by
    rw [Input.kept, Input.readLimited, Input.read, hbroken]
    rfl
  have hone : whole.kept .standard none = [.empty] := by
    rw [Input.kept, Input.readLimited, Input.read, hwhole]
    rfl
  obtain ⟨hall, hstep⟩ := full_output_cuts_report .standard none true 40
  refine ⟨?_, ?_, ?_, ?_⟩
  · rw [hbroken]
    exact Option.some_ne_none _
  · obtain ⟨-, hfailed, hfull, -, hfits, -⟩ := hstep [] broken
    obtain ⟨k, hends, hread, -⟩ := hfull <| hfailed.mpr <| by
      rw [(hall _).1, List.nil_append, List.flatMap_singleton, htwo]
      decide +kernel
    have hle := hends.le
    have hpos := hends.pos
    have hsecond : k ≠ 1 := by
      rintro rfl
      apply hends.full
      rw [hfits, htwo]
      decide +kernel
    have hk : k = 2 := by
      rw [htwo, List.length_cons, List.length_singleton] at hle
      omega
    exact hk ▸ hread
  · obtain ⟨-, hfailed, hfull, -⟩ := hstep [broken] whole
    obtain ⟨k, hends, hread, -⟩ := hfull <| hfailed.mpr <| by
      rw [(hall _).1, List.singleton_append, List.flatMap_cons, List.flatMap_singleton, htwo, hone]
      decide +kernel
    have hle := hends.le
    have hpos := hends.pos
    have hk : k = 1 := by
      rw [hone, List.length_singleton] at hle
      omega
    exact hk ▸ hread
  · have hcut (inputs : List Input) : (printer.readAll .standard none inputs).output.written =
        (Utf8.encode (Report.blocks true 0 (inputs.flatMap (·.kept .standard none)))).take 40 := by
      rw [← (hall inputs).1]
      exact (hall inputs).2
    rw [hcut, List.flatMap_cons, List.flatMap_singleton, htwo, hone]
    decide +kernel

end ContactCards
