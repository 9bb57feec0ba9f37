import ContactCards.Proofs.Command.Printing
import Mathlib

/-! Outputs that may run out of room. Where the bytes are cut into pieces does not matter, and a
printer stops at the first card that its output has no room for. -/
namespace ContactCards

variable {o : Output} {bs : List UInt8} {printer : Printer} {d : Delivery} {ds ds' : List Delivery}
  {k : Nat}

namespace Output

@[simp] theorem write_nil (o : Output) : o.write [] = (o, true) := by
  obtain ⟨written, room⟩ := o
  cases room <;> simp [write]

/-- Bytes that fit leave the room for others behind them. -/
theorem write_append_of_fits (h : (o.write bs).2 = true) (bs' : List UInt8) :
    o.write (bs ++ bs') = (o.write bs).1.write bs' := by
  obtain ⟨written, room⟩ := o
  cases room with
  | none => simp [write]
  | some room =>
    have hle : bs.length ≤ room := of_decide_eq_true h
    simp only [write, List.take_append, List.length_append, List.append_assoc]
    simp only [Nat.sub_sub, Prod.mk.injEq, true_and, decide_eq_decide]
    omega

/-- Bytes that do not fit leave no room for others behind them. -/
theorem write_append_of_full (h : (o.write bs).2 = false) (bs' : List UInt8) :
    o.write (bs ++ bs') = o.write bs := by
  obtain ⟨written, room⟩ := o
  cases room with
  | none => cases h
  | some room =>
    have hlt : room < bs.length := Nat.lt_of_not_le (of_decide_eq_false h)
    have htake : (bs ++ bs').take room = bs.take room :=
      List.take_append_of_le_length (Nat.le_of_lt hlt)
    simp only [write, htake, List.length_append, Prod.mk.injEq, mk.injEq, true_and,
      Option.some.injEq, decide_eq_decide]
    omega

/-- After bytes that did not fit nothing more is written. -/
theorem write_of_full (h : (o.write bs).2 = false) (bs' : List UInt8) :
    (o.write bs).1.write bs' = ((o.write bs).1, bs'.isEmpty) := by
  obtain ⟨written, room⟩ := o
  cases room with
  | none => cases h
  | some room =>
    have hlt : room < bs.length := Nat.lt_of_not_le (of_decide_eq_false h)
    have hnone : room - bs.length = 0 := by omega
    simp only [write, hnone, List.take_zero, List.append_nil, Nat.zero_sub, Nat.le_zero_eq,
      List.length_eq_zero_iff]
    cases bs' <;> rfl

/-- On an output with limited room, bytes fit if there is room for them behind what is written. -/
theorem fits_limited_iff {room : Nat} (h : o = ((limited room).write bs).1) (bs' : List UInt8) :
    (o.write bs').2 = true ↔ o.written.length + bs'.length ≤ room := by
  subst h
  simp only [write, limited, List.nil_append, List.length_take, decide_eq_true_eq]
  omega

/-- Writes pieces one after another, up to the first that does not fit. -/
def writeAll (o : Output) : List (List UInt8) → Output × Bool
  | [] => (o, true)
  | bs :: pieces =>
    match o.write bs with
    | (o, true) => o.writeAll pieces
    | (o, false) => (o, false)

/-- Bytes are written in pieces as they are at once. -/
theorem writeAll_eq (o : Output) (pieces : List (List UInt8)) :
    o.writeAll pieces = o.write pieces.flatten := by
  induction pieces generalizing o with
  | nil => simp [writeAll]
  | cons bs pieces ih =>
    rw [writeAll, List.flatten_cons]
    cases h : o.write bs with
    | mk o' fits =>
      cases fits with
      | true =>
        rw [write_append_of_fits (congrArg Prod.snd h), h]
        exact ih o'
      | false => rw [write_append_of_full (congrArg Prod.snd h), h]

end Output

namespace Printer

/-- The bytes of the report on cards that come next. -/
def bytes (printer : Printer) (ds : List Delivery) : List UInt8 :=
  Utf8.encode (Report.blocks printer.showWarnings printer.cards ds)

/-- The output has room for the report on cards that come next. -/
def Fits (printer : Printer) (ds : List Delivery) : Prop :=
  (printer.output.write (printer.bytes ds)).2 = true

/-- A printer after cards of which only the last may be too much for its output. -/
def reported (printer : Printer) (ds : List Delivery) : Printer where
  output := (printer.output.write (printer.bytes ds)).1
  showWarnings := printer.showWarnings
  cards := printer.cards + ds.length
  failed := printer.failed || !(printer.output.write (printer.bytes ds)).2

@[simp] theorem bytes_nil (printer : Printer) : printer.bytes [] = [] := rfl

theorem bytes_append (printer : Printer) (ds ds' : List Delivery) :
    printer.bytes (ds ++ ds') = printer.bytes ds ++ (printer.reported ds).bytes ds' := by
  rw [bytes, Report.blocks_append, Utf8.encode_append]
  rfl

/-- Every card is reported with some bytes. -/
theorem bytes_eq_nil_iff : printer.bytes ds = [] ↔ ds = [] := by
  constructor
  · intro h
    cases ds with
    | nil => rfl
    | cons d ds =>
      have hempty : Report.blocks printer.showWarnings printer.cards (d :: ds) = "" :=
        Utf8.encode_injective h
      rw [Report.blocks_cons] at hempty
      have hlist := congrArg String.toList hempty
      simp [Report.block, Report.lines, String.join_cons] at hlist
  · rintro rfl
    rfl

theorem fits_nil (printer : Printer) : printer.Fits [] := by
  simp [Fits]

theorem fits_limited_start {room : Nat} {showWarnings : Bool} :
    (start (.limited room) showWarnings).Fits ds ↔
      (Utf8.encode (Report.blocks showWarnings 0 ds)).length ≤ room :=
  decide_eq_true_iff

@[simp] theorem reported_nil (printer : Printer) : printer.reported [] = printer := by
  simp [reported]

theorem fits_append (h : printer.Fits ds) (ds' : List Delivery) :
    printer.Fits (ds ++ ds') ↔ (printer.reported ds).Fits ds' := by
  rw [Fits, bytes_append, Output.write_append_of_fits h]
  rfl

theorem reported_append (h : printer.Fits ds) (ds' : List Delivery) :
    (printer.reported ds).reported ds' = printer.reported (ds ++ ds') := by
  have hfits : (printer.output.write (printer.bytes ds)).2 = true := h
  simp only [reported, bytes_append, Output.write_append_of_fits hfits, hfits, List.length_append,
    Nat.add_assoc, Bool.not_true, Bool.or_false]

/-- If cards do not fit, others behind them make no difference to the output. -/
theorem write_append_of_not_fits (h : ¬ printer.Fits ds) (ds' : List Delivery) :
    printer.output.write (printer.bytes (ds ++ ds')) =
      printer.output.write (printer.bytes ds) := by
  rw [bytes_append]
  exact Output.write_append_of_full (Bool.eq_false_of_not_eq_true h) _

theorem Fits.of_append (h : printer.Fits (ds ++ ds')) : printer.Fits ds := by
  by_contra hds
  rw [Fits, write_append_of_not_fits hds] at h
  exact hds h

theorem take_listener (printer : Printer) (d : Delivery) :
    (listener.take printer d).1 = printer.reported [d] ∧
      ((listener.take printer d).2 = .more ↔ printer.Fits [d]) := by
  have hbytes : printer.bytes [d] = Utf8.encode
      (Report.block printer.showWarnings (printer.cards + 1) d) := by
    rw [bytes, Report.blocks_cons]
    exact congrArg Utf8.encode String.append_empty
  simp only [listener, print, reported, Fits, hbytes]
  refine ⟨rfl, ?_⟩
  cases (printer.output.write (Utf8.encode
    (Report.block printer.showWarnings (printer.cards + 1) d))).2 <;> simp

/-- A printer stops at the first card that its output has no room for. -/
theorem stopsFirstAt_listener (h : listener.StopsFirstAt k printer ds) :
    listener.after printer (ds.take k) = printer.reported (ds.take k) ∧
    printer.Fits (ds.take (k - 1)) ∧ (k ≤ ds.length ↔ ¬ printer.Fits (ds.take k)) := by
  induction ds generalizing k printer with
  | nil =>
    have hk := h.pos
    simp only [List.take_nil, reported_nil, List.length_nil]
    refine ⟨rfl, printer.fits_nil, ?_⟩
    simp [printer.fits_nil]
    omega
  | cons d ds ih =>
    obtain ⟨htake, hflow⟩ := printer.take_listener d
    match k, h with
    | 1, hstop =>
      have hfull : ¬ printer.Fits [d] := by
        rw [← hflow, hstop]
        exact nofun
      exact ⟨htake, printer.fits_nil, by simp [hfull]⟩
    | k + 2, ⟨hmore, h⟩ =>
      have hfits : printer.Fits [d] := hflow.mp hmore
      rw [htake] at h
      obtain ⟨hafter, hbefore, hat⟩ := ih h
      refine ⟨?_, (fits_append hfits _).mpr hbefore, ?_⟩
      · rw [List.take_succ_cons, Listener.after_cons, htake, hafter, reported_append hfits]
        rfl
      · have hnext : printer.Fits (d :: ds.take (k + 1)) ↔ _ := fits_append hfits (ds.take (k + 1))
        rw [List.take_succ_cons, hnext, ← hat, List.length_cons]
        omega

end Printer
end ContactCards
