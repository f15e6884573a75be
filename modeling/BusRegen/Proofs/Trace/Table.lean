import BusRegen.Trace
import BusRegen.Proofs.Decimal.Fixed
/-!
# Reading a table back

No field of a table has a comma or the end of a line in it: the characters of a scalar are those of
`Decimal.isFixedChar`, and the others are letters. So the text of a table comes apart into its header
and the lines of its points (`Trace.splitOn_csvChars`), and each line into its five fields
(`Trace.splitOn_csvLine`). After the last line there is nothing, as every line is ended.

`TableRow` is what can be read in a line: zone and flag as they were, the scalars rounded to four
places.
-/
namespace BusRegen

open Scalar

/-! ## The fields -/

/-- The zone of a name. -/
def Zone.ofChars? (cs : List Char) : Option Zone :=
  [idle, regulating, safetyCutoff].find? (·.name.toList == cs)

theorem Zone.ofChars?_name (z : Zone) : ofChars? z.name.toList = some z := by cases z <;> rfl

namespace Trace

/-- A character that takes lines or fields apart. -/
def isSeparator (c : Char) : Bool := c == ',' || c == '\n'

theorem isSeparator_of_isFixedChar {c : Char} (h : Decimal.isFixedChar c = true) :
    isSeparator c = false := by
  rw [← Bool.not_eq_true, isSeparator, Bool.or_eq_true, beq_iff_eq, beq_iff_eq]
  rintro (rfl | rfl) <;> exact absurd h (by decide)

theorem isSeparator_of_mem {p : TracePoint} {f : List Char} (hf : f ∈ csvFields p) {c : Char}
    (hc : c ∈ f) : isSeparator c = false := by
  have hscalar {x : Float} (h : c ∈ Decimal.fixedChars 4 x) : isSeparator c = false :=
    isSeparator_of_isFixedChar (Decimal.isFixedChar_of_mem h)
  have hname (z : Zone) : z.name.toList.all (!isSeparator ·) = true := by cases z <;> rfl
  have hflag (b : Bool) : (Flag.chars b).all (!isSeparator ·) = true := by cases b <;> rfl
  simp only [csvFields, List.mem_cons, List.not_mem_nil, or_false] at hf
  rcases hf with rfl | rfl | rfl | rfl | rfl
  · exact hscalar hc
  · exact hscalar hc
  · exact hscalar hc
  · simpa using List.all_eq_true.1 (hname p.zone) c hc
  · simpa using List.all_eq_true.1 (hflag p.active) c hc

/-! ## Taking a table apart -/

theorem splitOn_csvLine (p : TracePoint) : (csvLine p).splitOn ',' = csvFields p := by
  refine List.splitOn_intercalate ',' (fun f hf hc => ?_) (List.cons_ne_nil _ _)
  exact absurd (isSeparator_of_mem hf hc) (by decide)

theorem mem_of_mem_intercalate {α : Type} {sep : List α} {ls : List (List α)} {a : α}
    (h : a ∈ sep.intercalate ls) : a ∈ sep ∨ ∃ l ∈ ls, a ∈ l := by
  induction ls with
  | nil => exact absurd h List.not_mem_nil
  | cons l ls ih =>
    by_cases hls : ls = []
    · rw [hls, List.intercalate_singleton] at h
      exact .inr ⟨l, List.mem_cons_self, h⟩
    · rw [List.intercalate_cons_of_ne_nil hls, List.mem_append, List.mem_append] at h
      rcases h with (h | h) | h
      · exact .inr ⟨l, List.mem_cons_self, h⟩
      · exact .inl h
      · exact (ih h).imp_right fun ⟨l', hl', ha⟩ => ⟨l', List.mem_cons_of_mem _ hl', ha⟩

theorem newline_not_mem_csvLine (p : TracePoint) : '\n' ∉ csvLine p := by
  intro h
  rcases mem_of_mem_intercalate h with hcomma | ⟨f, hf, hc⟩
  · exact absurd hcomma (by decide)
  · exact absurd (isSeparator_of_mem hf hc) (by decide)

/-- Lines that are ended are the lines between these ends, and an empty one. -/
theorem flatMap_ended (sep : Char) (ls : List (List Char)) :
    ls.flatMap (· ++ [sep]) = [sep].intercalate (ls ++ [[]]) := by
  induction ls with
  | nil => rfl
  | cons l ls ih =>
    rw [List.flatMap_cons, ih, List.cons_append, List.intercalate_cons_of_ne_nil (by simp)]

theorem splitOn_csvChars (t : Trace) :
    t.csvChars.splitOn '\n' = csvHeader :: t.points.map csvLine ++ [[]] := by
  rw [csvChars, flatMap_ended]
  refine List.splitOn_intercalate '\n' (fun l hl => ?_) (by simp)
  have hheader : '\n' ∉ csvHeader := by decide
  rcases List.mem_append.1 hl with hl | hl
  · rcases List.mem_cons.1 hl with rfl | hl
    · exact hheader
    · obtain ⟨p, -, rfl⟩ := List.mem_map.1 hl
      exact newline_not_mem_csvLine p
  · rw [List.mem_singleton.1 hl]
    exact List.not_mem_nil

end Trace

/-! ## Reading it -/

/-- What can be read in a line. -/
structure TableRow where
  time : Decimal.Reading
  voltage : Decimal.Reading
  current : Decimal.Reading
  zone : Zone
  active : Bool

namespace TableRow

def ofLine? (line : List Char) : Option TableRow :=
  match line.splitOn ',' with
  | [time, voltage, current, zone, active] => do
    return { time := ← Decimal.Reading.ofChars? time
             voltage := ← Decimal.Reading.ofChars? voltage
             current := ← Decimal.Reading.ofChars? current
             zone := ← Zone.ofChars? zone
             active := ← Flag.ofChars? active }
  | _ => none

/-- The rows of a table, which begins with the header and ends every line. -/
def ofTable? (cs : List Char) : Option (List TableRow) :=
  match cs.splitOn '\n' with
  | header :: lines =>
    if header = Trace.csvHeader ∧ lines.getLast? = some [] then lines.dropLast.mapM ofLine? else none
  | [] => none

/-- The row is that of a point: the scalars to four places, zone and flag as they are. -/
structure Tells (p : TracePoint) (r : TableRow) : Prop where
  time : r.time.Tells 4 (kind p.time)
  voltage : r.voltage.Tells 4 (kind p.voltage)
  current : r.current.Tells 4 (kind p.current)
  zone : r.zone = p.zone
  active : r.active = p.active

theorem ofLine?_csvLine (p : TracePoint) : ∃ r, ofLine? (Trace.csvLine p) = some r ∧ Tells p r := by
  obtain ⟨time, htime, htells⟩ := Decimal.reading_fixedChars 4 p.time
  obtain ⟨voltage, hvoltage, htells'⟩ := Decimal.reading_fixedChars 4 p.voltage
  obtain ⟨current, hcurrent, htells''⟩ := Decimal.reading_fixedChars 4 p.current
  refine ⟨⟨time, voltage, current, p.zone, p.active⟩, ?_, htells, htells', htells'', rfl, rfl⟩
  have hactive : Flag.ofChars? (Flag.chars p.active) = some p.active := Flag.ofChars?_eq_some.2 rfl
  rw [ofLine?, Trace.splitOn_csvLine, Trace.csvFields]
  simp only [htime, hvoltage, hcurrent, Zone.ofChars?_name, hactive]
  rfl

theorem mapM_csvLine (ps : List TracePoint) :
    ∃ rs, (ps.map Trace.csvLine).mapM ofLine? = some rs ∧ List.Forall₂ Tells ps rs := by
  induction ps with
  | nil => exact ⟨[], rfl, .nil⟩
  | cons p ps ih =>
    obtain ⟨r, hr, htells⟩ := ofLine?_csvLine p
    obtain ⟨rs, hrs, hall⟩ := ih
    refine ⟨r :: rs, ?_, .cons htells hall⟩
    rw [List.map_cons, List.mapM_cons, hr, hrs]
    rfl

/-- **A table is read back.** The text of a table comes apart at the ends of its lines into the header
and a line for each point, in the order of the points, with nothing after the last one; and each line
comes apart at the commas into five fields. The rows that are read in it are those of the points: the
zone and the flag exactly, each scalar that is a number to half a unit of the fourth place, and each
that is none by its name. -/
theorem ofTable?_toCsv (t : Trace) :
    t.toCsv.toList.splitOn '\n' = Trace.csvHeader :: t.points.map Trace.csvLine ++ [[]] ∧
    (∀ p : TracePoint, (Trace.csvLine p).splitOn ',' = Trace.csvFields p ∧
      (Trace.csvFields p).length = 5) ∧
    ∃ rows, ofTable? t.toCsv.toList = some rows ∧ List.Forall₂ Tells t.points rows := by
  have hsplit := Trace.splitOn_csvChars t
  obtain ⟨rows, hrows, htells⟩ := mapM_csvLine t.points
  rw [Trace.toCsv, String.toList_ofList]
  refine ⟨hsplit, fun p => ⟨Trace.splitOn_csvLine p, rfl⟩, rows, ?_, htells⟩
  rw [ofTable?, hsplit, List.cons_append]
  simp only [List.getLast?_concat, List.dropLast_concat, and_self, if_true, hrows]

end TableRow
end BusRegen
