import BusRegen.Proofs.Trace.Layout
/-!
# The forms of a trace

The layout of a trace, from those of its points and its metadata, and that the readers have these
layouts (`reads_decode`). What is written for a trace is a form of it, and the only one if all its
scalars are numbers (`form_iff`).
-/
namespace BusRegen.Trace

open Bytes

def PointForm : Layout TracePoint := fun p bs =>
  ∃ a b c, ScalarForm p.time a ∧ ScalarForm p.voltage b ∧ ScalarForm p.current c ∧
    bs = a ++ b ++ c ++ le 4 p.zone.code ++ writeFlag p.active

/-- Points one after the other. -/
def PointsForm : Layout (List TracePoint)
  | [], bs => bs = []
  | p :: ps, bs => ∃ e f, PointForm p e ∧ PointsForm ps f ∧ bs = e ++ f

def MetadataForm : Layout TraceMetadata := fun m bs =>
  m.source.utf8ByteSize < 2 ^ 64 ∧
    ∃ a b c, ScalarForm m.targetVoltage a ∧ ScalarForm m.thresholdVoltage b ∧
      ScalarForm m.minimumVoltage c ∧
      bs = writeText m.source ++ le 8 m.periodMicros.toNat ++ a ++ b ++ c

/-- The bytes of a trace that may follow the version of a file. -/
def Form : Layout Trace := fun t bs =>
  t.points.length < 2 ^ 64 ∧
    ∃ m e, MetadataForm t.metadata m ∧ PointsForm t.points e ∧
      bs = t.version :: m ++ le 8 t.points.length ++ e

/-- The reader of a point without the case split on its zone. -/
theorem point_eq :
    point = (do
      let time ← scalar
      let voltage ← scalar
      let current ← scalar
      let n ← word 4
      let zone ← liftM (Zone.ofCode? n)
      let active ← flag
      return { time, voltage, current, zone, active }) := by
  unfold point
  congr! 9 with time voltage current n
  cases Zone.ofCode? n <;> rfl

theorem reads_point : Reads point PointForm := by
  rw [point_eq]
  refine (reads_scalar.bind fun _ => reads_scalar.bind fun _ => reads_scalar.bind fun _ =>
    (reads_word 4).bind fun n => (reads_lift (Zone.ofCode? n)).bind fun _ =>
      reads_flag.bind fun _ => reads_pure _).congr fun p bs => ?_
  simp only [Layout.bind, PointForm, Zone.ofCode?_eq_some]
  constructor
  · rintro ⟨x, a, -, ha, ⟨y, b, -, hb, ⟨z, c, -, hc, ⟨-, -, -, ⟨-, rfl⟩, ⟨zone, -, -, ⟨rfl, rfl⟩,
      ⟨active, -, -, rfl, ⟨rfl, rfl⟩, rfl⟩, rfl⟩, rfl⟩, rfl⟩, rfl⟩, rfl⟩
    exact ⟨a, b, c, ha, hb, hc, by simp⟩
  · rintro ⟨a, b, c, ha, hb, hc, rfl⟩
    have hcode : p.zone.code < 256 ^ 4 := by cases p.zone <;> decide
    exact ⟨_, a, _, ha, ⟨_, b, _, hb, ⟨_, c, _, hc, ⟨_, _, _, ⟨hcode, rfl⟩, ⟨p.zone, _, _,
      ⟨rfl, rfl⟩, ⟨p.active, _, [], rfl, ⟨rfl, rfl⟩, rfl⟩, rfl⟩, rfl⟩, rfl⟩, rfl⟩, by simp⟩

/-- The points that are read follow those already seen, which are in reverse. -/
theorem reads_pointsAfter (seen : List TracePoint) (n : Nat) :
    Reads (pointsAfter seen n) fun ps bs =>
      ∃ new, ps = seen.reverse ++ new ∧ new.length = n ∧ PointsForm new bs := by
  induction n generalizing seen with
  | zero =>
    refine (reads_pure _).congr fun ps bs => ?_
    simp [PointsForm]
  | succ n ih =>
    refine (reads_point.bind fun p => ih (p :: seen)).congr fun ps bs => ?_
    constructor
    · rintro ⟨p, e, f, he, ⟨new, rfl, hlen, hf⟩, rfl⟩
      exact ⟨p :: new, by simp, by simp [hlen], e, f, he, hf, rfl⟩
    · rintro ⟨new, rfl, hlen, hform⟩
      cases new with
      | nil => cases hlen
      | cons p new =>
        obtain ⟨e, f, he, hf, rfl⟩ := hform
        exact ⟨p, e, f, he, ⟨new, by simp, by simpa using hlen, hf⟩, rfl⟩

theorem reads_metadata : Reads metadataReader MetadataForm := by
  refine (reads_text.bind fun _ => (reads_word 8).bind fun _ => reads_scalar.bind fun _ =>
    reads_scalar.bind fun _ => reads_scalar.bind fun _ => reads_pure _).congr fun m bs => ?_
  simp only [Layout.bind, MetadataForm]
  constructor
  · rintro ⟨s, -, -, ⟨hs, rfl⟩, ⟨n, -, -, ⟨hn, rfl⟩, ⟨x, a, -, ha, ⟨y, b, -, hb,
      ⟨z, c, -, hc, ⟨rfl, rfl⟩, rfl⟩, rfl⟩, rfl⟩, rfl⟩, rfl⟩
    refine ⟨hs, a, b, c, ha, hb, hc, ?_⟩
    simp [UInt64.toNat_ofNat_of_lt' (by exact hn)]
  · rintro ⟨hs, a, b, c, ha, hb, hc, rfl⟩
    exact ⟨m.source, _, _, ⟨hs, rfl⟩, ⟨m.periodMicros.toNat, _, _, ⟨m.periodMicros.toNat_lt, rfl⟩,
      ⟨_, a, _, ha, ⟨_, b, _, hb, ⟨_, c, [], hc, ⟨by simp, rfl⟩, rfl⟩, rfl⟩, rfl⟩, rfl⟩, by simp⟩

theorem reads_decode : Reads decode Form := by
  refine (reads_byte.bind fun _ => reads_metadata.bind fun _ => (reads_word 8).bind fun n =>
    (reads_pointsAfter [] n).bind fun _ => reads_pure _).congr fun t bs => ?_
  simp only [Layout.bind, Form]
  constructor
  · rintro ⟨v, -, -, rfl, ⟨md, m, -, hm, ⟨n, -, -, ⟨hn, rfl⟩, ⟨ps, e, -, ⟨new, rfl, rfl, he⟩,
      ⟨rfl, rfl⟩, rfl⟩, rfl⟩, rfl⟩, rfl⟩
    exact ⟨hn, m, e, hm, he, by simp⟩
  · rintro ⟨hn, m, e, hm, he, rfl⟩
    exact ⟨t.version, _, _, rfl, ⟨_, m, _, hm, ⟨_, _, _, ⟨hn, rfl⟩, ⟨_, e, [],
      ⟨t.points, rfl, rfl, he⟩, ⟨rfl, rfl⟩, rfl⟩, rfl⟩, rfl⟩, by simp⟩

/-! ## The forms of what is written -/

/-- All its scalars are numbers. -/
structure IsNumeric (t : Trace) : Prop where
  metadata : t.metadata.targetVoltage.isNaN = false ∧ t.metadata.thresholdVoltage.isNaN = false ∧
    t.metadata.minimumVoltage.isNaN = false
  points : ∀ p ∈ t.points,
    p.time.isNaN = false ∧ p.voltage.isNaN = false ∧ p.current.isNaN = false

/-- Its lengths can be counted in eight bytes. -/
structure Storable (t : Trace) : Prop where
  source : t.metadata.source.utf8ByteSize < 2 ^ 64
  points : t.points.length < 2 ^ 64

theorem pointForm_writePoint (p : TracePoint) : PointForm p (writePoint p) :=
  ⟨_, _, _, scalarForm_writeScalar _, scalarForm_writeScalar _, scalarForm_writeScalar _, rfl⟩

theorem pointsForm_flatMap (ps : List TracePoint) : PointsForm ps (ps.flatMap writePoint) := by
  induction ps with
  | nil => rfl
  | cons p ps ih => exact ⟨_, _, pointForm_writePoint p, ih, List.flatMap_cons⟩

theorem metadataForm_writeMetadata {m : TraceMetadata} (h : m.source.utf8ByteSize < 2 ^ 64) :
    MetadataForm m (writeMetadata m) :=
  ⟨h, _, _, _, scalarForm_writeScalar _, scalarForm_writeScalar _, scalarForm_writeScalar _, rfl⟩

theorem Storable.form_encode {t : Trace} (h : t.Storable) : Form t t.encode :=
  ⟨h.points, _, _, metadataForm_writeMetadata h.source, pointsForm_flatMap _, rfl⟩

theorem Form.storable {t : Trace} {e : List UInt8} (h : Form t e) : t.Storable := by
  obtain ⟨hlen, -, -, ⟨hs, -⟩, -, -⟩ := h
  exact ⟨hs, hlen⟩

theorem PointsForm.eq_flatMap {ps : List TracePoint} {e : List UInt8} (h : PointsForm ps e)
    (hn : ∀ p ∈ ps, p.time.isNaN = false ∧ p.voltage.isNaN = false ∧ p.current.isNaN = false) :
    e = ps.flatMap writePoint := by
  induction ps generalizing e with
  | nil => exact h
  | cons p ps ih =>
    obtain ⟨-, f, ⟨a, b, c, ha, hb, hc, rfl⟩, hf, rfl⟩ := h
    rw [List.forall_mem_cons] at hn
    obtain ⟨⟨ht, hv, hi⟩, hn⟩ := hn
    rw [scalarForm_iff ht] at ha
    rw [scalarForm_iff hv] at hb
    rw [scalarForm_iff hi] at hc
    rw [ih hf hn, ha, hb, hc, List.flatMap_cons]
    rfl

theorem Form.eq_encode {t : Trace} {e : List UInt8} (h : Form t e) (hn : t.IsNumeric) :
    e = t.encode := by
  obtain ⟨-, m, f, ⟨-, a, b, c, ha, hb, hc, rfl⟩, hf, rfl⟩ := h
  obtain ⟨h₁, h₂, h₃⟩ := hn.metadata
  rw [scalarForm_iff h₁] at ha
  rw [scalarForm_iff h₂] at hb
  rw [scalarForm_iff h₃] at hc
  rw [hf.eq_flatMap hn.points, ha, hb, hc]
  rfl

theorem form_iff {t : Trace} (hn : t.IsNumeric) (e : List UInt8) :
    Form t e ↔ t.Storable ∧ e = t.encode :=
  ⟨fun h => ⟨h.storable, h.eq_encode hn⟩, fun ⟨hs, he⟩ => he ▸ hs.form_encode⟩

end BusRegen.Trace
