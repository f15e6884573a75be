import BusRegen.Trace.Storage
import BusRegen.Proofs.Trace.Form
/-!
# What a trace file says

A file is read as a trace exactly if it is the magic, the supported version and a form of that
trace, with anything after it (`archive_exact`). So a file says one trace at most, what is saved is
loaded again, and a file that was cut short, or in which a part is not what is written there, is
refused.

The version that is looked at is the one before the trace, and it is written from the one in the
trace. In a file that was not written here the two can differ; what is loaded from it can be saved
and loaded again just if its own version is the supported one (`saved_again`).
-/
namespace BusRegen.Trace

open Bytes

/-! ## Files -/

theorem ofArchive_magic (v : UInt8) (data : List UInt8) :
    ofArchive (magic ++ v :: data) =
      if v ≠ currentVersion then .error (.unsupportedVersion v)
      else
        match decode data with
        | some (t, _) => .ok t
        | none => .error .malformed := rfl

theorem eq_magic_of_ofArchive {bs : List UInt8} {t : Trace} (h : ofArchive bs = .ok t) :
    ∃ v data, bs = magic ++ v :: data := by
  unfold ofArchive at h
  split at h
  · cases h
  · split at h
    · cases h
    · rename_i hmagic
      split at h
      · cases h
      · rename_i v data hdrop
        rw [ne_eq, not_not] at hmagic
        exact ⟨v, data, by rw [← hmagic, ← hdrop, List.take_append_drop]⟩

/-- A file of the supported version, from what follows the version. -/
def withHeader (data : List UInt8) : List UInt8 := magic ++ currentVersion :: data

theorem ofArchive_withHeader (data : List UInt8) :
    ofArchive (withHeader data) =
      match decode data with
      | some (t, _) => .ok t
      | none => .error .malformed := by
  unfold withHeader
  rw [ofArchive_magic, if_neg (not_not.2 rfl)]

theorem ofArchive_eq_ok_iff (bs : List UInt8) (t : Trace) :
    ofArchive bs = .ok t ↔ ∃ e rest, Form t e ∧ bs = withHeader (e ++ rest) := by
  constructor
  · intro h
    obtain ⟨v, data, rfl⟩ := eq_magic_of_ofArchive h
    rw [ofArchive_magic] at h
    split at h
    · cases h
    · rename_i hv
      rw [ne_eq, not_not] at hv
      subst hv
      split at h
      · rename_i t' rest hd
        cases h
        obtain ⟨e, he, rfl⟩ := (reads_decode _ _ _).1 hd
        exact ⟨e, rest, he, rfl⟩
      · cases h
  · rintro ⟨e, rest, he, rfl⟩
    rw [ofArchive_withHeader, (reads_decode _ t rest).2 ⟨e, he, rfl⟩]

theorem toArchive_eq {t : Trace} (h : t.version = currentVersion) :
    t.toArchive = withHeader t.encode := by
  rw [toArchive, h, withHeader]

/-- A file is written with the version of its trace and read back if that is supported. -/
theorem ofArchive_toArchive {t : Trace} (h : t.Storable) :
    ofArchive t.toArchive =
      if t.version = currentVersion then .ok t else .error (.unsupportedVersion t.version) := by
  split
  · next hv =>
    refine (ofArchive_eq_ok_iff _ _).2 ⟨_, [], h.form_encode, ?_⟩
    rw [toArchive_eq hv, List.append_nil]
  · next hv =>
    unfold toArchive
    rw [ofArchive_magic, if_pos hv]

theorem ofArchive_malformed {data : List UInt8}
    (h : ∀ t e rest, Form t e → data ≠ e ++ rest) :
    ofArchive (withHeader data) = .error .malformed := by
  rw [ofArchive_withHeader]
  split
  · rename_i t rest hd
    obtain ⟨e, he, rfl⟩ := (reads_decode _ _ _).1 hd
    exact absurd rfl (h t e rest he)
  · rfl

/-- A file that was cut short is refused: what would be read from it would also be read from the
whole, but there is one form at most at the front of it. -/
theorem ofArchive_take {t : Trace} {e : List UInt8} (he : Form t e) {n : Nat}
    (hn : n < (withHeader e).length) : ∃ err, ofArchive ((withHeader e).take n) = .error err := by
  cases h : ofArchive ((withHeader e).take n) with
  | error err => exact ⟨err, rfl⟩
  | ok t' =>
    obtain ⟨e', rest, he', htake⟩ := (ofArchive_eq_ok_iff _ _).1 h
    have hall : withHeader e = withHeader (e' ++ (rest ++ (withHeader e).drop n)) := by
      conv_lhs => rw [← List.take_append_drop n (withHeader e), htake]
      simp [withHeader]
    have hdata : e ++ [] = e' ++ (rest ++ (withHeader e).drop n) := by
      simpa [withHeader] using hall
    obtain ⟨-, rfl⟩ := reads_decode.unique he he' hdata
    have hnil := List.append_cancel_left hdata
    have hdrop : (withHeader e).drop n = [] := (List.append_eq_nil_iff.1 hnil.symm).2
    rw [List.drop_eq_nil_iff] at hdrop
    omega

/-- Where the same bytes begin with some points and with more points, one more follows the first. -/
theorem PointsForm.more {ps qs : List TracePoint} {e f r s : List UInt8} (hp : PointsForm ps e)
    (hq : PointsForm qs f) (heq : e ++ r = f ++ s) (hlen : ps.length < qs.length) :
    ∃ p g u, PointForm p g ∧ r = g ++ u := by
  induction ps generalizing qs e f with
  | nil =>
    cases qs with
    | nil => cases hlen
    | cons q qs =>
      obtain ⟨g, f, hg, -, rfl⟩ := hq
      have he : e = [] := hp
      rw [he, List.nil_append, List.append_assoc] at heq
      exact ⟨q, g, f ++ s, hg, heq⟩
  | cons p ps ih =>
    cases qs with
    | nil => cases hlen
    | cons q qs =>
      obtain ⟨g, e, hg, hp, rfl⟩ := hp
      obtain ⟨g', f, hg', hq, rfl⟩ := hq
      rw [List.append_assoc, List.append_assoc] at heq
      obtain ⟨-, rfl⟩ := reads_point.unique hg hg' heq
      exact ih hp hq (List.append_cancel_left heq) (by simpa using hlen)

/-- A file is refused if the points end before the count is reached. -/
theorem ofArchive_count {v : UInt8} {md : TraceMetadata} {m e rest : List UInt8}
    {ps : List TracePoint} {n : Nat} (hm : MetadataForm md m) (he : PointsForm ps e)
    (hlt : ps.length < n) (hn : n < 2 ^ 64) (hrest : ∀ p f u, PointForm p f → rest ≠ f ++ u) :
    ofArchive (withHeader (v :: (m ++ le 8 n ++ e ++ rest))) = .error .malformed := by
  refine ofArchive_malformed ?_
  rintro t - rest' ⟨hlen, m', e', hm', he', rfl⟩ heq
  simp only [List.cons_append, List.append_assoc, List.cons.injEq] at heq
  obtain ⟨-, heq⟩ := heq
  obtain ⟨-, rfl⟩ := reads_metadata.unique hm hm' heq
  have heq := List.append_cancel_left heq
  obtain ⟨rfl, -⟩ := (reads_word 8).unique ⟨hn, rfl⟩ ⟨hlen, rfl⟩ heq
  obtain ⟨p, g, u, hg, hu⟩ := he.more he' (List.append_cancel_left heq) hlt
  exact hrest p g u hg hu

/-- A file is refused if its source is not text. -/
theorem ofArchive_source {v : UInt8} {c rest : List UInt8} (hc : c.length < 2 ^ 64)
    (hs : ∀ s : String, s.toUTF8.toList ≠ c) :
    ofArchive (withHeader (v :: (le 8 c.length ++ c ++ rest))) = .error .malformed := by
  refine ofArchive_malformed ?_
  rintro t - rest' ⟨-, m, e, ⟨hlen, x, y, z, -, -, -, rfl⟩, -, rfl⟩ heq
  simp only [writeText, List.cons_append, List.append_assoc, List.cons.injEq] at heq
  obtain ⟨-, heq⟩ := heq
  obtain ⟨hn, -⟩ := (reads_word 8).unique ⟨hc, rfl⟩ ⟨hlen, rfl⟩ heq
  rw [hn] at heq
  have heq := List.append_cancel_left heq
  obtain ⟨-, heq⟩ := (reads_chunk _).unique ⟨hn, rfl⟩ ⟨length_toUTF8 _, rfl⟩ heq
  exact hs _ heq.symm

/-! ## Files in a folder -/

theorem save_file {t : Trace} {path name : String} (h : Folder.place path = .file name)
    (f : Folder) : (save t path : StateM Folder _) f = (.ok (), f.put name t.toArchive) := by
  have hw : (Files.write path t.toArchive : StateM Folder Bool) f =
      (true, f.put name t.toArchive) := by
    simp only [Files.write, h]
  unfold save
  simp only [bind, StateT.bind, hw]
  rfl

theorem load_file {path name : String} {bs : List UInt8} (h : Folder.place path = .file name)
    {f : Folder} (hf : f.content? name = some bs) :
    (load path : StateM Folder _) f = ((ofArchive bs).mapError .refused, f) := by
  have hr : (Files.read? path : StateM Folder _) f = (some bs, f) := by
    simp only [Files.read?, h, hf]
  unfold load
  simp only [bind, StateT.bind, hr]
  rfl

theorem load_save {t : Trace} {path name : String} (ht : t.Storable)
    (hv : t.version = currentVersion) (hp : Folder.place path = .file name) (f : Folder) :
    ((do return (← save t path, ← load path)) : StateM Folder _) f =
      ((.ok (), .ok t), f.put name t.toArchive) := by
  have hsave : (save t path : StateM Folder _) f = (.ok (), f.put name t.toArchive) :=
    save_file hp f
  have hload : (load path : StateM Folder _) (f.put name t.toArchive) =
      (.ok t, f.put name t.toArchive) := by
    have hput : (f.put name t.toArchive).content? name = some t.toArchive := by
      rw [Folder.content?_put, if_pos rfl]
    rw [load_file hp hput, ofArchive_toArchive ht, if_pos hv]
    rfl
  simp only [bind, StateT.bind, hsave, hload]
  rfl

/-- **A trace file is read as what it says.** A file is read as a trace exactly if it holds a form
of it, and bytes after that are passed over; the form of a trace is what is written for it, up to
the patterns of a NaN, and no bytes begin with forms of two traces. So a trace of the supported
version is loaded as it was saved. A file is refused that was cut short, that has fewer points than
it counts (as the rest is not a point, whether it is too short or has a zone or a flag that there is
not), or whose source is not text. -/
theorem archive_exact :
    (∀ bs t, ofArchive bs = .ok t ↔ ∃ e rest, Form t e ∧ bs = withHeader (e ++ rest)) ∧
    (∀ t : Trace, t.Storable → Form t t.encode) ∧
    (∀ (t : Trace) e, t.IsNumeric → (Form t e ↔ t.Storable ∧ e = t.encode)) ∧
    (∀ t t' e e' rest rest', Form t e → Form t' e' → e ++ rest = e' ++ rest' → t = t' ∧ e = e') ∧
    (∀ (t : Trace) (path name : String) (f : Folder), t.Storable → t.version = currentVersion →
      Folder.place path = .file name →
        ((do return (← save t path, ← load path)) : StateM Folder _) f =
          ((.ok (), .ok t), f.put name t.toArchive)) ∧
    (∀ t e n, Form t e → n < (withHeader e).length →
      ∃ err, ofArchive ((withHeader e).take n) = .error err) ∧
    (∀ v md m ps e n rest, MetadataForm md m → PointsForm ps e → ps.length < n → n < 2 ^ 64 →
      (∀ p f u, PointForm p f → rest ≠ f ++ u) →
        ofArchive (withHeader (v :: (m ++ le 8 n ++ e ++ rest))) = .error .malformed) ∧
    (∀ v c rest, c.length < 2 ^ 64 → (∀ s : String, s.toUTF8.toList ≠ c) →
      ofArchive (withHeader (v :: (le 8 c.length ++ c ++ rest))) = .error .malformed) := by
  refine ⟨ofArchive_eq_ok_iff, fun t => Storable.form_encode, fun t e hn => form_iff hn e,
    fun t t' e e' rest rest' he he' heq => reads_decode.unique he he' heq,
    fun t path name f ht hv hp => load_save ht hv hp f, fun t e n he hn => ofArchive_take he hn,
    ?_, ?_⟩
  · intro v md m ps e n rest hm he hlt hn hrest
    exact ofArchive_count hm he hlt hn hrest
  · intro v c rest hc hs
    exact ofArchive_source hc hs

/-- One tick with a voltage that is no number. -/
def oddTrace : Trace :=
  { version := currentVersion
    metadata :=
      { source := "µ", periodMicros := 10000, targetVoltage := 48, thresholdVoltage := 47
        minimumVoltage := Scalar.infinity true }
    points := [⟨0, Scalar.nan, Scalar.infinity false, .safetyCutoff, false⟩] }

/-- A form of it in which the voltage has another pattern than the one that is written. -/
def oddForm : List UInt8 :=
  currentVersion :: writeMetadata oddTrace.metadata ++ le 8 1 ++
    (writeScalar 0 ++ le 8 0xfff0000000000001 ++ writeScalar (Scalar.infinity false) ++ le 4 2 ++
      [0])

theorem storable_oddTrace : oddTrace.Storable := ⟨by decide, by decide⟩

theorem form_oddForm : Form oddTrace oddForm := by
  refine ⟨by decide, _, _, metadataForm_writeMetadata storable_oddTrace.source, ⟨_, [], ⟨_, _, _,
    scalarForm_writeScalar _, ⟨0xfff0000000000001, .inr ⟨?_, by decide⟩, rfl⟩,
    scalarForm_writeScalar _, rfl⟩, rfl, rfl⟩, ?_⟩
  · rw [Scalar.isNaN_iff]
    decide
  · simp [oddForm, oddTrace, writeFlag, Zone.code]

theorem archive_exact_odd :
    ofArchive (withHeader (oddForm ++ [7])) = .ok oddTrace ∧
      (((do return (← save oddTrace "t", ← load "t")) : StateM Folder _) {}).1 =
        (.ok (), .ok oddTrace) ∧
      ∃ err, ofArchive ((withHeader oddForm).take 80) = .error err := by
  have hlen : 80 < (withHeader oddForm).length := by
    simp [withHeader, oddForm, magic, writeMetadata, writeText, writeScalar, length_le]
    omega
  have hplace : Folder.place "t" = .file "t" := by cbv
  obtain ⟨hread, -, -, -, hload, htake, -⟩ := archive_exact
  refine ⟨(hread _ _).2 ⟨oddForm, [7], form_oddForm, rfl⟩, ?_, htake _ _ _ form_oddForm hlen⟩
  rw [hload oddTrace "t" "t" {} storable_oddTrace rfl hplace]

/-! ## Saving again what was loaded -/

theorem storable_of_ofArchive {bs : List UInt8} {t : Trace} (h : ofArchive bs = .ok t) :
    t.Storable := by
  obtain ⟨e, -, he, -⟩ := (ofArchive_eq_ok_iff _ _).1 h
  exact he.storable

theorem Storable.between {t : Trace} (h : t.Storable) (start stop : Float) :
    (t.between start stop).Storable :=
  ⟨h.source, (List.length_filter_le _ _).trans_lt h.points⟩

/-- **What was loaded can be saved and loaded again if its own version is the supported one.** -/
theorem saved_again {bs : List UInt8} {t : Trace} (h : ofArchive bs = .ok t) :
    (t.version = currentVersion →
      ofArchive t.toArchive = .ok t ∧
        ∀ start stop, ofArchive (t.between start stop).toArchive = .ok (t.between start stop)) ∧
    (t.version ≠ currentVersion →
      ofArchive t.toArchive = .error (.unsupportedVersion t.version) ∧
        ∀ start stop, ofArchive (t.between start stop).toArchive =
          .error (.unsupportedVersion t.version)) := by
  have hs := storable_of_ofArchive h
  have hb := fun start stop => ofArchive_toArchive (hs.between start stop)
  constructor
  · intro hv
    exact ⟨(ofArchive_toArchive hs).trans (if_pos hv), fun a b => (hb a b).trans (if_pos hv)⟩
  · intro hv
    exact ⟨(ofArchive_toArchive hs).trans (if_neg hv), fun a b => (hb a b).trans (if_neg hv)⟩

/-- A file of the supported version whose trace says version 2. -/
def newerFile : List UInt8 := magic ++ [1, 2] ++ List.replicate 48 0

/-- The trace in it. -/
def newerTrace : Trace :=
  { version := 2
    metadata :=
      { source := "", periodMicros := 0, targetVoltage := 0, thresholdVoltage := 0
        minimumVoltage := 0 }
    points := [] }

theorem ofArchive_newerFile : ofArchive newerFile = .ok newerTrace := by
  refine (ofArchive_eq_ok_iff _ _).2 ⟨newerTrace.encode, [], ?_, ?_⟩
  · exact Storable.form_encode ⟨by decide, by decide⟩
  · simp [newerFile, withHeader, newerTrace, encode, writeMetadata, writeText, writeScalar,
      toList_eq]
    decide

theorem saved_again_newer :
    (ofArchive newerFile = .ok newerTrace ∧ newerTrace.version ≠ currentVersion ∧
      ofArchive newerTrace.toArchive = .error (.unsupportedVersion 2)) ∧
    (ofArchive oddTrace.toArchive = .ok oddTrace ∧ oddTrace.version = currentVersion ∧
      ofArchive (oddTrace.between 0 1).toArchive = .ok (oddTrace.between 0 1)) := by
  have hodd : ofArchive oddTrace.toArchive = .ok oddTrace :=
    (ofArchive_toArchive storable_oddTrace).trans (if_pos rfl)
  exact ⟨⟨ofArchive_newerFile, by decide, ((saved_again ofArchive_newerFile).2 (by decide)).1⟩,
    hodd, rfl, ((saved_again hodd).1 rfl).2 0 1⟩

theorem not_saved_again :
    ¬ ∀ bs t, ofArchive bs = .ok t →
      t.version = currentVersion ∧ ofArchive t.toArchive = .ok t ∧
        ∀ start stop, ofArchive (t.between start stop).toArchive = .ok (t.between start stop) := by
  intro h
  exact absurd (h _ _ ofArchive_newerFile).1 (by decide)

end BusRegen.Trace
