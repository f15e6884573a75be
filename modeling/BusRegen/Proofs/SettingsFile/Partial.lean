import BusRegen.Proofs.SettingsFile.RoundTrip
import BusRegen.Proofs.Toml.Document
import BusRegen.Proofs.ValidConfig
/-!
# Settings files with some of the keys

A text may give any of the keys in any order, leave out a section, and say other things besides.
`Assigns` is what its tables say of the keys, each of which is missing or has a value of its kind, and
`Override` the values that come of it. Keys are looked up by name and set one after the other, so the
file that is read is the standard one with exactly these values in it (`Assigns.ofText_eq`).

A controller gets the values of a file if they keep the rules (`config_eq_ok_iff`). The rules are those
of `Config.check`, said here of the values under the keys (`RegulatorSection.Rules`).
-/
namespace BusRegen

open Toml (Fields)

namespace SettingsFile

/-! ## What a text gives -/

/-- Values for some of the keys. -/
structure Override where
  scalars : Parameter → Option Float := fun _ => none
  tickMicros : Option UInt64 := none
  overrunMultiplier : Option Float := none
  maxIterations : Option UInt64 := none
  spin : Option Bool := none

/-- A file with these values, and its own under all other keys. -/
def Override.on (o : Override) (f : SettingsFile) : SettingsFile where
  regulator :=
    { values := fun p => (o.scalars p).getD (f.regulator.values p)
      tickMicros := o.tickMicros.getD f.regulator.tickMicros }
  loop :=
    { overrunMultiplier := o.overrunMultiplier.getD f.loop.overrunMultiplier
      maxIterations := o.maxIterations.or f.loop.maxIterations
      spin := o.spin.getD f.loop.spin }

/-- A scalar is given as such or as a whole number of 64 bits, with or without a sign. -/
inductive MeansScalar : Toml → Float → Prop where
  | scalar (x : Float) : MeansScalar (.scalar x) x
  | integer {n : Int} (hlow : -2 ^ 63 ≤ n) (hhigh : n < 2 ^ 64) :
    MeansScalar (.integer n) (Scalar.ofInt n)

inductive MeansWord : Toml → UInt64 → Prop where
  | word (n : UInt64) : MeansWord (.integer n.toNat) n

inductive MeansFlag : Toml → Bool → Prop where
  | flag (b : Bool) : MeansFlag (.flag b) b

/-- There is a table of this name with these fields, however it is written, or nothing of this name
and no fields. -/
def HasSection (root : Fields) (name : String) (fields : Fields) : Prop :=
  (Toml.find? name root = none ∧ fields = []) ∨
    ∃ origin, Toml.find? name root = some (.table origin fields)

/-- The document has these sections, and they give these values to the keys. Of other keys it is only
asked that there are values for their words. -/
structure Assigns (root regulator loop : Fields) (o : Override) : Prop where
  sound : Toml.fieldsSound root = true
  hasRegulator : HasSection root "regulator" regulator
  hasLoop : HasSection root "loop" loop
  scalars : ∀ p, Option.Rel MeansScalar (Toml.find? p.key regulator) (o.scalars p)
  tickMicros : Option.Rel MeansWord (Toml.find? "tick_period_us" regulator) o.tickMicros
  overrunMultiplier :
    Option.Rel MeansScalar (Toml.find? "dt_clamp_multiplier" loop) o.overrunMultiplier
  maxIterations : Option.Rel MeansWord (Toml.find? "max_iterations" loop) o.maxIterations
  spin : Option.Rel MeansFlag (Toml.find? "spin" loop) o.spin

theorem scalar?_of_means (v : Toml) (x : Float) (h : MeansScalar v x) : scalar? v = some x := by
  cases h with
  | scalar x => rfl
  | integer hlow hhigh => exact if_pos ⟨hlow, hhigh⟩

theorem word?_of_means (v : Toml) (n : UInt64) (h : MeansWord v n) : word? v = some n := by
  cases h
  exact word?_word n

theorem flag?_of_means (v : Toml) (b : Bool) (h : MeansFlag v b) : flag? v = some b := by
  cases h
  rfl

/-! ## Reading the sections -/

theorem ofKeys?_nil {κ σ : Type} {keys : List κ} {name : κ → String}
    {set : σ → Toml → κ → Option σ} (start : σ) :
    ofKeys? keys name set start [] = some start := by
  unfold ofKeys?
  induction keys with
  | nil => rfl
  | cons k keys ih => exact ih

/-- A section with a value put in, if one is given. -/
def putGiven {α σ : Type} (put : σ → α → σ) (given : Option α) (s : σ) : σ :=
  (given.map (put s)).getD s

theorem read_eq_putGiven {α σ : Type} {means : Toml → α → Prop} {read : Toml → Option α}
    (hread : ∀ v a, means v a → read v = some a) {v? : Option Toml} {given : Option α}
    (h : Option.Rel means v? given) (put : σ → α → σ) (s : σ) :
    v?.elim (some s) (fun v => (read v).bind fun a => some (put s a)) =
      some (putGiven put given s) := by
  cases h with
  | none => rfl
  | some hr =>
    rw [Option.elim_some, hread _ _ hr]
    rfl

variable {root regulator loop : Fields} {o : Override}

namespace Override

/-- What is read of one key. -/
def regulatorStep (o : Override) (s : RegulatorSection) : RegulatorKey → RegulatorSection
  | .scalar p => putGiven (fun s x => s.set p x) (o.scalars p) s
  | .tickPeriod => putGiven (fun s n => { s with tickMicros := n }) o.tickMicros s

def loopStep (o : Override) (s : LoopSection) : LoopKey → LoopSection
  | .overrunMultiplier => putGiven (fun s x => { s with overrunMultiplier := x }) o.overrunMultiplier s
  | .maxIterations => putGiven (fun s n => { s with maxIterations := some n }) o.maxIterations s
  | .spin => putGiven (fun s b => { s with spin := b }) o.spin s

theorem values_regulatorStep (o : Override) (s : RegulatorSection) (k : RegulatorKey)
    (p : Parameter) : (o.regulatorStep s k).values p =
      if k = .scalar p then (o.scalars p).getD (s.values p) else s.values p := by
  cases k with
  | scalar q =>
    rw [regulatorStep, putGiven]
    by_cases hq : q = p
    · subst hq
      cases o.scalars q <;> simp [RegulatorSection.set]
    · cases o.scalars q <;> simp [RegulatorSection.set, hq, Ne.symm hq]
  | tickPeriod =>
    rw [regulatorStep, putGiven]
    cases o.tickMicros <;> rfl

theorem tickMicros_regulatorStep (o : Override) (s : RegulatorSection) (k : RegulatorKey) :
    (o.regulatorStep s k).tickMicros =
      if k = .tickPeriod then o.tickMicros.getD s.tickMicros else s.tickMicros := by
  cases k with
  | scalar q =>
    rw [regulatorStep, putGiven]
    cases o.scalars q <;> rfl
  | tickPeriod =>
    rw [regulatorStep, putGiven]
    cases o.tickMicros <;> rfl

/-- Keys that are set in any order, and more than once, have the values that are given for them. -/
theorem values_foldl (o : Override) (keys : List RegulatorKey) (s : RegulatorSection)
    (p : Parameter) : (keys.foldl o.regulatorStep s).values p =
      if .scalar p ∈ keys then (o.scalars p).getD (s.values p) else s.values p := by
  induction keys generalizing s with
  | nil => rfl
  | cons k keys ih =>
    rw [List.foldl_cons, ih, values_regulatorStep]
    by_cases hk : k = .scalar p
    · cases o.scalars p <;> simp [hk]
    · simp [hk, Ne.symm hk]

theorem tickMicros_foldl (o : Override) (keys : List RegulatorKey) (s : RegulatorSection) :
    (keys.foldl o.regulatorStep s).tickMicros =
      if .tickPeriod ∈ keys then o.tickMicros.getD s.tickMicros else s.tickMicros := by
  induction keys generalizing s with
  | nil => rfl
  | cons k keys ih =>
    rw [List.foldl_cons, ih, tickMicros_regulatorStep]
    by_cases hk : k = .tickPeriod
    · cases o.tickMicros <;> simp [hk]
    · simp [hk, Ne.symm hk]

theorem foldl_regulator (o : Override) (f : SettingsFile) :
    RegulatorKey.all.foldl o.regulatorStep f.regulator = (o.on f).regulator := by
  refine regulatorSection_ext (fun p => ?_) ?_
  · rw [values_foldl, if_pos (by cases p <;> decide)]
    rfl
  · rw [tickMicros_foldl, if_pos (by decide)]
    rfl

theorem foldl_loop (o : Override) (f : SettingsFile) :
    LoopKey.all.foldl o.loopStep f.loop = (o.on f).loop := by
  obtain ⟨-, -, multiplier, limit, spin⟩ := o
  cases multiplier <;> cases limit <;> cases spin <;> rfl

end Override

namespace Assigns

theorem ofKeys?_regulator (h : Assigns root regulator loop o) :
    ofKeys? RegulatorKey.all RegulatorKey.name setRegulator? {} regulator =
      some (o.on {}).regulator := by
  rw [← Override.foldl_regulator]
  refine ofKeys?_eq_foldl (fun k _ s => ?_) _
  cases k with
  | scalar p => exact read_eq_putGiven scalar?_of_means (h.scalars p) (fun s x => s.set p x) s
  | tickPeriod =>
    exact read_eq_putGiven word?_of_means h.tickMicros (fun s n => { s with tickMicros := n }) s

theorem ofKeys?_loop (h : Assigns root regulator loop o) :
    ofKeys? LoopKey.all LoopKey.name setLoop? {} loop = some (o.on {}).loop := by
  rw [← Override.foldl_loop]
  refine ofKeys?_eq_foldl (fun k _ s => ?_) _
  cases k with
  | overrunMultiplier =>
    exact read_eq_putGiven scalar?_of_means h.overrunMultiplier
      (fun s x => { s with overrunMultiplier := x }) s
  | maxIterations =>
    exact read_eq_putGiven word?_of_means h.maxIterations
      (fun s n => { s with maxIterations := some n }) s
  | spin => exact read_eq_putGiven flag?_of_means h.spin (fun s b => { s with spin := b }) s

end Assigns

theorem isSound_of_find? {fields : Fields} (h : Toml.fieldsSound fields = true) {name : String}
    {v : Toml} (hv : Toml.find? name fields = some v) : Toml.isSound v = true := by
  induction fields with
  | nil => cases hv
  | cons f fields ih =>
    rw [Toml.fieldsSound, Bool.and_eq_true] at h
    rw [Toml.find?] at hv
    split at hv
    · cases hv
      exact h.1
    · exact ih h.2 hv

theorem HasSection.elim {σ : Type} {name : String} {fields : Fields} {read : Toml → Option σ}
    {start s : σ} (h : HasSection root name fields) (hmissing : fields = [] → s = start)
    (htable : ∀ origin, Toml.find? name root = some (.table origin fields) →
      read (.table origin fields) = some s) :
    (Toml.find? name root).elim (some start) read = some s := by
  rcases h with ⟨hnone, hempty⟩ | ⟨origin, hsome⟩
  · rw [hnone, hmissing hempty]
    rfl
  · rw [hsome]
    exact htable origin hsome

theorem keyValues?_table (h : Toml.fieldsSound root = true) {name : String} {origin : Toml.Origin}
    {fields : Fields} (hfind : Toml.find? name root = some (.table origin fields))
    (names : List String) : keyValues? names (.table origin fields) = some fields := by
  have hsound := isSound_of_find? h hfind
  rw [Toml.isSound] at hsound
  exact if_pos hsound

theorem ofFields?_eq (root : Fields) (h : Toml.fieldsSound (others root) = true) :
    ofFields? root =
      ((Toml.find? "regulator" root).elim (some {}) regulator?).bind fun r =>
        ((Toml.find? "loop" root).elim (some {}) loop?).bind fun l => some ⟨r, l⟩ := by
  unfold ofFields?
  rw [h]
  cases Toml.find? "regulator" root <;> cases Toml.find? "loop" root <;> rfl

namespace Assigns

theorem regulator_eq (h : Assigns root regulator loop o) :
    (Toml.find? "regulator" root).elim (some {}) regulator? = some (o.on {}).regulator := by
  have hread := h.ofKeys?_regulator
  refine h.hasRegulator.elim (fun hempty => ?_) fun origin hfind => ?_
  · rw [hempty, ofKeys?_nil] at hread
    exact (Option.some.inj hread).symm
  · rw [regulator?, keyValues?_table h.sound hfind]
    exact hread

theorem loop_eq (h : Assigns root regulator loop o) :
    (Toml.find? "loop" root).elim (some {}) loop? = some (o.on {}).loop := by
  have hread := h.ofKeys?_loop
  refine h.hasLoop.elim (fun hempty => ?_) fun origin hfind => ?_
  · rw [hempty, ofKeys?_nil] at hread
    exact (Option.some.inj hread).symm
  · rw [loop?, keyValues?_table h.sound hfind]
    exact hread

theorem ofFields?_eq_some (h : Assigns root regulator loop o) : ofFields? root = some (o.on {}) := by
  have hothers : Toml.fieldsSound (others root) = true :=
    Toml.fieldsSound_iff.2 fun f hf =>
      Toml.fieldsSound_iff.1 h.sound f (List.mem_filter.1 hf).1
  rw [ofFields?_eq root hothers, h.regulator_eq, Option.bind_some, h.loop_eq]
  rfl

theorem ofText_eq (h : Assigns root regulator loop o) {text : String}
    (hroot : Toml.ofChars? text.toList = some root) : ofText text = .ok (o.on {}) := by
  rw [ofText, ofText?, ofChars?, hroot, Option.bind_eq_bind, Option.bind_some, h.ofFields?_eq_some]

end Assigns

end SettingsFile

/-! ## The settings of a controller -/

/-- What the values of the section have to be for a controller. -/
structure RegulatorSection.Rules (s : RegulatorSection) : Prop where
  finite : ∀ p, (s.values p).isFinite = true
  minimum_lt : s.values .minimumVoltage < s.values .thresholdVoltage
  threshold_lt : s.values .thresholdVoltage < s.values .targetVoltage
  maxOutputCurrent_pos : 0 < s.values .maxOutputCurrent
  integralLimit_nonneg : 0 ≤ s.values .integralLimit
  deadbandCurrent_nonneg : 0 ≤ s.values .deadbandCurrent
  tickMicros_pos : 0 < s.tickMicros

namespace SettingsFile

theorem isZero_ofMicroseconds (us : UInt64) :
    (Duration.ofMicroseconds us).isZero = false ↔ 0 < us := by
  rw [Duration.isZero, beq_eq_false_iff_ne, Duration.nanoseconds_ofMicroseconds, UInt64.lt_iff_toNat_lt]
  change _ ↔ 0 < us.toNat
  omega

theorem valid_toConfig_iff (s : RegulatorSection) : s.toConfig.Valid ↔ s.Rules := by
  constructor
  · intro h
    exact ⟨fun p => s.get_toConfig p ▸ h.finite p, h.minimum_lt, h.threshold_lt,
      h.maxOutputCurrent_pos, h.integralLimit_nonneg, h.deadbandCurrent_nonneg,
      (isZero_ofMicroseconds _).1 h.tickPeriod_nonzero⟩
  · intro h
    exact ⟨fun p => (s.get_toConfig p).symm ▸ h.finite p, h.minimum_lt, h.threshold_lt,
      h.maxOutputCurrent_pos, h.integralLimit_nonneg, h.deadbandCurrent_nonneg,
      (isZero_ofMicroseconds _).2 h.tickMicros_pos⟩

theorem config_eq_ok_iff {f : SettingsFile} {c : Config} :
    f.config = .ok c ↔ f.regulator.Rules ∧ c = f.regulator.toConfig := by
  rw [← valid_toConfig_iff, ← Config.check_eq_ok_iff, config]
  cases f.regulator.toConfig.check with
  | error e =>
    refine iff_of_false (fun h => ?_) fun h => ?_
    · cases h
    · cases h.1
  | ok u =>
    constructor
    · intro h
      exact ⟨rfl, (Except.ok.inj h).symm⟩
    · rintro ⟨-, rfl⟩
      rfl

/-- **A file with some of the keys replaces exactly these.** However the text is laid out, if its
tables give values of their kind to some of the keys, it is read as the standard file with these
values; so is every document that is written entry by entry and says this. A controller gets its
settings from a file if and only if the values keep the rules, and it gets each of them from the key of
the same name, the tick period being as many microseconds as the key says. -/
theorem partial_file :
    (∀ (text : String) (root regulator loop : Fields) (o : Override),
      Toml.ofChars? text.toList = some root → Assigns root regulator loop o →
        ofText text = .ok (o.on {})) ∧
    (∀ (w : Toml.Written) (regulator loop : Fields) (o : Override),
      w.Sound → Assigns w.root regulator loop o → ofText w.text = .ok (o.on {})) ∧
    ∀ f : SettingsFile, ((∃ c, f.config = .ok c) ↔ f.regulator.Rules) ∧
      ∀ c, f.config = .ok c → (∀ p, c.get p = f.regulator.values p) ∧
        c.tickPeriod.nanoseconds = 1000 * f.regulator.tickMicros.toNat := by
  refine ⟨fun _ _ _ _ _ hroot h => h.ofText_eq hroot,
    fun w _ _ _ hw h => h.ofText_eq (Toml.Written.ofChars?_text hw), fun f => ⟨?_, fun c hc => ?_⟩⟩
  · simp only [config_eq_ok_iff, exists_and_left, exists_eq, and_true]
  · obtain ⟨-, rfl⟩ := config_eq_ok_iff.1 hc
    exact ⟨f.regulator.get_toConfig, Nat.mul_comm _ _⟩

/-- The sections are in another order than in a whole file, with things between that no file has. -/
def partialDocument : Toml.Written where
  entries := [.ofValue "revision" (.integer (3 : UInt64).toNat)]
  sections :=
    [("loop", [.ofValue "spin" (.flag true)]),
      ("bench", [.ofValue "kp" (.scalar 1.5)]),
      ("regulator", [.ofValue "tick_period_us" (.integer (10000 : UInt64).toNat),
        .ofValue "verbose" (.flag false), .ofValue "minimum_voltage" (.scalar 36)])]

def partialValues : Override where
  scalars := fun p => if p = .minimumVoltage then some 36 else none
  tickMicros := some 10000
  spin := some true

theorem sound_partialDocument : partialDocument.Sound where
  entries := List.forall_mem_singleton.2 (.ofValue (.of_all rfl rfl) (.word 3))
  names := List.forall_mem_cons.2 ⟨.of_all rfl rfl, List.forall_mem_cons.2 ⟨.of_all rfl rfl,
    List.forall_mem_singleton.2 (.of_all rfl rfl)⟩⟩
  sections := by
    refine List.forall_mem_cons.2 ⟨?_, List.forall_mem_cons.2 ⟨?_, List.forall_mem_singleton.2 ?_⟩⟩
    · exact List.forall_mem_singleton.2 (.ofValue (.of_all rfl rfl) (.flag true))
    · exact List.forall_mem_singleton.2 (.ofValue (.of_all rfl rfl) (.scalar 1.5))
    · refine List.forall_mem_cons.2 ⟨.ofValue (.of_all rfl rfl) (.word 10000), ?_⟩
      refine List.forall_mem_cons.2 ⟨.ofValue (.of_all rfl rfl) (.flag false), ?_⟩
      exact List.forall_mem_singleton.2 (.ofValue (.of_all rfl rfl) (.scalar 36))
  keys := by decide
  nodup := by decide

theorem assigns_partialDocument : Assigns partialDocument.root
    [("tick_period_us", .integer (10000 : UInt64).toNat), ("verbose", .flag false),
      ("minimum_voltage", .scalar 36)] [("spin", .flag true)] partialValues := by
  constructor
  · rfl
  · exact .inr ⟨.header, rfl⟩
  · exact .inr ⟨.header, rfl⟩
  · intro p
    cases p with
    | minimumVoltage => exact .some (.scalar 36)
    | _ => exact .none
  · exact .some (.word 10000)
  · exact .none
  · exact .none
  · exact .some (.flag true)

theorem partial_file_unordered : ofText partialDocument.text = .ok (partialValues.on {}) ∧
    ∃ c, (partialValues.on {}).config = .ok c ∧ c.minimumVoltage = 36 ∧ c.targetVoltage = 48 ∧
      c.tickPeriod.nanoseconds = 10000000 := by
  obtain ⟨-, hwritten, hconfig⟩ := partial_file
  have hrules : (partialValues.on {}).regulator.Rules :=
    ⟨fun p => by cases p <;> decide, by decide, by decide, by decide, by decide, by decide,
      by decide⟩
  obtain ⟨hvalid, hvalues⟩ := hconfig (partialValues.on {})
  obtain ⟨c, hc⟩ := hvalid.2 hrules
  exact ⟨hwritten _ _ _ _ sound_partialDocument assigns_partialDocument, c, hc,
    (hvalues c hc).1 .minimumVoltage, (hvalues c hc).1 .targetVoltage, (hvalues c hc).2⟩

end SettingsFile
end BusRegen
