import BusRegen.Proofs.Loop.History
import BusRegen.Proofs.Regulator.OutputRange
/-!
# The published output current

The status of a runner shows the output of the last tick, or zero once the motor was released. What
is so for zero and for the output of every tick is therefore so for the published output, at every
point of every history (`Shows.run`). No promise of the stage is needed: where a call crashes, the
status keeps what it has shown before.

With the range of the outputs this is `output_reported`. The reported current is from zero to the
greatest current, except after a tick whose raw output is no number, of which there are none under
calm settings. `output_missing` is such a tick: the proportional term of a drop by three volts is an
infinity under a gain that is not calm, and so is the derivative, with the other sign, when the
voltage rises again.
-/
namespace BusRegen

namespace Regulator

variable {G : Regulator → Prop} {P : Float → Prop}

/-- A regulator of `G` whose last output current is one of `P`. -/
structure Shows (G : Regulator → Prop) (P : Float → Prop) (g : Regulator) : Prop where
  keeps : G g
  last : ∀ o, g.last = some o → P o.current

theorem Shows.perform (perform : ∀ g op, G g → G (g.perform op))
    (tick : ∀ g v dt, G g → P (g.tick v dt).1.current) (g : Regulator) (op : Operation)
    (h : g.Shows G P) : (g.perform op).Shows G P := by
  refine ⟨perform g op h.keeps, ?_⟩
  cases op with
  | tick v dt =>
    intro o ho
    cases ho
    exact tick g v dt h.keeps
  | reset => intro o ho; cases ho
  | resetTelemetry => exact h.last

theorem Shows.ofRegulator {g : Regulator} (h : g.Shows G P) (zero : P 0) :
    P (Status.ofRegulator g).outputCurrent := by
  have hlast := h.last
  unfold Status.ofRegulator
  cases hl : g.last with
  | none => exact zero
  | some o => exact hlast o hl

end Regulator

namespace Runner

variable {σ ι : Type} {G : Regulator → Prop} {P : Float → Prop}

/-- A runner with such a regulator whose published output current is one of `P`. -/
structure Shows (G : Regulator → Prop) (P : Float → Prop) (r : Runner σ) : Prop where
  regulator : r.regulator.Shows G P
  status : P r.status.outputCurrent

variable [PowerStage σ] {r r' : Runner σ}

theorem Shows.halt (h : r.Shows G P) (zero : P 0) : r.halt.Shows G P := by
  unfold Runner.halt
  dsimp only
  split
  · exact ⟨h.regulator, h.status⟩
  · exact ⟨h.regulator, zero⟩

theorem Shows.finish (h : r.Shows G P) (zero : P 0) : r.finish.Shows G P :=
  ⟨(h.halt zero).regulator, (h.halt zero).status⟩

theorem Shows.complete (h : r.Shows G P) (zero : P 0) : r.complete.Shows G P := by
  rcases complete_cases r with hc | hc
  · rw [hc]
    exact h.finish zero
  · rw [hc]
    exact (h.halt zero).finish zero

variable [Settable σ ι] {e : Event ι}

theorem Shows.next (zero : P 0)
    (perform : ∀ (g : Regulator) op, g.Shows G P → (g.perform op).Shows G P) (h : r.Shows G P)
    (w : r.Happens e r') : r'.Shows G P := by
  have hstep := Regulator.use_induction perform h.regulator (.step r.stage r.period)
  rw [Regulator.use] at hstep
  cases w with
  | refused | idled | dismissed | set => exact ⟨h.regulator, h.status⟩
  | begun | unspawned =>
    have hreset := perform _ .reset h.regulator
    exact ⟨hreset, hreset.ofRegulator zero⟩
  | stopped => exact ⟨(h.finish zero).regulator, (h.finish zero).status⟩
  | cleared =>
    have hreset := perform _ .resetTelemetry h.regulator
    exact ⟨hreset, hreset.ofRegulator zero⟩
  | ticked run step =>
    rw [step] at hstep
    exact ⟨hstep, hstep.ofRegulator zero⟩
  | completed run step =>
    rw [step] at hstep
    exact Shows.complete ⟨hstep, hstep.ofRegulator zero⟩ zero
  | crashed run step =>
    rw [step] at hstep
    exact Shows.finish ⟨hstep, h.status⟩ zero

theorem Shows.run (zero : P 0)
    (perform : ∀ (g : Regulator) op, g.Shows G P → (g.perform op).Shows G P) (hc : r.Coherent)
    (h : r.Shows G P) (es : List (Event ι)) : (r.run es).Shows G P := by
  induction es generalizing r with
  | nil => exact h
  | cons e es ih =>
    have hw := happens hc e
    exact ih (hw.coherent hc) (h.next zero perform hw)

/-- What every tick of a regulator of these settings reports is what a runner of them publishes. -/
theorem published {c : Config} {l : LoopSettings} {s : σ} (h : create c l s = .ok r)
    {Q : Pid → Prop} (hQ : Regulator.PidInvariant c Q) (zero : P 0)
    (tick : ∀ (g : Regulator) v dt, g.Keeps c Q → P (g.tick v dt).1.current)
    (es : List (Event ι)) : P (r.run es).status.outputCurrent := by
  have hc : r.Coherent := coherent_of_create h
  obtain ⟨g, limit, hg, -, -, rfl⟩ := create_eq_ok h
  have hkeeps := Regulator.keeps_of_create hQ hg
  have hlast : g.last = none := by
    obtain ⟨-, rfl⟩ := Regulator.valid_of_create hg
    rfl
  have hshows : g.Shows (Regulator.Keeps c Q) P :=
    ⟨hkeeps, fun o ho => by rw [hlast] at ho; cases ho⟩
  have hperform := Regulator.Shows.perform (Regulator.Keeps.perform hQ) tick
  exact (Shows.run zero hperform hc ⟨hshows, zero⟩ es).status

/-- **The reported output current.** Whatever a regulator with valid settings has been through, the
output of a tick is from zero to the greatest current if the raw output is a number, and no number
otherwise; and so is the output that a runner publishes. Under calm settings it is always in
range. -/
theorem output_reported (c : Config) (hc : c.check = .ok ()) :
    (∃ g, Regulator.create c = .ok g ∧ ∀ (us : List (Regulator.Use σ)) v dt,
      Regulator.Reported c ((g.after us).tick v dt).1 ∧
        (c.Calm → c.Allows ((g.after us).tick v dt).1.current)) ∧
    ∀ l s (r : Runner σ), create c l s = .ok r → ∀ es : List (Event ι),
      ((r.run es).status.outputCurrent.isNaN = true ∨ c.Allows (r.run es).status.outputCurrent) ∧
        (c.Calm → c.Allows (r.run es).status.outputCurrent) := by
  have hv : c.Valid := (Config.check_eq_ok_iff c).1 hc
  have hinv := Regulator.tempered_invariant hv
  have hreport (g : Regulator) (v dt) (hg : g.Keeps c (Pid.Tempered c)) :
      Regulator.Reported c (g.tick v dt).1 ∧ (c.Calm → c.Allows (g.tick v dt).1.current) := by
    have hrep := hg.config ▸ Regulator.reported_tick (hg.config.symm ▸ hv) v dt
    exact ⟨hrep, fun hcalm => hrep.allowed (Regulator.isNaN_raw_tick hg hv hcalm v dt)⟩
  constructor
  · have hnew := Regulator.create_eq hv
    refine ⟨_, hnew, fun us v dt => hreport _ v dt ?_⟩
    exact Regulator.after_induction (Regulator.Keeps.perform hinv)
      (Regulator.keeps_of_create hinv hnew) us
  · intro l s r hr es
    constructor
    · refine published (P := fun x => x.isNaN = true ∨ c.Allows x) hr hinv (.inr hv.allows_zero)
        (fun g v dt hg => ?_) es
      have hrep := (hreport g v dt hg).1
      cases hraw : (g.tick v dt).1.terms.raw.isNaN with
      | true => exact .inl (hrep.missing hraw).1
      | false => exact .inr (hrep.allowed hraw)
    · intro hcalm
      exact published hr hinv hv.allows_zero (fun g v dt hg => (hreport g v dt hg).2 hcalm) es

/-- A run over one regulating tick with the default settings, which are calm. -/
theorem output_reported_standard :
    (({} : Config).check = .ok () ∧ ({} : Config).Calm) ∧
      ∃ r : Runner ScriptedStage, create {} {} { inputVoltage := 46 } = .ok r ∧
        ({} : Config).Allows (r.run [.start, .tick]).status.outputCurrent := by
  have hc : ({} : Config).check = .ok () := rfl
  have hcalm : ({} : Config).Calm := by decide +kernel
  obtain ⟨-, hruns⟩ := output_reported (σ := ScriptedStage) {} hc
  obtain ⟨r, hr⟩ : ∃ r, create {} {} ({ inputVoltage := 46 } : ScriptedStage) = .ok r := ⟨_, rfl⟩
  exact ⟨⟨hc, hcalm⟩, r, hr, (hruns {} _ r hr [.start, .tick]).2 hcalm⟩

/-- Two readings in the regulating zone under gains of 2 ^ 1023, which are valid but not calm. The
proportional term of the second is an infinity and so is the derivative, with the other sign. -/
theorem output_missing :
    let gain : Float := Float.ofBits 0x7fe0000000000000
    let c : Config := { gains := { kp := gain, kd := gain } }
    c.check = .ok () ∧
    (∃ g, Regulator.create c = .ok g ∧
      let o := ((g.tick 45.25 g.period).2.tick 46 g.period).1
      o.current.isNaN = true ∧ ¬ c.Allows o.current) ∧
    ∃ r : Runner ScriptedStage, create c {} { script := [45.25, 46] } = .ok r ∧
      let current := (r.run [.start, .tick, .tick]).status.outputCurrent
      current.isNaN = true ∧ ¬ c.Allows current := by
  refine ⟨rfl, ⟨_, rfl, ?_⟩, _, rfl, ?_⟩
  · intro o
    have hnan : o.current.isNaN = true := by decide +kernel
    exact ⟨hnan, Config.not_allows hnan⟩
  · intro current
    have hnan : current.isNaN = true := by decide +kernel
    exact ⟨hnan, Config.not_allows hnan⟩

end Runner
end BusRegen
