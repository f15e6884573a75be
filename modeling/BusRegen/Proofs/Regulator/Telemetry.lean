import BusRegen.Proofs.Regulator.Memory
import BusRegen.Proofs.Regulator.OutputRange
import BusRegen.Proofs.Scalar.Signs
/-!
# What the telemetry counts

The telemetry is a fold over the ticks since it was last cleared, whatever else was done with the
regulator in between. `Account` says what the fold comes to: the number of these ticks, the largest
of their outputs and the energy of those that commanded a current, added up from first to last.
Every operation keeps it so (`Account.perform`). An output that is no number counts as a tick and
nothing else. If the minimum voltage is not below zero a tick recovers energy or none, so that
nothing in the telemetry becomes less before it is cleared (`grows_perform`).

Nothing else depends on the telemetry. Regulators that differ in it at most answer in the same way,
also if the telemetry of one of them is cleared on the way (`Twins.trail`).
-/
namespace BusRegen

open Scalar

/-! ## The largest of some outputs -/

/-- `m` is the largest of the numbers in `xs`, and zero if there are none. -/
structure IsLargest (xs : List Float) (m : Float) : Prop where
  nonneg : 0 ≤ m
  upper : ∀ x ∈ xs, x.isNaN = false → x ≤ m
  attained : (∃ x ∈ xs, x == m) ∨ (∀ x ∈ xs, x.isNaN = true) ∧ m = 0

theorem isLargest_nil : IsLargest [] 0 :=
  ⟨by decide, fun x hx => absurd hx List.not_mem_nil,
    .inr ⟨fun x hx => absurd hx List.not_mem_nil, rfl⟩⟩

section
variable {xs : List Float} {m x : Float}

theorem IsLargest.exceeded (h : IsLargest xs m) (hlt : m < x) : IsLargest (xs ++ [x]) x := by
  have hnum := ((lt_iff m x).1 hlt).2.1
  have hself : x == x := (beq_iff x x).2 ⟨hnum, hnum, rfl⟩
  refine ⟨le_trans h.nonneg (le_of_lt hlt), ?_, .inl ⟨x, by simp, hself⟩⟩
  simp only [List.mem_append, List.mem_singleton]
  rintro y (hy | rfl) hynum
  · exact le_trans (h.upper y hy hynum) (le_of_lt hlt)
  · exact le_refl hnum

/-- The first number is the largest even if it is not above the zero that stands for none. -/
theorem IsLargest.kept (h : IsLargest xs m) (hlt : ¬ m < x) (hx : x.isNaN = false → 0 ≤ x) :
    IsLargest (xs ++ [x]) m := by
  have hle (hnum : x.isNaN = false) : x ≤ m := (not_lt_iff (isNaN_of_le h.nonneg).2 hnum).1 hlt
  refine ⟨h.nonneg, ?_, ?_⟩
  · simp only [List.mem_append, List.mem_singleton]
    rintro y (hy | rfl) hynum
    · exact h.upper y hy hynum
    · exact hle hynum
  · rcases h.attained with ⟨y, hy, heq⟩ | ⟨hnan, rfl⟩
    · exact .inl ⟨y, List.mem_append_left _ hy, heq⟩
    · cases hnum : x.isNaN with
      | true =>
        refine .inr ⟨fun y hy => ?_, rfl⟩
        rcases List.mem_append.1 hy with hy | hy
        · exact hnan y hy
        · rwa [List.mem_singleton.1 hy]
      | false =>
        have hrank := ((le_iff x 0).1 (hle hnum)).2.2.antisymm ((le_iff 0 x).1 (hx hnum)).2.2
        exact .inl ⟨x, by simp, (beq_iff x 0).2 ⟨hnum, isNaN_zero, hrank⟩⟩

/-- One more output, which is not below zero if it is a number. -/
theorem IsLargest.concat (h : IsLargest xs m) (hx : x.isNaN = false → 0 ≤ x) :
    IsLargest (xs ++ [x]) (if m < x then x else m) := by
  split
  · next hlt => exact h.exceeded hlt
  · next hlt => exact h.kept hlt hx

end

/-! ## The energy of a tick -/

theorem hasValue_hour : HasValue 3600 3600 :=
  hasValue_of_kind (m := 7916483719987200) (e := -41) (by decide) (by norm_num) (by norm_num)

/-- A current at a positive voltage does not cost energy. -/
theorem Telemetry.energyOf_nonneg {current voltage dt : Float} {a b : ℚ} (hcurrent : 0 ≤ current)
    (hvoltage : HasValue voltage a) (hdt : HasValue dt b) : 0 ≤ energyOf current voltage dt :=
  Scalar.div_nonneg (zero_le_mul (zero_le_mul hcurrent hvoltage) hdt) hasValue_hour

namespace Regulator

/-! ## The ticks of a history -/

/-- A tick that was made. -/
structure Tick where
  dt : TickPeriod
  output : Output

namespace Tick

def applied (t : Tick) : Bool := !t.output.command.isRelease

/-- The energy in Wh of the commanded current. -/
def energy (t : Tick) : Float :=
  Telemetry.energyOf t.output.appliedCurrent t.output.voltage t.dt.seconds

end Tick

/-- The ticks since the telemetry was last cleared, if there were `ts` before an operation. -/
def enter (r : Regulator) (ts : List Tick) : Operation → List Tick
  | .tick v dt => ts ++ [⟨dt, (r.tick v dt).1⟩]
  | .reset => ts
  | .resetTelemetry => []

/-- The ticks since the telemetry was last cleared, if there were `ts` before a history. -/
def counted (r : Regulator) (ts : List Tick) : List Operation → List Tick
  | [] => ts
  | op :: ops => (r.perform op).counted (r.enter ts op) ops

/-- The energy of the ticks that commanded a current, from first to last. -/
def recovered (ts : List Tick) : Float :=
  ((ts.filter (·.applied)).map (·.energy)).foldl (· + ·) 0

/-- What a telemetry shows after some ticks. -/
structure Account (ts : List Tick) (t : Telemetry) : Prop where
  ticks : t.ticks = ts.length
  maxCurrent : IsLargest (ts.map (·.output.current)) t.maxCurrent
  energy : t.energy = recovered ts

theorem account_nil : Account [] .zero := ⟨rfl, isLargest_nil, rfl⟩

variable {c : Config} {r r' : Regulator}

theorem current_tick_nonneg (h : r.config.Valid) (v : Float) (dt : TickPeriod)
    (hnum : (r.tick v dt).1.current.isNaN = false) : 0 ≤ (r.tick v dt).1.current := by
  have hreported := reported_tick h v dt
  cases hraw : (r.tick v dt).1.terms.raw.isNaN with
  | false => exact (hreported.allowed hraw).1
  | true => exact Bool.noConfusion (hnum.symm.trans (hreported.missing hraw).1)

theorem recovered_concat (ts : List Tick) (t : Tick) :
    recovered (ts ++ [t]) = if t.applied then recovered ts + t.energy else recovered ts := by
  unfold recovered
  rw [List.filter_append, List.map_append, List.foldl_append]
  cases ht : t.applied <;> simp [ht]

theorem Account.tick {ts : List Tick} (h : Account ts r.telemetry) (hc : r.config.Valid)
    (v : Float) (dt : TickPeriod) :
    Account (ts ++ [⟨dt, (r.tick v dt).1⟩]) (r.tick v dt).2.telemetry := by
  have hcases := tick_cases hc v dt
  have hnonneg := current_tick_nonneg hc v dt
  have hvolt := voltage_tick r v dt
  rw [telemetry_tick]
  generalize (r.tick v dt).1 = o at *
  refine ⟨?_, ?_, ?_⟩
  · rw [List.length_append, ← h.ticks]
    rfl
  · rw [List.map_append]
    exact h.maxCurrent.concat hnonneg
  · rw [recovered_concat, ← h.energy, Tick.energy, hvolt]
    rcases hcases with ⟨-, happ, hrel⟩ | ⟨-, -, hrel⟩
    · simp only [Telemetry.record, Tick.applied, hrel, happ, Bool.not_false, if_true]
    · simp only [Telemetry.record, Tick.applied, hrel, Bool.not_true, Bool.false_eq_true, if_false]

theorem Account.perform {ts : List Tick} (h : Account ts r.telemetry) (hc : r.config.Valid)
    (op : Operation) : Account (r.enter ts op) (r.perform op).telemetry := by
  cases op with
  | tick v dt => exact h.tick hc v dt
  | reset => exact h
  | resetTelemetry => exact account_nil

theorem Account.run {ts : List Tick} (h : Account ts r.telemetry) (hc : r.config.Valid)
    (ops : List Operation) : Account (r.counted ts ops) (r.run ops).telemetry := by
  induction ops generalizing r ts with
  | nil => exact h
  | cons op ops ih => exact ih (h.perform hc op) (by rwa [config_perform])

/-! ## Nothing becomes less -/

/-- The second telemetry shows no less than the first. The energies are compared under settings with
a minimum voltage that is not below zero. -/
structure Grows (c : Config) (t t' : Telemetry) : Prop where
  ticks : t.ticks ≤ t'.ticks
  maxCurrent : t.maxCurrent ≤ t'.maxCurrent
  energy : 0 ≤ c.minimumVoltage → t.energy ≤ t'.energy

theorem Grows.trans {t t' t'' : Telemetry} (h : Grows c t t') (h' : Grows c t' t'') :
    Grows c t t'' where
  ticks := h.ticks.trans h'.ticks
  maxCurrent := Scalar.le_trans h.maxCurrent h'.maxCurrent
  energy hmin := Scalar.le_trans (h.energy hmin) (h'.energy hmin)

theorem grows_zero (c : Config) : Grows c .zero .zero :=
  ⟨Nat.le_refl 0, by decide, fun _ => by decide⟩

/-- What has grown from zero holds numbers only. -/
theorem Grows.refl_of_zero {t : Telemetry} (h : Grows c .zero t) : Grows c t t where
  ticks := Nat.le_refl _
  maxCurrent := Scalar.le_refl (isNaN_of_le h.maxCurrent).2
  energy hmin := Scalar.le_refl (isNaN_of_le (h.energy hmin)).2

/-- The energy of a tick that commands a current is not below zero. -/
theorem energyOf_tick_nonneg (h : r.config.Valid) (hmin : 0 ≤ r.config.minimumVoltage) {v : Float}
    {dt : TickPeriod} (happ : (r.tick v dt).1.command.isRelease = false) :
    0 ≤ Telemetry.energyOf (r.tick v dt).1.current v dt.seconds := by
  have hcurrent : 0 ≤ (r.tick v dt).1.current := by
    rcases tick_cases h v dt with ⟨hdead, -, -⟩ | ⟨-, -, hrel⟩
    · exact le_of_lt (lt_of_le_of_lt h.deadbandCurrent_nonneg hdead)
    · exact Bool.noConfusion (happ.symm.trans hrel)
  obtain ⟨hfin, hlt, -⟩ :=
    (Zone.classify_eq_regulating_iff h v).1 (regulating_of_applied happ)
  obtain ⟨q, -, hdt⟩ := dt.hasValue
  exact Telemetry.energyOf_nonneg hcurrent (hasValue_value hfin (lt_of_le_of_lt hmin hlt)) hdt

theorem Grows.tick (hr : Grows r.config .zero r.telemetry) (h : r.config.Valid) (v : Float)
    (dt : TickPeriod) : Grows r.config r.telemetry (r.tick v dt).2.telemetry := by
  rw [telemetry_tick]
  refine ⟨Nat.le_succ _, ?_, fun hmin => ?_⟩
  · change _ ≤ if r.telemetry.maxCurrent < _ then _ else _
    split
    · next hlt => exact le_of_lt hlt
    · exact hr.refl_of_zero.maxCurrent
  · cases hrel : (r.tick v dt).1.command.isRelease with
    | true => exact hr.refl_of_zero.energy hmin
    | false =>
      have hgain := energyOf_tick_nonneg h hmin hrel
      exact le_add hgain (isNaN_of_le (zero_le_add (hr.energy hmin) hgain)).2

theorem grows_perform (hr : Grows r.config .zero r.telemetry) (h : r.config.Valid)
    {op : Operation} (hop : op ≠ .resetTelemetry) :
    Grows r.config r.telemetry (r.perform op).telemetry := by
  cases op with
  | tick v dt => exact hr.tick h v dt
  | reset => exact hr.refl_of_zero
  | resetTelemetry => exact absurd rfl hop

theorem grows_run (hr : Grows r.config .zero r.telemetry) (h : r.config.Valid)
    {ops : List Operation} (hops : .resetTelemetry ∉ ops) :
    Grows r.config r.telemetry (r.run ops).telemetry := by
  induction ops generalizing r with
  | nil => exact hr.refl_of_zero
  | cons op ops ih =>
    rw [List.mem_cons, not_or] at hops
    have hstep := grows_perform hr h (Ne.symm hops.1)
    rw [← config_perform r op] at hr hstep h ⊢
    exact hstep.trans (ih (hr.trans hstep) h hops.2)

/-- Every telemetry has grown since it was cleared. -/
theorem grows_of_zero (hr : Grows r.config .zero r.telemetry) (h : r.config.Valid)
    (ops : List Operation) : Grows r.config .zero (r.run ops).telemetry := by
  refine (run_induction (P := fun s => s.config = r.config ∧ Grows r.config .zero s.telemetry)
    ⟨rfl, hr⟩ (fun s op => ?_) ops).2
  rintro ⟨hconfig, hs⟩
  refine ⟨(config_perform s op).trans hconfig, ?_⟩
  by_cases hop : op = .resetTelemetry
  · subst hop
    exact grows_zero _
  · rw [← hconfig] at hs h ⊢
    exact hs.trans (grows_perform hs h hop)

/-! ## Nothing depends on it -/

/-- Whether an operation leaves the telemetry to itself. -/
def Operation.keepsTelemetry : Operation → Bool
  | .tick _ _ | .reset => true
  | .resetTelemetry => false

/-- What can be seen of a history: the output of each tick, and the PID memory after each tick and
each reset. -/
def trail (r : Regulator) : List Operation → List (Option Output × Pid)
  | [] => []
  | .tick v dt :: ops =>
    let t := r.tick v dt
    (some t.1, t.2.pid) :: t.2.trail ops
  | .reset :: ops => (none, r.reset.pid) :: r.reset.trail ops
  | .resetTelemetry :: ops => r.resetTelemetry.trail ops

theorem Twins.symm (h : Twins r r') : Twins r' r := ⟨h.toAlike.symm, h.last.symm⟩

theorem Twins.trans {r'' : Regulator} (h : Twins r r') (h' : Twins r' r'') : Twins r r'' :=
  ⟨h.toAlike.trans h'.toAlike, h.last.trans h'.last⟩

/-- A history looks the same on twins, and without the calls that clear the telemetry. -/
theorem Twins.trail (h : Twins r r') (ops : List Operation) :
    r.trail ops = r'.trail (ops.filter (·.keepsTelemetry)) ∧
      Twins (r.run ops) (r'.run (ops.filter (·.keepsTelemetry))) := by
  induction ops generalizing r r' with
  | nil => exact ⟨rfl, h⟩
  | cons op ops ih =>
    cases op with
    | tick v dt =>
      obtain ⟨hout, htwins⟩ := h.toAlike.tick v dt
      obtain ⟨htrail, hrun⟩ := ih htwins
      refine ⟨?_, hrun⟩
      change (_, _) :: _ = (_, _) :: _
      rw [hout, htwins.pid, htrail]
    | reset =>
      obtain ⟨htrail, hrun⟩ := ih (twins_reset h.config h.period)
      exact ⟨congrArg (_ :: ·) htrail, hrun⟩
    | resetTelemetry => exact ih (r := r.resetTelemetry) ⟨⟨h.config, h.period, h.pid⟩, h.last⟩

/-- Two histories that differ in such calls only. -/
theorem trail_congr (r : Regulator) {ops ops' : List Operation}
    (h : ops.filter (·.keepsTelemetry) = ops'.filter (·.keepsTelemetry)) :
    r.trail ops = r.trail ops' ∧ Twins (r.run ops) (r.run ops') := by
  have hself : Twins r r := ⟨⟨rfl, rfl, rfl⟩, rfl⟩
  obtain ⟨htrail, hrun⟩ := hself.trail ops
  obtain ⟨htrail', hrun'⟩ := hself.trail ops'
  rw [h] at htrail hrun
  exact ⟨htrail.trans htrail'.symm, hrun.trans hrun'.symm⟩

/-- **The telemetry is a fold of the run and nothing else reads it.** A regulator of valid settings
gives an answer in every history. Its telemetry is the account of the ticks since it was last
cleared; a reset leaves it as it is, and nothing in it becomes less before it is cleared again, the
energy if the minimum voltage is not below zero. Histories that differ in where the telemetry is
cleared have the same outputs, the same commands and the same PID memory throughout. -/
theorem telemetry_folds (c : Config) (hc : c.check = .ok ()) :
    ∃ r, create c = .ok r ∧
      (∀ ops, r.run? ops = some (r.run ops) ∧ Account (r.counted [] ops) (r.run ops).telemetry ∧
        (r.run (ops ++ [.reset])).telemetry = (r.run ops).telemetry) ∧
      (∀ ops later, .resetTelemetry ∉ later →
        Grows c (r.run ops).telemetry (r.run (ops ++ later)).telemetry) ∧
      (∀ ops ops', ops.filter (·.keepsTelemetry) = ops'.filter (·.keepsTelemetry) →
        r.trail ops = r.trail ops' ∧ Twins (r.run ops) (r.run ops')) := by
  have hv : c.Valid := (Config.check_eq_ok_iff c).1 hc
  refine ⟨_, create_eq hv, ?_⟩
  generalize hr : Regulator.mk c _ _ _ _ = r
  have hstart : Account [] r.telemetry ∧ Grows r.config .zero r.telemetry := by
    rw [← hr]
    exact ⟨account_nil, grows_zero c⟩
  obtain rfl : c = r.config := by rw [← hr]
  refine ⟨fun ops => ⟨run?_eq hv ops, hstart.1.run hv ops, ?_⟩, fun ops later hlater => ?_,
    fun ops ops' h => trail_congr r h⟩
  · rw [run, List.foldl_append]
    rfl
  · have hgrown := grows_of_zero hstart.2 hv ops
    have happend : r.run (ops ++ later) = (r.run ops).run later := List.foldl_append
    rw [← config_run r ops] at hgrown hv ⊢
    rw [happend]
    exact grows_run hgrown hv hlater

/-- A drop before the telemetry is cleared, and after it a reading that is no number and a drop
again. -/
theorem telemetry_folds_standard :
    ∃ r, create {} = .ok r ∧
      let drop : Operation := .tick 46.0 r.period
      let before := [drop, .resetTelemetry, .tick Scalar.nan r.period]
      (r.counted [] before).length = 1 ∧ Account (r.counted [] before) (r.run before).telemetry ∧
        (r.run before).telemetry.energy ≤ (r.run (before ++ [.reset, drop])).telemetry.energy ∧
        r.trail before = r.trail [drop, .tick Scalar.nan r.period] := by
  obtain ⟨r, hr, hfold, hgrows, hsame⟩ := telemetry_folds {} rfl
  cases hr
  refine ⟨_, rfl, rfl, (hfold _).2.1, (hgrows _ _ ?_).energy (by decide), (hsame _ _ rfl).1⟩
  simp

end Regulator
end BusRegen
