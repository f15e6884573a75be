import BusRegen.Proofs.Duration
import BusRegen.Proofs.Simulator.Drive
/-!
# Runs that follow each other

A simulator is used again and again, and has whatever the runs before have left in it. What a call
does is `run` if the run is allowed, and nothing if it is refused (`Call.on_eq`); before its first
tick an allowed run has put everything back that a tick reads or changes. So two simulators of one
kind of settings cannot be told apart by a call (`Reached.run_eq`), and every call of a history does
what it would do on a new simulator, or leaves everything as it is (`runs_independent`).
-/
namespace BusRegen

namespace Simulator

/-- What is asked of a simulator in one call. -/
structure Call where
  profile : Profile
  duration : Duration

/-- What a call returns, and the simulator as the call leaves it. -/
def Call.on (k : Call) (s : Simulator) : Except RunTooLong Trace × Simulator :=
  (perform k.profile k.duration).run.run s

/-- What each of a series of calls returns, and the simulator after the last. -/
def calls (s : Simulator) : List Call → List (Except RunTooLong Trace) × Simulator
  | [] => ([], s)
  | k :: ks =>
    let later := calls (k.on s).2 ks
    ((k.on s).1 :: later.1, later.2)

/-- A call on a used simulator returns what it returns on a new one. It leaves what it leaves
there, too, unless it is refused, which leaves everything as it was. -/
structure AsNew (new used : Simulator) (k : Call) : Prop where
  returned : (k.on used).1 = (k.on new).1
  left : ∀ t, (k.on used).1 = .ok t → (k.on used).2 = (k.on new).2
  unchanged : ∀ e, (k.on used).1 = .error e → (k.on used).2 = used
  refused_iff : (∃ e, (k.on used).1 = .error e) ↔
    maxTicks < ticksFor k.duration new.regulator.period

variable {c : Config} {s s' : Simulator}

/-! ## A call and its run -/

/-- In place or not, the ticks are the same. -/
theorem record_eq (p : Profile) (dt : Float) (s : Simulator) (seen : List TracePoint) (i n : Nat) :
    (record p dt seen i n).run s =
      ((drive p dt s.regulator seen i n).1, ⟨(drive p dt s.regulator seen i n).2⟩) := by
  induction n generalizing s seen i with
  | zero => rfl
  | succ n ih => exact ih _ _ _

theorem Call.on_eq (k : Call) (s : Simulator) :
    k.on s =
      match s.run k.profile k.duration with
      | .ok (t, s') => (.ok t, s')
      | .error e => (.error e, s) := by
  obtain ⟨p, d⟩ := k
  -- The question comes first, and to ask it changes nothing.
  have hask : Call.on ⟨p, d⟩ s =
      ExceptT.run (m := StateM Simulator) (if maxTicks < ticksFor d s.regulator.period
        then throw (RunTooLong.mk d (ticksFor d s.regulator.period)) else _) s := rfl
  rw [hask]
  by_cases h : maxTicks < ticksFor d s.regulator.period
  · have hrun : s.run p d = .error ⟨d, ticksFor d s.regulator.period⟩ := if_pos h
    rw [hrun, if_pos h]
    rfl
  · have hticks := record_eq p s.regulator.period.seconds ⟨s.regulator.reset.resetTelemetry⟩ [] 0
      (ticksFor d s.regulator.period)
    rw [run_eq (Nat.not_lt.1 h), if_neg h]
    exact congrArg (fun x : List TracePoint × Simulator =>
      (Except.ok (Trace.mk Trace.currentVersion (metadata s.regulator.reset.resetTelemetry p) x.1),
        x.2)) hticks

theorem run_eq_error_iff {p : Profile} {d : Duration} :
    (∃ e, s.run p d = .error e) ↔ maxTicks < ticksFor d s.regulator.period := by
  constructor
  · rintro ⟨e, he⟩
    by_contra hle
    rw [run_eq (Nat.not_lt.1 hle)] at he
    cases he
  · intro h
    exact ⟨_, if_pos h⟩

/-! ## Simulators of the same settings -/

theorem Reached.period_eq (h : Reached c s) (h' : Reached c s') :
    s.regulator.period = s'.regulator.period :=
  TickPeriod.eq_of_duration (h.settings.2.2.trans h'.settings.2.2.symm)

/-- Nothing is left of earlier runs when the first tick is made. -/
theorem Reached.restart_eq (h : Reached c s) (h' : Reached c s') :
    s.regulator.reset.resetTelemetry = s'.regulator.reset.resetTelemetry := by
  have hconfig : s.regulator.config = s'.regulator.config :=
    h.settings.2.1.trans h'.settings.2.1.symm
  unfold Regulator.resetTelemetry Regulator.reset
  rw [hconfig, h.period_eq h']

theorem Reached.run_eq (h : Reached c s) (h' : Reached c s') (p : Profile) (d : Duration) :
    s.run p d = s'.run p d := by
  unfold run
  rw [h.period_eq h', h.restart_eq h']

theorem Reached.on (h : Reached c s) (k : Call) : Reached c (k.on s).2 := by
  rw [Call.on_eq]
  cases hrun : s.run k.profile k.duration with
  | ok x => exact h.ran hrun
  | error e => exact h

theorem Reached.asNew (h : Reached c s) (h' : Reached c s') (k : Call) : AsNew s s' k := by
  have hsame := h.run_eq h' k.profile k.duration
  refine ⟨?_, fun t ht => ?_, fun e he => ?_, ?_⟩
  · rw [Call.on_eq, Call.on_eq, hsame]
    cases s'.run k.profile k.duration with
    | ok | error => rfl
  · rw [Call.on_eq] at ht
    rw [Call.on_eq, Call.on_eq, hsame]
    cases hrun : s'.run k.profile k.duration with
    | ok x => rfl
    | error e =>
      rw [hrun] at ht
      cases ht
  · rw [Call.on_eq] at he ⊢
    cases hrun : s'.run k.profile k.duration with
    | ok x =>
      rw [hrun] at he
      cases he
    | error e => rfl
  · rw [h.period_eq h', ← run_eq_error_iff (p := k.profile), Call.on_eq]
    cases s'.run k.profile k.duration with
    | ok | error => simp

theorem Reached.calls (h : Reached c s) (ks : List Call) : Reached c (calls s ks).2 := by
  induction ks generalizing s with
  | nil => exact h
  | cons k ks ih => exact ih (h.on k)

/-- What a series of calls returns, by induction on the series: each call finds the simulator in
another state, but in one of the same settings. -/
theorem Reached.returned (h : Reached c s) (h' : Reached c s') (ks : List Call) :
    (Simulator.calls s' ks).1 = ks.map fun k => (k.on s).1 := by
  induction ks generalizing s' with
  | nil => rfl
  | cons k ks ih =>
    rw [Simulator.calls, List.map_cons, ih (h'.on k), (h.asNew h' k).returned]

/-- **Independent runs.** From valid settings a simulator can be built. After any series of calls,
refused ones among them, a call returns what it returns on the new simulator and leaves what it
leaves there; or it is refused, as it is on the new one, and leaves the simulator unchanged. -/
theorem runs_independent (c : Config) (hc : c.check = .ok ()) :
    ∃ new, create c = .ok new ∧ ∀ ks : List Call,
      (calls new ks).1 = (ks.map fun k => (k.on new).1) ∧
        ∀ k, AsNew new (calls new ks).2 k := by
  have hv : c.Valid := (Config.check_eq_ok_iff c).1 hc
  have hnew :
      create c = .ok ⟨{ config := c, period := ⟨c.tickPeriod, hv.tickPeriod_nonzero⟩ }⟩ := by
    rw [create, Regulator.create_eq hv]
    rfl
  have hreached : Reached c _ := .created hnew
  exact ⟨_, hnew, fun ks => ⟨hreached.returned hreached ks, hreached.asNew (hreached.calls ks)⟩⟩

/-- Two ticks that leave an integral, then a run of a thousand million seconds. The run is refused
and leaves the two ticks, and a further run starts anew. -/
theorem runs_independent_standard :
    ({} : Config).check = .ok () ∧ ∃ new, create {} = .ok new ∧
      let short : Call := ⟨.constant 46, ⟨2000000, by decide⟩⟩
      let long : Call := ⟨.constant 46, ⟨10 ^ 18, by decide⟩⟩
      let used := (calls new [short, long]).2
      used.regulator.telemetry.ticks = 2 ∧ used.regulator.pid.isZero = false ∧
        (∃ e, (long.on used).1 = .error e) ∧ (long.on used).2 = used ∧
        (short.on used).1 = (short.on new).1 := by
  obtain ⟨new, hnew, hall⟩ := runs_independent {} rfl
  refine ⟨rfl, new, hnew, ?_⟩
  intro short long used
  have hshort : AsNew new used short := (hall _).2 _
  have hlong : AsNew new used long := (hall _).2 _
  cases hnew
  obtain ⟨e, he⟩ := hlong.refused_iff.2 (by decide +kernel)
  exact ⟨by decide +kernel, by decide +kernel, ⟨e, he⟩, hlong.unchanged e he, hshort.returned⟩

end Simulator
end BusRegen
