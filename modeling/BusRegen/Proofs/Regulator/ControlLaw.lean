import Mathlib.Algebra.Order.Field.Rat
/-!
# The control law over other numbers

A tick of the control law in the regulating zone is a formula: the integral takes in the error and
is limited, the three terms are added up, and the sum is limited. `ControlLaw` is that formula over
any type with the operations and comparisons of scalars, some of whose values may be no numbers.

`Rounds` is all that is asked of the arithmetic for the law to be monotone: an operation on greater
operands has no lower result, as it is where every result is the exact one rounded by a monotone
rounding (`Rounded.rounds`; with the rounding that changes nothing these are the rational numbers).
If the law is then held at two voltages from one memory on, the lower voltage never has the lower
integral, nor the lower output (`held_mono`). For one tick the derivative is what the two errors are
in relation to their last ones (`Below`): at first these are the same, and after that each error is
compared with itself.
-/
namespace BusRegen

/-- A value is a number if it can be compared with itself. -/
def IsNumber {α : Type} [LE α] (x : α) : Prop := x ≤ x

/-- The gains, the period of the ticks, the target and the limits of the control law. -/
structure ControlLaw (α : Type) where
  kp : α
  ki : α
  kd : α
  dt : α
  target : α
  integralLimit : α
  least : α
  greatest : α

namespace ControlLaw

/-- What the law keeps from one tick to the next. -/
structure Memory (α : Type) where
  accumulator : α
  previousError : α

variable {α : Type} [Add α] [Sub α] [Mul α] [Div α] [Neg α] [LE α] [LT α] [DecidableLT α]

def clamp (low high x : α) : α :=
  let y := if x < low then low else x
  if high < y then high else y

variable (l : ControlLaw α) (s : Memory α) (v : α)

def error : α := l.target - v

def accumulate : α :=
  clamp (-l.integralLimit) l.integralLimit (s.accumulator + l.error v * l.dt)

def raw : α :=
  l.kp * l.error v + l.ki * l.accumulate s v + l.kd * (l.error v - s.previousError) / l.dt

def output : α := clamp l.least l.greatest (l.raw s v)

def tick : Memory α := { accumulator := l.accumulate s v, previousError := l.error v }

/-- The memory after some ticks at one voltage. -/
def held : Nat → Memory α
  | 0 => s
  | n + 1 => l.tick (held n) v

end ControlLaw

section
variable (α : Type) [Add α] [Sub α] [Mul α] [Div α] [LE α] [LT α]

/-- Every operation grows with its operands as the exact one does, wherever its results are numbers,
and no operation makes a number of what is none. The values of `gain` stand for those that are not
negative, the values of `period` for the positive ones. -/
structure Rounds (gain period : α → Prop) : Prop where
  le_trans : ∀ {x y z : α}, x ≤ y → y ≤ z → x ≤ z
  number_of_le : ∀ {x y : α}, x ≤ y → IsNumber x ∧ IsNumber y
  lt_iff : ∀ {x y : α}, x < y ↔ IsNumber x ∧ IsNumber y ∧ ¬ y ≤ x
  number_of_add : ∀ {x y : α}, IsNumber (x + y) → IsNumber x ∧ IsNumber y
  number_of_sub : ∀ {x y : α}, IsNumber (x - y) → IsNumber x ∧ IsNumber y
  number_of_mul : ∀ {x y : α}, IsNumber (x * y) → IsNumber x ∧ IsNumber y
  number_of_div : ∀ {x y : α}, IsNumber (x / y) → IsNumber x ∧ IsNumber y
  add_mono : ∀ {x x' y y' : α}, x ≤ x' → y ≤ y' → IsNumber (x + y) → IsNumber (x' + y') →
    x + y ≤ x' + y'
  sub_mono : ∀ {x x' y y' : α}, x ≤ x' → y' ≤ y → IsNumber (x - y) → IsNumber (x' - y') →
    x - y ≤ x' - y'
  sub_self_le : ∀ {x y : α}, IsNumber (x - x) → IsNumber (y - y) → x - x ≤ y - y
  mul_mono_left : ∀ {k x y : α}, gain k → x ≤ y → IsNumber (k * x) → IsNumber (k * y) →
    k * x ≤ k * y
  mul_mono_right : ∀ {d x y : α}, period d → x ≤ y → IsNumber (x * d) → IsNumber (y * d) →
    x * d ≤ y * d
  div_mono : ∀ {d x y : α}, period d → x ≤ y → IsNumber (x / d) → IsNumber (y / d) → x / d ≤ y / d

end

namespace ControlLaw

section
variable {α : Type} [Add α] [Sub α] [Mul α] [Div α] [LE α] [LT α] [DecidableLT α]
  {gain period : α → Prop}

/-! ## Limits -/

theorem number_of_clamp (h : Rounds α gain period) {low high x : α}
    (hx : IsNumber (clamp low high x)) : IsNumber x := by
  by_contra hnot
  have hlow : ¬ x < low := fun hlt => hnot (h.lt_iff.1 hlt).1
  have hhigh : ¬ high < x := fun hlt => hnot (h.lt_iff.1 hlt).2.1
  rw [clamp, if_neg hlow, if_neg hhigh] at hx
  exact hnot hx

theorem clamp_mono (h : Rounds α gain period) {low high x x' : α} (hb : low ≤ high)
    (hx : x ≤ x') : clamp low high x ≤ clamp low high x' := by
  obtain ⟨hnl, hnh⟩ := h.number_of_le hb
  obtain ⟨hnx, hnx'⟩ := h.number_of_le hx
  have le_of_not_lt {a b : α} (ha : IsNumber a) (hb : IsNumber b) (hab : ¬ a < b) : b ≤ a := by
    by_contra hnot
    exact hab (h.lt_iff.2 ⟨ha, hb, hnot⟩)
  have hy : (if x < low then low else x) ≤ if x' < low then low else x' := by
    by_cases hlow : x < low
    · rw [if_pos hlow]
      split
      · exact hnl
      · next hlow' => exact le_of_not_lt hnx' hnl hlow'
    · have hle : low ≤ x' := h.le_trans (le_of_not_lt hnx hnl hlow) hx
      rw [if_neg hlow, if_neg fun hlt => (h.lt_iff.1 hlt).2.2 hle]
      exact hx
  unfold clamp
  generalize (if x < low then low else x) = y at hy
  generalize (if x' < low then low else x') = y' at hy
  obtain ⟨hny, hny'⟩ := h.number_of_le hy
  dsimp only
  by_cases hhigh : high < y'
  · rw [if_pos hhigh]
    split
    · exact hnh
    · next hhigh' => exact le_of_not_lt hnh hny hhigh'
  · have hle : y ≤ high := h.le_trans hy (le_of_not_lt hnh hny' hhigh)
    rw [if_neg hhigh, if_neg fun hlt => (h.lt_iff.1 hlt).2.2 hle]
    exact hy

/-! ## One tick -/

variable [Neg α]

/-- The gains, the period and the limits are what they have to be. -/
structure Proper (gain period : α → Prop) (l : ControlLaw α) : Prop where
  kp : gain l.kp
  ki : gain l.ki
  kd : gain l.kd
  dt : period l.dt
  integralLimit : -l.integralLimit ≤ l.integralLimit
  least : l.least ≤ l.greatest

/-- Memories of the law held at the lower voltage `v` and at `v'`. -/
structure Below (l : ControlLaw α) (v v' : α) (s s' : Memory α) : Prop where
  accumulator : s'.accumulator ≤ s.accumulator
  change : IsNumber (l.error v - s.previousError) → IsNumber (l.error v' - s'.previousError) →
    l.error v' - s'.previousError ≤ l.error v - s.previousError

variable {l : ControlLaw α} {s s' : Memory α} {v v' : α}

theorem number_error (h : Rounds α gain period) (hraw : IsNumber (l.raw s v)) :
    IsNumber (l.error v) := by
  obtain ⟨hsum, -⟩ := h.number_of_add hraw
  exact (h.number_of_mul (h.number_of_add hsum).1).2

theorem error_mono (h : Rounds α gain period) (hv : v ≤ v') (hraw : IsNumber (l.raw s v))
    (hraw' : IsNumber (l.raw s' v')) : l.error v' ≤ l.error v := by
  have hnum := number_error h hraw
  exact h.sub_mono (h.number_of_sub hnum).1 hv (number_error h hraw') hnum

theorem Below.accumulate (h : Rounds α gain period) (hl : l.Proper gain period)
    (hs : Below l v v' s s') (hv : v ≤ v') (hraw : IsNumber (l.raw s v))
    (hraw' : IsNumber (l.raw s' v')) : l.accumulate s' v' ≤ l.accumulate s v := by
  have hsum {s v} (hr : IsNumber (l.raw s v)) : IsNumber (s.accumulator + l.error v * l.dt) := by
    have hterms := (h.number_of_add (h.number_of_add hr).1).2
    exact number_of_clamp h (h.number_of_mul hterms).2
  have hstep := h.mul_mono_right hl.dt (error_mono h hv hraw hraw')
    (h.number_of_add (hsum hraw')).2 (h.number_of_add (hsum hraw)).2
  exact clamp_mono h hl.integralLimit
    (h.add_mono hs.accumulator hstep (hsum hraw') (hsum hraw))

theorem Below.raw (h : Rounds α gain period) (hl : l.Proper gain period)
    (hs : Below l v v' s s') (hv : v ≤ v') (hraw : IsNumber (l.raw s v))
    (hraw' : IsNumber (l.raw s' v')) : l.raw s' v' ≤ l.raw s v := by
  obtain ⟨hpi, hd⟩ := h.number_of_add hraw
  obtain ⟨hpi', hd'⟩ := h.number_of_add hraw'
  obtain ⟨hp, hi⟩ := h.number_of_add hpi
  obtain ⟨hp', hi'⟩ := h.number_of_add hpi'
  have hkd := (h.number_of_div hd).1
  have hkd' := (h.number_of_div hd').1
  have hproportional := h.mul_mono_left hl.kp (error_mono h hv hraw hraw') hp' hp
  have hintegral := h.mul_mono_left hl.ki (hs.accumulate h hl hv hraw hraw') hi' hi
  have hchange := hs.change (h.number_of_mul hkd).2 (h.number_of_mul hkd').2
  have hderivative := h.div_mono hl.dt (h.mul_mono_left hl.kd hchange hkd' hkd) hd' hd
  exact h.add_mono (h.add_mono hproportional hintegral hpi' hpi) hderivative hraw' hraw

/-- After a tick both copies compare their error with itself. -/
theorem Below.tick (h : Rounds α gain period) (hl : l.Proper gain period)
    (hs : Below l v v' s s') (hv : v ≤ v') (hraw : IsNumber (l.raw s v))
    (hraw' : IsNumber (l.raw s' v')) : Below l v v' (l.tick s v) (l.tick s' v') where
  accumulator := hs.accumulate h hl hv hraw hraw'
  change hnum hnum' := h.sub_self_le hnum' hnum

/-! ## Ticks at one voltage -/

/-- Held at a lower voltage, the law has neither a lower integral nor a lower output after any tick,
as long as no raw output on the way is anything but a number. -/
theorem held_mono (h : Rounds α gain period) (hl : l.Proper gain period)
    (hs : IsNumber s.accumulator) (hv : v ≤ v') (n : Nat)
    (hraw : ∀ i ≤ n, IsNumber (l.raw (l.held s v i) v) ∧ IsNumber (l.raw (l.held s v' i) v')) :
    (l.held s v' (n + 1)).accumulator ≤ (l.held s v (n + 1)).accumulator ∧
      l.output (l.held s v' n) v' ≤ l.output (l.held s v n) v := by
  have hbelow : Below l v v' (l.held s v n) (l.held s v' n) := by
    induction n with
    | zero =>
      refine ⟨hs, fun hnum hnum' => ?_⟩
      obtain ⟨hfirst, hfirst'⟩ := hraw 0 le_rfl
      exact h.sub_mono (error_mono h hv hfirst hfirst') (h.number_of_sub hnum).2 hnum' hnum
    | succ n ih =>
      obtain ⟨hlast, hlast'⟩ := hraw n (Nat.le_succ n)
      exact (ih fun i hi => hraw i (Nat.le_succ_of_le hi)).tick h hl hv hlast hlast'
  obtain ⟨hlast, hlast'⟩ := hraw n le_rfl
  exact ⟨hbelow.accumulate h hl hv hlast hlast',
    clamp_mono h hl.least (hbelow.raw h hl hv hlast hlast')⟩

end

end ControlLaw

/-! ## Rational numbers -/

/-- Rational numbers with a rounding after every operation. -/
structure Rounded (round : ℚ → ℚ) where
  value : ℚ

namespace Rounded

variable {round : ℚ → ℚ}

instance : Add (Rounded round) := ⟨fun x y => ⟨round (x.value + y.value)⟩⟩

instance : Sub (Rounded round) := ⟨fun x y => ⟨round (x.value - y.value)⟩⟩

instance : Mul (Rounded round) := ⟨fun x y => ⟨round (x.value * y.value)⟩⟩

instance : Div (Rounded round) := ⟨fun x y => ⟨round (x.value / y.value)⟩⟩

instance : Neg (Rounded round) := ⟨fun x => ⟨-x.value⟩⟩

instance : LE (Rounded round) := ⟨fun x y => x.value ≤ y.value⟩

instance : LT (Rounded round) := ⟨fun x y => x.value < y.value⟩

instance : DecidableLT (Rounded round) := fun x y => inferInstanceAs (Decidable (x.value < y.value))

theorem isNumber (x : Rounded round) : IsNumber x := le_refl x.value

/-- Operations that round by a monotone rounding grow with their operands. -/
theorem rounds (h : Monotone round) :
    Rounds (Rounded round) (fun k => 0 ≤ k.value) (fun d => 0 < d.value) where
  le_trans hxy hyz := le_trans (α := ℚ) hxy hyz
  number_of_le _ := ⟨isNumber _, isNumber _⟩
  lt_iff {x y} := by
    change x.value < y.value ↔ _
    simp only [isNumber, true_and]
    exact not_le.symm
  number_of_add _ := ⟨isNumber _, isNumber _⟩
  number_of_sub _ := ⟨isNumber _, isNumber _⟩
  number_of_mul _ := ⟨isNumber _, isNumber _⟩
  number_of_div _ := ⟨isNumber _, isNumber _⟩
  add_mono hx hy _ _ := h (add_le_add hx hy)
  sub_mono hx hy _ _ := h (sub_le_sub hx hy)
  sub_self_le {x y} _ _ := h (by rw [sub_self, sub_self])
  mul_mono_left hk hxy _ _ := h (mul_le_mul_of_nonneg_left hxy hk)
  mul_mono_right hd hxy _ _ := h (mul_le_mul_of_nonneg_right hxy (le_of_lt hd))
  div_mono hd hxy _ _ := h (div_le_div_of_nonneg_right hxy (le_of_lt hd))

end Rounded

end BusRegen
