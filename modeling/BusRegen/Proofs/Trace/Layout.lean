import BusRegen.Trace.Archive
import BusRegen.Proofs.Files
import BusRegen.Proofs.Scalar.Bits
/-!
# What the readers of a trace file accept

A layout says which byte strings are forms of a value. A reader has a layout (`Reads`) if it takes a
value from the front of exactly those bytes that begin with a form of it, and leaves what comes
after that form. Readers made of readers have the layouts made of theirs (`Reads.bind`), so the
layout of a trace follows its reader from part to part.

Each part has the one form that its writer writes, apart from scalars: the word of a NaN may be any
pattern of a NaN (`ScalarForm`). Lengths are written in eight bytes, so there is a form only for
what can be counted in them.
-/
namespace BusRegen

namespace Bytes

/-- Which byte strings are forms of a value. -/
abbrev Layout (α : Type) := α → List UInt8 → Prop

variable {α β : Type}

/-- The reader takes a value from the front of the bytes that begin with a form of it. -/
def Reads (r : Reader α) (l : Layout α) : Prop :=
  ∀ bs a rest, r bs = some (a, rest) ↔ ∃ e, l a e ∧ bs = e ++ rest

/-- The forms of what is read after something else. -/
def Layout.bind (l : Layout α) (m : α → Layout β) : Layout β :=
  fun b bs => ∃ a e f, l a e ∧ m a b f ∧ bs = e ++ f

section
variable {r : Reader α} {l m : Layout α}

theorem Reads.congr (h : Reads r l) (hlm : ∀ a e, l a e ↔ m a e) : Reads r m := by
  intro bs a rest
  simp only [h bs a rest, hlm]

theorem Reads.bind {q : α → Reader β} {k : α → Layout β} (hr : Reads r l)
    (hq : ∀ a, Reads (q a) (k a)) : Reads (r >>= q) (l.bind k) := by
  intro bs b rest
  change ((r bs).bind fun x => q x.1 x.2) = some (b, rest) ↔ _
  rw [Option.bind_eq_some_iff]
  constructor
  · rintro ⟨⟨a, mid⟩, ha, hb⟩
    obtain ⟨e, he, rfl⟩ := (hr bs a mid).1 ha
    obtain ⟨f, hf, hmid⟩ := (hq a mid b rest).1 hb
    exact ⟨e ++ f, ⟨a, e, f, he, hf, rfl⟩, by rw [hmid, List.append_assoc]⟩
  · rintro ⟨-, ⟨a, e, f, he, hf, rfl⟩, rfl⟩
    refine ⟨(a, f ++ rest), (hr _ _ _).2 ⟨e, he, by rw [List.append_assoc]⟩, ?_⟩
    exact (hq a _ b rest).2 ⟨f, hf, rfl⟩

/-- A value is read in one way only. -/
theorem Reads.unique (h : Reads r l) {a b : α} {e f s t : List UInt8} (ha : l a e) (hb : l b f)
    (heq : e ++ s = f ++ t) : a = b ∧ e = f := by
  have h₁ : r (e ++ s) = some (a, s) := (h _ _ _).2 ⟨e, ha, rfl⟩
  have h₂ : r (e ++ s) = some (b, t) := (h _ _ _).2 ⟨f, hb, heq⟩
  rw [h₁, Option.some.injEq, Prod.mk.injEq] at h₂
  obtain ⟨rfl, rfl⟩ := h₂
  exact ⟨rfl, List.append_cancel_right heq⟩

end

theorem reads_pure (a : α) : Reads (pure a) fun b bs => b = a ∧ bs = [] := by
  intro bs b rest
  change some (a, bs) = some (b, rest) ↔ _
  rw [Option.some.injEq, Prod.mk.injEq]
  constructor
  · rintro ⟨rfl, rfl⟩
    exact ⟨[], ⟨rfl, rfl⟩, rfl⟩
  · rintro ⟨-, ⟨rfl, rfl⟩, rfl⟩
    exact ⟨rfl, rfl⟩

theorem reads_failure : Reads (failure : Reader α) fun _ _ => False := by
  intro bs b rest
  change none = some (b, rest) ↔ _
  simp

theorem reads_byte : Reads byte fun b bs => bs = [b] := by
  intro bs b rest
  cases bs with
  | nil => simp [byte]
  | cons b' bs => simp [byte]

theorem le_succ (width n : Nat) :
    le (width + 1) n = UInt8.ofNat (n % 256) :: le width (n / 256) := rfl

theorem reads_word (width : Nat) :
    Reads (word width) fun n bs => n < 256 ^ width ∧ bs = le width n := by
  induction width with
  | zero =>
    refine (reads_pure 0).congr fun n bs => ?_
    simp [le]
  | succ w ih =>
    refine (reads_byte.bind fun low => ih.bind fun high => reads_pure _).congr fun n bs => ?_
    simp only [Layout.bind, le_succ, Nat.pow_succ]
    constructor
    · rintro ⟨low, e, f, rfl, ⟨high, f, -, ⟨hh, rfl⟩, ⟨rfl, rfl⟩, rfl⟩, rfl⟩
      have hl := low.toNat_lt
      have hmod : (low.toNat + 256 * high) % 256 = low.toNat := by omega
      have hdiv : (low.toNat + 256 * high) / 256 = high := by omega
      refine ⟨by omega, ?_⟩
      rw [hmod, hdiv, UInt8.ofNat_toNat, List.append_nil]
      rfl
    · rintro ⟨hn, rfl⟩
      refine ⟨UInt8.ofNat (n % 256), [UInt8.ofNat (n % 256)], le w (n / 256), rfl,
        ⟨n / 256, le w (n / 256), [], ⟨by omega, rfl⟩, ⟨?_, rfl⟩, by rw [List.append_nil]⟩, rfl⟩
      simp
      omega

theorem reads_chunk (n : Nat) : Reads (chunk n) fun c bs => c.length = n ∧ bs = c := by
  intro bs c rest
  unfold chunk
  dsimp only
  constructor
  · intro h
    split at h
    · rename_i hlen
      cases h
      exact ⟨_, ⟨hlen, rfl⟩, (List.take_append_drop n bs).symm⟩
    · cases h
  · rintro ⟨-, ⟨rfl, rfl⟩, rfl⟩
    simp

theorem reads_lift (o : Option α) :
    Reads (liftM o : Reader α) fun a bs => o = some a ∧ bs = [] := by
  intro bs a rest
  cases o with
  | none => exact (reads_failure bs a rest).trans (by simp)
  | some b => exact (reads_pure b bs a rest).trans (by simp [eq_comm])

/-! ## Scalars, flags and text -/

/-- The word of a scalar; a NaN may be written in any of its patterns. -/
def ScalarForm : Layout Float := fun x bs =>
  ∃ w : UInt64, (w = x.toBits ∨ x.isNaN = true ∧ Scalar.IsNaNPattern w.toNat) ∧ bs = le 8 w.toNat

theorem scalarForm_writeScalar (x : Float) : ScalarForm x (writeScalar x) := ⟨_, .inl rfl, rfl⟩

theorem scalarForm_iff {x : Float} (h : x.isNaN = false) (bs : List UInt8) :
    ScalarForm x bs ↔ bs = writeScalar x := by
  constructor
  · rintro ⟨w, rfl | ⟨hx, -⟩, rfl⟩
    · rfl
    · rw [h] at hx
      cases hx
  · rintro rfl
    exact scalarForm_writeScalar x

theorem reads_scalar : Reads scalar ScalarForm := by
  refine ((reads_word 8).bind fun n => reads_pure _).congr fun x bs => ?_
  simp only [Layout.bind, ScalarForm, ← Scalar.ofBits_eq_iff]
  constructor
  · rintro ⟨n, -, -, ⟨hn, rfl⟩, ⟨rfl, rfl⟩, rfl⟩
    refine ⟨UInt64.ofNat n, rfl, ?_⟩
    rw [UInt64.toNat_ofNat_of_lt' (by exact hn), List.append_nil]
  · rintro ⟨w, rfl, rfl⟩
    exact ⟨w.toNat, _, [], ⟨w.toNat_lt, rfl⟩, ⟨by rw [UInt64.ofNat_toNat], rfl⟩,
      (List.append_nil _).symm⟩

theorem flag_cons (c : UInt8) (bs : List UInt8) :
    flag (c :: bs) =
      if c = 0 then some (false, bs) else if c = 1 then some (true, bs) else none := by
  simp only [flag, bind, StateT.bind, byte, Option.bind_some]
  split
  · rfl
  · rfl
  · next h0 h1 =>
    rw [if_neg h0, if_neg h1]
    rfl

theorem reads_flag : Reads flag fun b bs => bs = writeFlag b := by
  intro bs b rest
  cases bs with
  | nil =>
    change none = some (b, rest) ↔ _
    simp [writeFlag]
  | cons c bs =>
    rw [flag_cons]
    by_cases h0 : c = 0
    · cases b <;> simp [h0, writeFlag]
    · by_cases h1 : c = 1
      · cases b <;> simp [h1, writeFlag]
      · cases b <;> simp [h0, h1, writeFlag]

theorem reads_text : Reads text fun s bs => s.utf8ByteSize < 2 ^ 64 ∧ bs = writeText s := by
  refine ((reads_word 8).bind fun n => (reads_chunk n).bind fun c => reads_lift _).congr
    fun s bs => ?_
  simp only [Layout.bind, writeText, fromUTF8?_eq_some_iff]
  constructor
  · rintro ⟨n, -, -, ⟨hn, rfl⟩, ⟨c, -, -, ⟨hc, rfl⟩, ⟨rfl, rfl⟩, rfl⟩, rfl⟩
    rw [length_toUTF8] at hc
    subst hc
    exact ⟨hn, by rw [List.append_nil]⟩
  · rintro ⟨hs, rfl⟩
    exact ⟨s.utf8ByteSize, _, _, ⟨hs, rfl⟩,
      ⟨s.toUTF8.toList, _, [], ⟨length_toUTF8 s, rfl⟩, ⟨rfl, rfl⟩, (List.append_nil _).symm⟩,
      rfl⟩

end Bytes
end BusRegen
