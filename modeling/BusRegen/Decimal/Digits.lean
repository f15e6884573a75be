/-!
# Decimal digits

Natural numbers as digit characters, most significant first, and back. `ofDigits_digits` says that
reading what is written gives the number again; `digits_ne_nil` and `isDigit_of_mem_digits` say what
a written number looks like.
-/
namespace BusRegen.Decimal

def isDigit (c : Char) : Bool := 48 ≤ c.toNat && c.toNat ≤ 57

def digitValue (c : Char) : Nat := c.toNat - 48

/-- The digits of a number without leading zeros; zero has one digit. -/
def digits (n : Nat) : List Char :=
  if n < 10 then [Nat.digitChar n] else digits (n / 10) ++ [Nat.digitChar (n % 10)]

/-- The number of digits of `digits`. -/
def digitCount (n : Nat) : Nat :=
  if n < 10 then 1 else digitCount (n / 10) + 1

/-- The value of a digit string that follows the number `acc`. -/
def ofDigitsAfter (acc : Nat) : List Char → Nat
  | [] => acc
  | c :: rest => ofDigitsAfter (acc * 10 + digitValue c) rest

def ofDigits (cs : List Char) : Nat := ofDigitsAfter 0 cs

/-- The value of a hexadecimal digit in either case. -/
def hexValue? (c : Char) : Option Nat :=
  let n := c.toNat
  if 48 ≤ n ∧ n ≤ 57 then some (n - 48)
  else if 97 ≤ n ∧ n ≤ 102 then some (n - 87)
  else if 65 ≤ n ∧ n ≤ 70 then some (n - 55)
  else none

/-- Digits without a superfluous zero in front. -/
def isWhole : List Char → Bool
  | [] => false
  | ['0'] => true
  | '0' :: _ => false
  | _ => true

/-- A sign, if there is one, and the rest. -/
def takeSign : List Char → Bool × List Char
  | '-' :: rest => (true, rest)
  | '+' :: rest => (false, rest)
  | cs => (false, cs)

/-- A number with at least `width` digits, filled up with zeros on the left. -/
def padded (width n : Nat) : List Char :=
  let ds := digits n
  List.replicate (width - ds.length) '0' ++ ds

theorem toNat_digitChar (d : Nat) (h : d < 10) : (Nat.digitChar d).toNat = 48 + d := by
  have : d = 0 ∨ d = 1 ∨ d = 2 ∨ d = 3 ∨ d = 4 ∨ d = 5 ∨ d = 6 ∨ d = 7 ∨ d = 8 ∨ d = 9 := by omega
  rcases this with h | h | h | h | h | h | h | h | h | h <;> subst h <;> rfl

theorem digitValue_digitChar (d : Nat) (h : d < 10) : digitValue (Nat.digitChar d) = d := by
  simp [digitValue, toNat_digitChar d h]

theorem isDigit_digitChar (d : Nat) (h : d < 10) : isDigit (Nat.digitChar d) := by
  simp [isDigit, toNat_digitChar d h]; omega

theorem isDigit_of_mem_digits (n : Nat) : ∀ c ∈ digits n, isDigit c := by
  fun_induction digits n with
  | case1 n h => intro c hc; rw [List.mem_singleton.1 hc]; exact isDigit_digitChar n h
  | case2 n h ih =>
    intro c hc
    rcases List.mem_append.1 hc with hc | hc
    · exact ih c hc
    · rw [List.mem_singleton.1 hc]; exact isDigit_digitChar _ (Nat.mod_lt _ (by decide))

theorem digits_ne_nil (n : Nat) : digits n ≠ [] := by
  unfold digits; split <;> simp

theorem length_digits (n : Nat) : (digits n).length = digitCount n := by
  fun_induction digits n with
  | case1 n h => simp [digitCount, h]
  | case2 n h ih => rw [digitCount]; simp [h, ih]

theorem ofDigitsAfter_append (acc : Nat) (xs ys : List Char) :
    ofDigitsAfter acc (xs ++ ys) = ofDigitsAfter (ofDigitsAfter acc xs) ys := by
  induction xs generalizing acc with
  | nil => rfl
  | cons x xs ih => exact ih _

theorem ofDigits_digits (n : Nat) : ofDigits (digits n) = n := by
  fun_induction digits n with
  | case1 n h =>
    show 0 * 10 + digitValue (Nat.digitChar n) = n
    rw [digitValue_digitChar n h, Nat.zero_mul, Nat.zero_add]
  | case2 n h ih =>
    unfold ofDigits at ih ⊢
    rw [ofDigitsAfter_append, ih]
    show n / 10 * 10 + digitValue (Nat.digitChar (n % 10)) = n
    rw [digitValue_digitChar _ (Nat.mod_lt n (by decide))]
    omega

theorem ofDigitsAfter_zeros (k : Nat) (cs : List Char) :
    ofDigits (List.replicate k '0' ++ cs) = ofDigits cs := by
  unfold ofDigits
  induction k with
  | zero => rfl
  | succ k ih => exact ih

theorem ofDigits_padded (width n : Nat) : ofDigits (padded width n) = n := by
  unfold padded; rw [ofDigitsAfter_zeros, ofDigits_digits]

end BusRegen.Decimal
