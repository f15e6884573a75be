/-!
# Flags in texts

A flag is written `true` or `false`; `ofChars?_eq_some` says that it is read in no other form.
-/
namespace BusRegen.Flag

def chars : Bool → List Char
  | true => "true".toList
  | false => "false".toList

def ofChars? (cs : List Char) : Option Bool :=
  if cs = chars true then some true
  else if cs = chars false then some false
  else none

theorem ofChars?_eq_some {cs : List Char} {b : Bool} : ofChars? cs = some b ↔ cs = chars b := by
  have hne : chars false ≠ chars true := by decide
  unfold ofChars?
  constructor
  · intro h
    split at h
    · next hc => simpa [← Option.some.inj h] using hc
    · split at h
      · next hc => simpa [← Option.some.inj h] using hc
      · cases h
  · rintro rfl
    cases b with
    | true => exact if_pos rfl
    | false => rw [if_neg hne, if_pos rfl]

end BusRegen.Flag
