import BusRegen.Profile.Record
import BusRegen.Proofs.Json.Quick
import BusRegen.Proofs.Json.RoundTrip
/-!
# Curves are read as they were written

The record of a curve is the value that its fields are found in again, whatever the kind and however
many holds there are (`ofJson?_toJson`). Its text is that of a value three levels deep
(`depth_toJson`), so it is read if the numbers are (`isReadable_toJson`). How well the numbers are
read is the reader's matter (`Json.readsBack`). The quick reader gets a curve back whose numbers are
short (`ofRecord?_quick`); one that takes all digits into account gets any curve of finite numbers
back, so no two of these have the same text (`record_round_trip`).
-/
namespace BusRegen

namespace Json

theorem filter_eq_nil {key : String} {fields : List (String × Json)}
    (h : key ∉ fields.map (·.1)) : fields.filter (·.1 == key) = [] := by
  refine List.filter_eq_nil_iff.2 fun f hf heq => h ?_
  exact List.mem_map.2 ⟨f, hf, eq_of_beq heq⟩

/-- A field is found if no other one has its key. -/
theorem single?_of_mem {key : String} {v : Json} {fields : List (String × Json)}
    (hn : (fields.map (·.1)).Nodup) (h : (key, v) ∈ fields) : single? key fields = some v := by
  have hfound : fields.filter (·.1 == key) = [(key, v)] := by
    induction fields with
    | nil => cases h
    | cons f fields ih =>
      rw [List.map_cons, List.nodup_cons] at hn
      rcases List.mem_cons.1 h with rfl | h
      · rw [List.filter_cons, if_pos (beq_self_eq_true key), filter_eq_nil hn.1]
      · have hne : ¬(f.1 == key) = true := by
          intro heq
          exact hn.1 (List.mem_map.2 ⟨_, h, (eq_of_beq heq).symm⟩)
        rw [List.filter_cons, if_neg hne]
        exact ih hn.2 h
  rw [single?, valuesOf, hfound]
  rfl

end Json

namespace Profile

open Json (readsBack isReadable areReadable fieldsReadable)

/-! ## Fields -/

theorem numbers?_fields {kxs : List (String × Float)} (hn : (kxs.map (·.1)).Nodup) :
    (Content.fields (kxs.map fun (k, x) => (k, .scalar x))).numbers? (kxs.map (·.1)) =
      some (kxs.map (·.2)) := by
  have hvalues : (Content.fields (kxs.map fun (k, x) => (k, .scalar x))).values? (kxs.map (·.1)) =
      some (kxs.map fun kx => .scalar kx.2) := by
    refine mapM_map_of_some fun kx hkx => Json.single?_of_mem ?_ (List.mem_map.2 ⟨kx, hkx, rfl⟩)
    rwa [List.map_map]
  rw [Content.numbers?, hvalues]
  exact mapM_map_of_some fun _ _ => rfl

section
variable {keys : List String} {xs : List Float}

theorem keys_numberFields (hl : keys.length = xs.length) :
    (numberFields keys xs).map (·.1) = keys := by
  rw [numberFields, List.map_map]
  exact List.map_fst_zip (Nat.le_of_eq hl)

theorem numbers?_numberFields (hn : keys.Nodup) (hl : keys.length = xs.length) :
    (Content.fields (numberFields keys xs)).numbers? keys = some xs := by
  have hkeys : (keys.zip xs).map (·.1) = keys := List.map_fst_zip (Nat.le_of_eq hl)
  have hxs : (keys.zip xs).map (·.2) = xs := List.map_snd_zip (Nat.le_of_eq hl.symm)
  have hread := @numbers?_fields (keys.zip xs) (by rwa [hkeys])
  rwa [hkeys, hxs] at hread

end

theorem hold?_holdJson (h : Hold) : hold? (holdJson h) = some h := by
  have hread := @numbers?_numberFields holdKeys [h.voltage, h.duration] (by decide) rfl
  unfold hold? holdJson content?
  simp only [Option.bind_eq_bind, Option.bind_some, hread]

/-- The kind is told from the other fields. -/
theorem kindAndContent?_kindField {kind : String} {fs : List (String × Json)}
    (h : "kind" ∉ fs.map (·.1)) :
    kindAndContent? (.object (kindField kind :: fs)) = some (kind, .fields fs) := by
  have hvalue : Json.single? "kind" (kindField kind :: fs) = some (.text kind) := by
    rw [Json.single?, Json.valuesOf, kindField, List.filter_cons,
      if_pos (by simp only; decide), Json.filter_eq_nil h]
    rfl
  have hothers : (kindField kind :: fs).filter (·.1 != "kind") = fs := by
    have hne : ∀ f ∈ fs, (f.1 != "kind") = true := by
      intro f hf
      refine bne_iff_ne.2 fun heq => h ?_
      exact List.mem_map.2 ⟨f, hf, heq⟩
    rw [kindField, List.filter_cons, if_neg (by simp only; decide), List.filter_eq_self.2 hne]
  rw [kindAndContent?, hvalue, hothers]

theorem ofJson?_numberFields {kind : String} {keys : List String} {xs : List Float}
    (hkind : "kind" ∉ keys) (hl : keys.length = xs.length) :
    ofJson? (.object (kindField kind :: numberFields keys xs)) =
      ofContent? kind (.fields (numberFields keys xs)) := by
  rw [ofJson?, kindAndContent?_kindField (by rwa [keys_numberFields hl])]
  rfl

/-- The fields of a record are those of its curve. -/
theorem ofJson?_toJson (c : Profile) : ofJson? c.toJson = some c := by
  cases c with
  | constant v =>
    have hread := @numbers?_numberFields ["voltage"] [v] (by decide) rfl
    rw [toJson, ofJson?_numberFields (by decide) rfl]
    simp only [ofContent?, hread, Option.bind_eq_bind, Option.bind_some]
  | step d =>
    have hread := @numbers?_numberFields dipKeys
      [d.baseline, d.low, d.start, d.stop] (by decide) rfl
    rw [toJson, ofJson?_numberFields (by decide) rfl]
    simp only [ofContent?, hread, Option.bind_eq_bind, Option.bind_some]
  | ramp r =>
    have hread := @numbers?_numberFields rampKeys
      [r.baseline, r.floor, r.start, r.fallRate, r.hold, r.riseRate] (by decide) rfl
    rw [toJson, ofJson?_numberFields (by decide) rfl]
    simp only [ofContent?, hread, Option.bind_eq_bind, Option.bind_some]
  | smoothDrop => rfl
  | sequence holds =>
    have hholds : (holds.map holdJson).mapM hold? = some (holds.map id) :=
      mapM_map_of_some fun h _ => hold?_holdJson h
    have hcontent : (Content.fields [("holds", .array (holds.map holdJson))]).values? ["holds"] =
        some [.array (holds.map holdJson)] := rfl
    rw [toJson, ofJson?, kindAndContent?_kindField (by simp)]
    simp only [ofContent?, Option.bind_eq_bind, Option.bind_some, hcontent, hholds, List.map_id,
      Option.pure_def]

/-! ## Words -/

/-- The numbers of a curve in the order of its record. -/
def numbers : Profile → List Float
  | constant v => [v]
  | step d => [d.baseline, d.low, d.start, d.stop]
  | ramp r => [r.baseline, r.floor, r.start, r.fallRate, r.hold, r.riseRate]
  | smoothDrop => []
  | sequence holds => holds.flatMap fun h => [h.voltage, h.duration]

/-- All numbers of a curve are finite. -/
def IsFinite (c : Profile) : Prop := ∀ x ∈ c.numbers, x.isFinite = true

/-- All numbers of a curve are written short. -/
def IsShort (c : Profile) : Prop := ∀ x ∈ c.numbers, Json.HasShortText x

section
variable {p : Json.Precision} {keys : List String} {xs : List Float}

theorem fieldsReadable_numberFields (h : ∀ x ∈ xs, readsBack p x = true) :
    fieldsReadable p (numberFields keys xs) = true := by
  induction keys generalizing xs with
  | nil => rfl
  | cons k keys ih =>
    cases xs with
    | nil => rfl
    | cons x xs =>
      rw [List.forall_mem_cons] at h
      exact Bool.and_eq_true_iff.2 ⟨h.1, ih h.2⟩

theorem fieldsDepth_numberFields : Json.fieldsDepth (numberFields keys xs) = 0 := by
  induction keys generalizing xs with
  | nil => rfl
  | cons k keys ih =>
    cases xs with
    | nil => rfl
    | cons x xs => exact (Nat.zero_max _).trans ih

end

theorem areReadable_holds {p : Json.Precision} {holds : List Hold}
    (h : ∀ x ∈ (sequence holds).numbers, readsBack p x = true) :
    areReadable p (holds.map holdJson) = true := by
  induction holds with
  | nil => rfl
  | cons a holds ih =>
    rw [numbers, List.flatMap_cons, List.forall_mem_append] at h
    exact Bool.and_eq_true_iff.2 ⟨fieldsReadable_numberFields h.1, ih h.2⟩

theorem itemsDepth_holds (holds : List Hold) : Json.itemsDepth (holds.map holdJson) ≤ 1 := by
  induction holds with
  | nil => exact Nat.zero_le 1
  | cons a holds ih =>
    have ha : (holdJson a).depth = 1 := congrArg (· + 1) fieldsDepth_numberFields
    rw [List.map_cons, Json.itemsDepth, ha]
    exact Nat.max_le.2 ⟨Nat.le_refl 1, ih⟩

/-- A record is read if the numbers of its curve are. -/
theorem isReadable_toJson {p : Json.Precision} {c : Profile}
    (h : ∀ x ∈ c.numbers, readsBack p x = true) : isReadable p c.toJson = true := by
  cases c with
  | constant | step | ramp => exact fieldsReadable_numberFields h
  | smoothDrop => rfl
  | sequence holds => exact Bool.and_eq_true_iff.2 ⟨areReadable_holds h, rfl⟩

theorem depth_toJson (c : Profile) : c.toJson.depth ≤ 3 := by
  cases c with
  | constant | step | ramp =>
    refine Nat.succ_le_succ ?_
    rw [Json.fieldsDepth, fieldsDepth_numberFields]
    exact Nat.zero_le 2
  | smoothDrop => exact (by decide : 1 ≤ 3)
  | sequence holds =>
    refine Nat.succ_le_succ (Nat.max_le.2 ⟨Nat.zero_le 2, Nat.max_le.2 ⟨?_, Nat.zero_le 2⟩⟩)
    exact Nat.succ_le_succ (itemsDepth_holds holds)

/-! ## Texts -/

theorem ofRecord?_toRecord {p : Json.Precision} {c : Profile}
    (h : ∀ x ∈ c.numbers, readsBack p x = true) : ofRecord? p c.toRecord = some c := by
  have hdepth : c.toJson.depth < Json.Builder.depthLimit :=
    Nat.lt_of_le_of_lt (depth_toJson c) (by decide)
  rw [ofRecord?, toRecord, Json.ofChars?_compact (isReadable_toJson h) hdepth]
  exact ofJson?_toJson c

theorem IsFinite.readsBack {c : Profile} (h : c.IsFinite) :
    ∀ x ∈ c.numbers, readsBack .nearest x = true :=
  fun x hx => Json.readsBack_nearest (h x hx)

theorem IsShort.readsBack {c : Profile} (h : c.IsShort) (hfinite : c.IsFinite) :
    ∀ x ∈ c.numbers, readsBack .quick x = true :=
  fun x hx => Json.readsBack_quick (hfinite x hx) (h x hx)

/-- Of short numbers the quick reader loses nothing. -/
theorem ofRecord?_quick {c : Profile} (h : c.IsShort) (hfinite : c.IsFinite) :
    ofRecord? .quick c.toRecord = some c :=
  ofRecord?_toRecord (h.readsBack hfinite)

/-- **A curve of finite numbers is read from its own text.** A reader that reads the numbers gets
the same kind of curve with the same numbers, so the same voltages at all times and the same
duration. One that takes all digits into account does so without exception, whence curves that
differ have different texts. -/
theorem record_round_trip {c : Profile} (hfinite : c.IsFinite) :
    (∀ p, (∀ x ∈ c.numbers, readsBack p x = true) →
      ofRecord? p c.toRecord = some c ∧
        (∀ t, (ofRecord? p c.toRecord).map (voltageAt · t) = some (c.voltageAt t)) ∧
        (ofRecord? p c.toRecord).map naturalDuration = some c.naturalDuration) ∧
      (∀ x ∈ c.numbers, readsBack .nearest x = true) ∧
      ∀ d : Profile, d.IsFinite → d ≠ c → d.toRecord ≠ c.toRecord := by
  refine ⟨fun p hread => ?_, hfinite.readsBack, fun d hd hne heq => hne ?_⟩
  · rw [ofRecord?_toRecord hread]
    exact ⟨rfl, fun t => rfl, rfl⟩
  · have hsame := ofRecord?_toRecord hd.readsBack
    rw [heq, ofRecord?_toRecord hfinite.readsBack] at hsame
    exact (Option.some.inj hsame).symm

/-- Numbers in each of the styles, and a negative zero. -/
def mixedHolds : List Hold := [⟨48.0, 0.5⟩, ⟨-0.0, 1e-7⟩, ⟨45.25, 1e22⟩]

theorem record_round_trip_mixed :
    (sequence mixedHolds).IsFinite ∧
      (∀ x ∈ (sequence mixedHolds).numbers, readsBack .quick x = true) ∧
      ofRecord? .quick (sequence mixedHolds).toRecord = some (sequence mixedHolds) := by
  have hfinite : (sequence mixedHolds).IsFinite := by
    unfold IsFinite
    decide +kernel
  have hshort : (sequence mixedHolds).IsShort := by
    unfold IsShort
    decide +kernel
  have hread := hshort.readsBack hfinite
  exact ⟨hfinite, hread, ((record_round_trip hfinite).1 .quick hread).1⟩

end Profile
end BusRegen
