import BusRegen.SettingsFile.Storage
import BusRegen.Proofs.Files
import BusRegen.Proofs.Toml.Line
/-!
# Settings files are read as they were written

The text of a settings file is made of lines (`chars_eq`), each of which spells the value of a key.
A section has a field for every key that has a value (`fieldsOf`), so reading its keys sets all of
them that the standard section does not have already (`ofKeys?_fieldsOf`). Hence any file at all is
read from its own text (`round_trip`), whatever scalars it holds, and is loaded as it was saved
(`load_save`).
-/
namespace BusRegen.SettingsFile

open Toml (Line Fields HasWord IsBareName sectionLines)

/-! ## Fields -/

section
variable {κ σ : Type} {keys : List κ} {name : κ → String} {value : κ → Option Toml}

/-- A field for every key that has a value. -/
def fieldsOf (keys : List κ) (name : κ → String) (value : κ → Option Toml) : Fields :=
  keys.filterMap fun k => (value k).map (name k, ·)

theorem keys_fieldsOf_sublist : ((fieldsOf keys name value).map (·.1)).Sublist (keys.map name) := by
  induction keys with
  | nil => exact .slnil
  | cons k keys ih =>
    unfold fieldsOf at ih ⊢
    rw [List.filterMap_cons, List.map_cons]
    cases value k with
    | none => exact ih.cons _
    | some v => exact ih.cons_cons _

theorem find?_fieldsOf (hn : (keys.map name).Nodup) {k : κ} (hk : k ∈ keys) :
    Toml.find? (name k) (fieldsOf keys name value) = value k := by
  induction keys with
  | nil => cases hk
  | cons l keys ih =>
    rw [List.map_cons, List.nodup_cons] at hn
    unfold fieldsOf at ih ⊢
    rw [List.filterMap_cons]
    rcases List.mem_cons.1 hk with rfl | hk
    · cases hv : value k with
      | some v => exact if_pos rfl
      | none =>
        -- A key without a value is not among those that follow.
        refine Toml.find?_eq_none fun hmem => hn.1 ?_
        exact keys_fieldsOf_sublist.mem hmem
    · have hne : name l ≠ name k := fun heq => hn.1 (heq ▸ List.mem_map_of_mem hk)
      cases value l with
      | none => exact ih hn.2 hk
      | some v => exact (if_neg hne).trans (ih hn.2 hk)

theorem mem_fieldsOf {f : String × Toml} (h : f ∈ fieldsOf keys name value) :
    ∃ k ∈ keys, f.1 = name k ∧ value k = some f.2 := by
  obtain ⟨k, hk, hf⟩ := List.mem_filterMap.1 h
  obtain ⟨v, hv, rfl⟩ := Option.map_eq_some_iff.1 hf
  exact ⟨k, hk, rfl, hv⟩

theorem sound_fieldsOf (hname : ∀ k, IsBareName (name k))
    (hvalue : ∀ {k v}, value k = some v → HasWord v) :
    ∀ f ∈ fieldsOf keys name value, IsBareName f.1 ∧ HasWord f.2 := by
  intro f hf
  obtain ⟨k, -, hk, hv⟩ := mem_fieldsOf hf
  exact ⟨hk ▸ hname k, hvalue hv⟩

theorem keyValues?_fieldsOf {names : List String} {origin : Toml.Origin}
    (hvalue : ∀ {k v}, value k = some v → HasWord v) :
    keyValues? names (.table origin (fieldsOf keys name value)) =
      some (fieldsOf keys name value) := by
  refine if_pos (Toml.fieldsSound_iff.2 fun f hf => ?_)
  obtain ⟨k, -, -, hv⟩ := mem_fieldsOf hf
  exact (hvalue hv).isSound

theorem flatMap_fieldsOf {β : Type} (g : String × Toml → List β) :
    (fieldsOf keys name value).flatMap g =
      keys.flatMap fun k => ((value k).map fun v => g (name k, v)).getD [] := by
  induction keys with
  | nil => rfl
  | cons k keys ih =>
    unfold fieldsOf at ih ⊢
    rw [List.filterMap_cons, List.flatMap_cons, ← ih]
    cases value k with
    | none => rfl
    | some v => exact List.flatMap_cons

/-- Keys that can each be set, if they are there, are read one after the other. -/
theorem ofKeys?_eq_foldl {set : σ → Toml → κ → Option σ} {update : σ → κ → σ} {fields : Fields}
    (h : ∀ k ∈ keys, ∀ s,
      (Toml.find? (name k) fields).elim (some s) (set s · k) = some (update s k)) (start : σ) :
    ofKeys? keys name set start fields = some (keys.foldl update start) := by
  unfold ofKeys?
  induction keys generalizing start with
  | nil => rfl
  | cons k keys ih =>
    rw [List.forall_mem_cons] at h
    have hk := h.1 start
    rw [List.foldlM_cons, List.foldl_cons]
    cases hfind : Toml.find? (name k) fields with
    | none =>
      rw [hfind] at hk
      rw [← Option.some.inj hk]
      exact ih h.2 start
    | some v =>
      rw [hfind] at hk
      have hset : set start v k = some (update start k) := hk
      simp only [hset]
      exact ih h.2 _

/-- Where every key with a value is set, reading the fields sets all keys. -/
theorem ofKeys?_fieldsOf {set : σ → Toml → κ → Option σ} {update : σ → κ → σ}
    (hn : (keys.map name).Nodup) (hset : ∀ s k v, value k = some v → set s v k = some (update s k))
    (hkeep : ∀ s k, value k = none → update s k = s) (start : σ) :
    ofKeys? keys name set start (fieldsOf keys name value) = some (keys.foldl update start) := by
  refine ofKeys?_eq_foldl (fun k hk s => ?_) start
  rw [find?_fieldsOf hn hk]
  cases hv : value k with
  | none => rw [hkeep s k hv, Option.elim_none]
  | some v => exact hset s k v hv

end

/-! ## The sections -/

def regulatorToml? (s : RegulatorSection) : RegulatorKey → Option Toml
  | .scalar p => some (.scalar (s.values p))
  | .tickPeriod => some (.integer s.tickMicros.toNat)

def loopToml? (s : LoopSection) : LoopKey → Option Toml
  | .overrunMultiplier => some (.scalar s.overrunMultiplier)
  | .maxIterations => s.maxIterations.map fun n => .integer n.toNat
  | .spin => some (.flag s.spin)

def regulatorFields (s : RegulatorSection) : Fields :=
  fieldsOf RegulatorKey.all RegulatorKey.name (regulatorToml? s)

def loopFields (s : LoopSection) : Fields := fieldsOf LoopKey.all LoopKey.name (loopToml? s)

theorem nodup_regulatorKeys : (RegulatorKey.all.map RegulatorKey.name).Nodup := by decide

theorem nodup_loopKeys : (LoopKey.all.map LoopKey.name).Nodup := by decide

theorem nodup_regulatorFields (s : RegulatorSection) : ((regulatorFields s).map (·.1)).Nodup :=
  keys_fieldsOf_sublist.nodup nodup_regulatorKeys

theorem nodup_loopFields (s : LoopSection) : ((loopFields s).map (·.1)).Nodup :=
  keys_fieldsOf_sublist.nodup nodup_loopKeys

theorem isBareName_regulator (k : RegulatorKey) : IsBareName k.name := by
  cases k with
  | scalar p => cases p <;> exact ⟨List.cons_ne_nil _ _, List.all_eq_true.1 rfl⟩
  | tickPeriod => exact ⟨List.cons_ne_nil _ _, List.all_eq_true.1 rfl⟩

theorem isBareName_loop (k : LoopKey) : IsBareName k.name := by
  cases k <;> exact ⟨List.cons_ne_nil _ _, List.all_eq_true.1 rfl⟩

theorem hasWord_regulator {s : RegulatorSection} {k : RegulatorKey} {v : Toml}
    (h : regulatorToml? s k = some v) : HasWord v := by
  cases k with
  | scalar p => cases h; exact .scalar _
  | tickPeriod => cases h; exact .word _

theorem hasWord_loop {s : LoopSection} {k : LoopKey} {v : Toml} (h : loopToml? s k = some v) :
    HasWord v := by
  cases k with
  | overrunMultiplier => cases h; exact .scalar _
  | maxIterations =>
    obtain ⟨n, -, rfl⟩ := Option.map_eq_some_iff.1 h
    exact .word n
  | spin => cases h; exact .flag _

theorem word?_word (n : UInt64) : word? (.integer n.toNat) = some n := by
  have hn := n.toNat_lt
  have hfits : (0 : Int) ≤ n.toNat ∧ (n.toNat : Int) < 2 ^ 64 := by omega
  rw [word?, if_pos hfits, Int.toNat_natCast, UInt64.ofNat_toNat]

theorem regulatorSection_ext {s t : RegulatorSection} (h : ∀ p, s.values p = t.values p)
    (h' : s.tickMicros = t.tickMicros) : s = t := by
  cases s
  cases t
  cases h'
  exact congrArg (RegulatorSection.mk · _) (funext h)

/-- A section with the value of another one under a key. -/
def takeRegulator (s t : RegulatorSection) : RegulatorKey → RegulatorSection
  | .scalar p => t.set p (s.values p)
  | .tickPeriod => { t with tickMicros := s.tickMicros }

theorem setRegulator?_eq {s : RegulatorSection} (t : RegulatorSection) {k : RegulatorKey} {v : Toml}
    (h : regulatorToml? s k = some v) : setRegulator? t v k = some (takeRegulator s t k) := by
  cases k with
  | scalar p => cases h; rfl
  | tickPeriod => cases h; simp [setRegulator?, word?_word, takeRegulator]

theorem regulator?_fields (s : RegulatorSection) :
    regulator? (.table .header (regulatorFields s)) = some s := by
  have hsound : keyValues? (RegulatorKey.all.map RegulatorKey.name)
      (.table .header (regulatorFields s)) = some (regulatorFields s) :=
    keyValues?_fieldsOf hasWord_regulator
  have hread : ofKeys? RegulatorKey.all RegulatorKey.name setRegulator? {} (regulatorFields s) =
      some (RegulatorKey.all.foldl (takeRegulator s) {}) :=
    ofKeys?_fieldsOf nodup_regulatorKeys (fun t _ _ => setRegulator?_eq t)
      (fun _ k h => by cases k <;> cases h) _
  unfold regulator?
  rw [hsound, Option.bind_eq_bind, Option.bind_some, hread]
  refine congrArg some (regulatorSection_ext (fun p => ?_) rfl)
  cases p <;> rfl

/-- A section with the value of another one under a key, if that has one. -/
def takeLoop (s t : LoopSection) : LoopKey → LoopSection
  | .overrunMultiplier => { t with overrunMultiplier := s.overrunMultiplier }
  | .maxIterations => { t with maxIterations := s.maxIterations.or t.maxIterations }
  | .spin => { t with spin := s.spin }

theorem setLoop?_eq {s : LoopSection} (t : LoopSection) {k : LoopKey} {v : Toml}
    (h : loopToml? s k = some v) : setLoop? t v k = some (takeLoop s t k) := by
  cases k with
  | overrunMultiplier | spin => cases h; rfl
  | maxIterations =>
    obtain ⟨n, hn, rfl⟩ := Option.map_eq_some_iff.1 h
    simp [setLoop?, word?_word, takeLoop, hn]

theorem takeLoop_of_none {s : LoopSection} (t : LoopSection) {k : LoopKey}
    (h : loopToml? s k = none) : takeLoop s t k = t := by
  cases k with
  | overrunMultiplier | spin => cases h
  | maxIterations =>
    have hnone : s.maxIterations = none := Option.map_eq_none_iff.1 h
    simp [takeLoop, hnone]

theorem loop?_fields (s : LoopSection) : loop? (.table .header (loopFields s)) = some s := by
  have hsound : keyValues? (LoopKey.all.map LoopKey.name) (.table .header (loopFields s)) =
      some (loopFields s) :=
    keyValues?_fieldsOf hasWord_loop
  have hread : ofKeys? LoopKey.all LoopKey.name setLoop? {} (loopFields s) =
      some (LoopKey.all.foldl (takeLoop s) {}) :=
    ofKeys?_fieldsOf nodup_loopKeys (fun t _ _ => setLoop?_eq t) (fun t _ => takeLoop_of_none t) _
  unfold loop?
  rw [hsound, Option.bind_eq_bind, Option.bind_some, hread]
  obtain ⟨multiplier, limit, spin⟩ := s
  cases limit <;> rfl

/-! ## Texts -/

def lines (f : SettingsFile) : List Line :=
  sectionLines "regulator" (regulatorFields f.regulator) ++
    .blank :: sectionLines "loop" (loopFields f.loop)

theorem lines_sound (f : SettingsFile) : ∀ l ∈ lines f, l.Sound := by
  have hregulator : IsBareName "regulator" := ⟨List.cons_ne_nil _ _, List.all_eq_true.1 rfl⟩
  have hloop : IsBareName "loop" := ⟨List.cons_ne_nil _ _, List.all_eq_true.1 rfl⟩
  refine List.forall_mem_append.2 ⟨?_, List.forall_mem_cons.2 ⟨trivial, ?_⟩⟩
  · exact Toml.sectionLines_sound hregulator
      (sound_fieldsOf isBareName_regulator hasWord_regulator)
  · exact Toml.sectionLines_sound hloop (sound_fieldsOf isBareName_loop hasWord_loop)

theorem chars_eq (f : SettingsFile) : f.chars = (lines f).flatMap Line.chars := by
  have hsection (name : String) (fields : Fields) : (sectionLines name fields).flatMap Line.chars =
      headerLine name ++ fields.flatMap fun f => entryLine f.1 (Toml.wordOf f.2) := by
    rw [sectionLines, List.flatMap_cons, List.flatMap_map]
    rfl
  have hregulator : regulatorLines f.regulator =
      (regulatorFields f.regulator).flatMap fun f => entryLine f.1 (Toml.wordOf f.2) := by
    rw [regulatorFields, flatMap_fieldsOf]
    refine List.flatMap_congr fun k _ => ?_
    cases k <;> rfl
  have hloop : loopLines f.loop =
      (loopFields f.loop).flatMap fun f => entryLine f.1 (Toml.wordOf f.2) := by
    rw [loopFields, flatMap_fieldsOf]
    refine List.flatMap_congr fun k _ => ?_
    cases k with
    | overrunMultiplier | spin => rfl
    | maxIterations =>
      unfold loopValue? loopToml?
      cases f.loop.maxIterations <;> rfl
  rw [lines, List.flatMap_append, List.flatMap_cons, hsection, hsection, ← hregulator, ← hloop]
  rfl

theorem ofFields?_sections (f : SettingsFile) :
    ofFields? [("regulator", .table .header (regulatorFields f.regulator)),
      ("loop", .table .header (loopFields f.loop))] = some f := by
  have hregulator := regulator?_fields f.regulator
  have hloop := loop?_fields f.loop
  unfold ofFields?
  simp [others, Toml.fieldsSound, Toml.find?, hregulator, hloop]

theorem foldlM_statements (f : SettingsFile) :
    ((lines f).map Line.statement).foldlM Toml.Document.carryOut? {} =
      some ⟨[("regulator", .table .header (regulatorFields f.regulator)),
        ("loop", .table .header (loopFields f.loop))], ["loop"]⟩ := by
  have hsection (name : String) (fields : Fields) : (sectionLines name fields).map Line.statement =
      .header [name] :: fields.map fun e => .entry [e.1] e.2 := by
    rw [sectionLines, List.map_cons, List.map_map]
    rfl
  have hregulator := Toml.carryOut?_section {} (List.not_mem_nil : "regulator" ∉ [])
    (nodup_regulatorFields f.regulator)
  have hloop := Toml.carryOut?_section
    ⟨[("regulator", .table .header (regulatorFields f.regulator))], ["regulator"]⟩
    (by simp : "loop" ∉ ["regulator"]) (nodup_loopFields f.loop)
  rw [lines, List.map_append, List.map_cons, hsection, hsection, List.foldlM_append, hregulator]
  exact hloop

theorem ofText?_text (f : SettingsFile) : ofText? f.text = some f := by
  have htoml : Toml.ofChars? f.chars =
      some [("regulator", .table .header (regulatorFields f.regulator)),
        ("loop", .table .header (loopFields f.loop))] := by
    rw [chars_eq, Toml.ofChars?_lines (lines_sound f), foldlM_statements]
    rfl
  rw [ofText?, text, String.toList_ofList, ofChars?, htoml, Option.bind_eq_bind, Option.bind_some,
    ofFields?_sections]

theorem ofText_text (f : SettingsFile) : ofText f.text = .ok f := by
  rw [ofText, ofText?_text]

/-- Different files have different texts. -/
theorem text_injective : Function.Injective text := fun f g h =>
  Option.some.inj ((ofText?_text f).symm.trans (h ▸ ofText?_text g))

/-- **A settings file is read from its own text**, whatever it holds, and so means the same to a
regulator and to a loop. Scalars come back with their sign and a NaN as a NaN; numbers may use all
of their 64 bits. -/
theorem round_trip (f : SettingsFile) :
    ofText f.text = .ok f ∧
      (ofText f.text).map SettingsFile.config = .ok f.config ∧
      (ofText f.text).map SettingsFile.loopSettings = .ok f.loopSettings := by
  rw [ofText_text]
  exact ⟨rfl, rfl, rfl⟩

/-! ## Files -/

theorem load_save {path name : String} (h : Folder.place path = .file name) (f : SettingsFile)
    (d : Folder) : ((do return (← save f path, ← load path)) : StateM Folder _) d =
      ((.ok (), .ok f), d.put name f.text.toUTF8.toList) := by
  have hsave : (save f path : StateM Folder _) d = (.ok (), d.put name f.text.toUTF8.toList) := by
    unfold save
    simp only [bind, StateT.bind, Files.writeText_file h]
    rfl
  have hload : (load path : StateM Folder _) (d.put name f.text.toUTF8.toList) =
      (.ok f, d.put name f.text.toUTF8.toList) := by
    unfold load
    simp only [bind, StateT.bind, Files.readText?_put h, ofText_text]
    rfl
  simp only [bind, StateT.bind, hsave, hload]
  rfl

end BusRegen.SettingsFile
