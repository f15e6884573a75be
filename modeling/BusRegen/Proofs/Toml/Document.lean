import BusRegen.Proofs.Toml.Line
/-!
# TOML texts of whole documents

A written document has entries before its first header and then tables, each with a header and its
own entries. Names and words are as they stand in the text, in any order. If no name is given twice
where it counts, the text is read as the table of all entries and tables (`Written.ofChars?_chars`).
-/
namespace BusRegen.Toml

/-! ## Written documents -/

theorem IsBareName.of_all {s : String} {c : Char} {rest : List Char} (h : s.toList = c :: rest)
    (hall : s.toList.all isBare = true) : IsBareName s :=
  ⟨h ▸ List.cons_ne_nil c rest, List.all_eq_true.1 hall⟩

/-- A key, the word of its value and what that is read as. -/
structure Entry where
  key : String
  word : List Char
  value : Toml

namespace Entry

def line (e : Entry) : Line := .entry e.key e.word e.value

def field (e : Entry) : String × Toml := (e.key, e.value)

/-- An entry with the word that its value is written with. -/
def ofValue (key : String) (value : Toml) : Entry := ⟨key, wordOf value, value⟩

end Entry

theorem Line.Sound.ofValue {key : String} {value : Toml} (hkey : IsBareName key)
    (hvalue : HasWord value) : (Entry.ofValue key value).line.Sound := ⟨hkey, hvalue.spells⟩

/-- A document as it is written. -/
structure Written where
  /-- The entries before the first header. -/
  entries : List Entry
  sections : List (String × List Entry)

namespace Written

def sectionLines (s : String × List Entry) : List Line := .header s.1 :: s.2.map Entry.line

def lines (w : Written) : List Line := w.entries.map Entry.line ++ w.sections.flatMap sectionLines

def text (w : Written) : String := String.ofList (w.lines.flatMap Line.chars)

def table (s : String × List Entry) : String × Toml := (s.1, .table .header (s.2.map Entry.field))

/-- What the document says. -/
def root (w : Written) : Fields := w.entries.map Entry.field ++ w.sections.map table

/-- Names need no quotes, words are those of their values, and no name is given twice. -/
structure Sound (w : Written) : Prop where
  entries : ∀ e ∈ w.entries, e.line.Sound
  names : ∀ s ∈ w.sections, IsBareName s.1
  sections : ∀ s ∈ w.sections, ∀ e ∈ s.2, e.line.Sound
  keys : ∀ s ∈ w.sections, (s.2.map Entry.key).Nodup
  nodup : (w.root.map (·.1)).Nodup

variable {w : Written}

theorem Sound.lines (h : w.Sound) : ∀ l ∈ w.lines, l.Sound := by
  intro l hl
  rcases List.mem_append.1 hl with hl | hl
  · obtain ⟨e, he, rfl⟩ := List.mem_map.1 hl
    exact h.entries e he
  · obtain ⟨s, hs, hl⟩ := List.mem_flatMap.1 hl
    rcases List.mem_cons.1 hl with rfl | hl
    · exact h.names s hs
    · obtain ⟨e, he, rfl⟩ := List.mem_map.1 hl
      exact h.sections s hs e he

/-- Before the first header entries belong to the document itself. -/
theorem carryOut?_entries {root : Fields} {entries : List Entry}
    (h : ((root ++ entries.map Entry.field).map (·.1)).Nodup) :
    ((entries.map Entry.line).map Line.statement).foldlM Document.carryOut? ⟨root, []⟩ =
      some ⟨root ++ entries.map Entry.field, []⟩ := by
  induction entries generalizing root with
  | nil => simp
  | cons e entries ih =>
    have hnew : e.key ∉ root.map (·.1) := by
      rw [List.map_cons, List.map_append, List.map_cons, List.nodup_append] at h
      exact fun hmem => h.2.2 _ hmem _ (List.mem_cons_self ..) rfl
    have hstep : Document.carryOut? ⟨root, []⟩ e.line.statement =
        some ⟨root ++ [e.field], []⟩ := by
      change (alter? (insertNew e.value) e.key root).bind (fun root => some (Document.mk root [])) = _
      rw [alter?_new hnew]
      rfl
    rw [List.map_cons, List.append_cons] at h
    rw [List.map_cons, List.map_cons, List.foldlM_cons, hstep, List.map_cons,
      List.append_cons root _ (entries.map Entry.field)]
    exact ih h

/-- Every section is a table at the end of what was there before. -/
theorem carryOut?_sections {d : Document} {sections : List (String × List Entry)}
    (hkeys : ∀ s ∈ sections, (s.2.map Entry.key).Nodup)
    (h : ((d.root ++ sections.map table).map (·.1)).Nodup) :
    ∃ d', ((sections.flatMap sectionLines).map Line.statement).foldlM Document.carryOut? d =
      some d' ∧ d'.root = d.root ++ sections.map table := by
  induction sections generalizing d with
  | nil => exact ⟨d, rfl, (List.append_nil _).symm⟩
  | cons s sections ih =>
    rw [List.forall_mem_cons] at hkeys
    have hnew : s.1 ∉ d.root.map (·.1) := by
      rw [List.map_cons, List.map_append, List.map_cons, List.nodup_append] at h
      exact fun hmem => h.2.2 _ hmem _ (List.mem_cons_self ..) rfl
    have hfields : ((s.2.map Entry.field).map (·.1)).Nodup := by
      rw [List.map_map]
      exact hkeys.1
    have hstatements : (sectionLines s).map Line.statement =
        .header [s.1] :: (s.2.map Entry.field).map fun e => .entry [e.1] e.2 := by
      rw [sectionLines, List.map_cons, List.map_map, List.map_map]
      rfl
    rw [List.map_cons, List.append_cons] at h
    obtain ⟨d', hd', hroot⟩ := ih (d := ⟨d.root ++ [table s], [s.1]⟩) hkeys.2 h
    refine ⟨d', ?_, by rw [hroot, List.map_cons, ← List.append_cons]⟩
    rw [List.flatMap_cons, List.map_append, List.foldlM_append, hstatements,
      carryOut?_section d hnew hfields]
    exact hd'

/-- The text of a written document is read as what it says. -/
theorem ofChars?_text (h : w.Sound) : ofChars? w.text.toList = some w.root := by
  have hentries : ((w.entries.map Entry.line).map Line.statement).foldlM Document.carryOut? {} =
      some ⟨w.entries.map Entry.field, []⟩ := by
    have hnodup := h.nodup
    rw [root, List.map_append, List.nodup_append] at hnodup
    exact carryOut?_entries hnodup.1
  obtain ⟨d, hd, hroot⟩ := carryOut?_sections (d := ⟨w.entries.map Entry.field, []⟩) h.keys h.nodup
  rw [text, String.toList_ofList, ofChars?_lines h.lines, Written.lines, List.map_append,
    List.foldlM_append]
  change ((_ : Option Document).bind _).map _ = _
  rw [hentries, Option.bind_some, hd, Option.map_some, hroot]
  rfl

end Written
end BusRegen.Toml
