import BusRegen.Toml.Reader
import BusRegen.Proofs.Toml.Word
/-!
# TOML texts that are written line by line

A line is empty, a header of one name, or a bare key with a word for its value. The lexer is
between tokens at both ends of such a line, so the tokens of a text are those of its lines
(`Lexes.flatMap`), a statement each. A text of lines is therefore read as if their statements were
carried out one after the other (`ofChars?_lines`), and a header with its entries makes one table
at the end of the document (`carryOut?_section`).
-/
namespace BusRegen.Toml

/-! ## Lines -/

inductive Line where
  | blank
  | header (name : String)
  /-- A key, the word of its value and what it is read as. -/
  | entry (key : String) (word : List Char) (value : Toml)

namespace Line

def chars : Line → List Char
  | blank => ['\n']
  | header name => '[' :: (name.toList ++ [']', '\n'])
  | entry key word _ => key.toList ++ ' ' :: '=' :: ' ' :: (word ++ ['\n'])

/-- The tokens of a line but for its end. -/
def tokens : Line → List Token
  | blank => []
  | header name => [.openBracket, .word name.toList, .closeBracket]
  | entry key word _ => [.word key.toList, .space, .equals, .space, .word word]

def statement : Line → Statement
  | blank => .nothing
  | header name => .header [name]
  | entry key _ value => .entry [key] value

end Line

/-- A name that need not be quoted. -/
def IsBareName (s : String) : Prop := s.toList ≠ [] ∧ ∀ c ∈ s.toList, isBare c = true

/-- A word that is read as a value. -/
structure Spells (word : List Char) (value : Toml) : Prop where
  ne_nil : word ≠ []
  plain : ∀ c ∈ word, Lexer.endsWord c = false
  isDate : isDate word = false
  read : word? word = some value

/-- What is needed of the parts of a line. -/
def Line.Sound : Line → Prop
  | blank => True
  | header name => IsBareName name
  | entry key word value => IsBareName key ∧ Spells word value

/-! ## Tokens -/

/-- From between tokens the lexer takes these tokens from the characters and is between tokens
again. -/
def Lexes (cs : List Char) (ts : List Token) : Prop :=
  ∀ seen, cs.foldlM Lexer.step ⟨seen, .between⟩ = some ⟨ts.reverse ++ seen, .between⟩

namespace Lexes

variable {cs ds : List Char} {ts us : List Token}

theorem nil : Lexes [] [] := fun _ => rfl

theorem append (h : Lexes cs ts) (h' : Lexes ds us) : Lexes (cs ++ ds) (ts ++ us) := by
  intro seen
  rw [List.foldlM_append, h seen, List.reverse_append, List.append_assoc]
  exact h' _

theorem flatMap {α : Type} {chars : α → List Char} {tokens : α → List Token} {xs : List α}
    (h : ∀ x ∈ xs, Lexes (chars x) (tokens x)) : Lexes (xs.flatMap chars) (xs.flatMap tokens) := by
  induction xs with
  | nil => exact nil
  | cons x xs ih =>
    exact (h x (List.mem_cons_self ..)).append (ih fun y hy => h y (List.mem_cons_of_mem _ hy))

theorem tokens? (h : Lexes cs ts) : Toml.tokens? cs = some ts := by
  unfold Toml.tokens?
  rw [h []]
  simp [Lexer.finish]

theorem punctuation {c : Char} {t : Token} (h : punctuation? c = some t) : Lexes [c] [t] := by
  intro seen
  simp [Lexer.step, Lexer.outside, h]

/-- In a word the lexer keeps its characters. -/
theorem foldlM_word {seen : List Token} {before : List Char} (w : List Char)
    (h : ∀ c ∈ w, Lexer.endsWord c = false) :
    w.foldlM Lexer.step ⟨seen, .word before⟩ = some ⟨seen, .word (w.reverse ++ before)⟩ := by
  induction w generalizing before with
  | nil => rfl
  | cons c w ih =>
    have hc := h c (List.mem_cons_self ..)
    rw [List.foldlM_cons]
    simp only [Lexer.step, hc, Bool.false_eq_true, if_false, Option.bind_eq_bind, Option.bind_some]
    rw [ih fun c hc => h c (List.mem_cons_of_mem _ hc), List.reverse_cons, List.append_assoc]
    rfl

/-- A word ends with the next punctuation. -/
theorem word {w : List Char} (hne : w ≠ []) (h : ∀ c ∈ w, Lexer.endsWord c = false) {c : Char}
    {t : Token} (hc : punctuation? c = some t) : Lexes (w ++ [c]) [.word w, t] := by
  intro seen
  cases w with
  | nil => exact absurd rfl hne
  | cons a w =>
    have ha := h a (List.mem_cons_self ..)
    have hfirst : Lexer.outside seen a = ⟨seen, .word [a]⟩ := by
      simp only [Lexer.endsWord, Bool.or_eq_false_iff, beq_eq_false_iff_ne,
        Option.isSome_eq_false_iff, Option.isNone_iff_eq_none] at ha
      obtain ⟨⟨⟨⟨hnone, hbasic⟩, hliteral⟩, hcomment⟩, hreturn⟩ := ha
      simp only [Lexer.outside, hnone, hbasic, hliteral, hcomment, hreturn, if_false]
    have hends : Lexer.endsWord c = true := by
      simp [Lexer.endsWord, hc]
    rw [List.cons_append, List.foldlM_cons]
    simp only [Lexer.step, hfirst, Option.bind_eq_bind, Option.bind_some]
    rw [List.foldlM_append, foldlM_word w fun c hc => h c (List.mem_cons_of_mem _ hc)]
    simp [Lexer.step, hends, Lexer.outside, hc]

end Lexes

/-- The characters that end a word. -/
theorem mem_of_endsWord {c : Char} (h : Lexer.endsWord c = true) :
    c ∈ ['[', ']', '\x7b', '\x7d', ',', '=', ' ', '\t', '\n', '"', '\'', '#', '\r'] := by
  unfold Lexer.endsWord punctuation? at h
  split at h <;> simp_all [or_assoc]

theorem endsWord_eq_false {p : Char → Bool}
    (h : ['[', ']', '\x7b', '\x7d', ',', '=', ' ', '\t', '\n', '"', '\'', '#', '\r'].all
      (!p ·) = true)
    {c : Char} (hc : p c = true) : Lexer.endsWord c = false := by
  cases he : Lexer.endsWord c with
  | false => rfl
  | true =>
    have hnot := List.all_eq_true.1 h c (mem_of_endsWord he)
    simp [hc] at hnot

theorem endsWord_of_isBare {c : Char} (h : isBare c = true) : Lexer.endsWord c = false :=
  endsWord_eq_false (by rfl) h

namespace Line

/-- Where a line ends there is a newline. -/
theorem lexes {l : Line} (h : l.Sound) : Lexes l.chars (l.tokens ++ [.newline]) := by
  cases l with
  | blank => exact .punctuation rfl
  | header name =>
    obtain ⟨hne, hbare⟩ := h
    have hname := Lexes.word hne (fun c hc => endsWord_of_isBare (hbare c hc))
      (c := ']') (t := .closeBracket) rfl
    have hline := ((Lexes.punctuation (c := '[') rfl).append hname).append
      (.punctuation (c := '\n') rfl)
    simpa only [chars, tokens, List.append_assoc, List.cons_append, List.nil_append] using hline
  | entry key word value =>
    obtain ⟨⟨hne, hbare⟩, hvalue⟩ := h
    have hkey := Lexes.word hne (fun c hc => endsWord_of_isBare (hbare c hc))
      (c := ' ') (t := .space) rfl
    have hword := Lexes.word hvalue.ne_nil hvalue.plain (c := '\n') (t := .newline) rfl
    have hline := ((hkey.append (.punctuation (c := '=') rfl)).append
      (.punctuation (c := ' ') rfl)).append hword
    simpa only [chars, tokens, List.append_assoc, List.cons_append, List.nil_append] using hline

/-! ## Statements -/

theorem cut_line (l : Line) (rest : List Token) :
    cut 0 [] (l.tokens ++ .newline :: rest) = l.tokens :: cut 0 [] rest := by
  cases l <;> rfl

/-- The tokens of lines are cut at the ends of the lines. Nothing is after the last one. -/
theorem cut_lines (ls : List Line) :
    cut 0 [] (ls.flatMap fun l => l.tokens ++ [.newline]) = ls.map tokens ++ [[]] := by
  induction ls with
  | nil => rfl
  | cons l ls ih =>
    rw [List.flatMap_cons, List.append_assoc, List.singleton_append, cut_line, ih]
    rfl

theorem wordItems?_bare {seen cs : List Char} (h : ∀ c ∈ cs, isBare c = true) :
    wordItems? seen cs = barePart? (cs.reverse ++ seen) := by
  induction cs generalizing seen with
  | nil => rfl
  | cons c cs ih =>
    have hc : c ≠ '.' := by
      rintro rfl
      exact absurd (h '.' (List.mem_cons_self ..)) (by decide)
    rw [wordItems?, if_neg hc, ih fun c hc => h c (List.mem_cons_of_mem _ hc), List.reverse_cons,
      List.append_assoc]
    rfl

theorem tokenItems?_bare {name : String} (h : IsBareName name) :
    tokenItems? (.word name.toList) = some [.part name] := by
  obtain ⟨hne, hbare⟩ := h
  have hall : name.toList.reverse.all isBare = true := by
    rw [List.all_reverse, List.all_eq_true]
    exact hbare
  rw [tokenItems?, wordItems?_bare hbare, List.append_nil, barePart?, if_neg (by simpa using hne),
    if_pos hall, List.reverse_reverse, String.ofList_toList]

theorem ofTokens?_tokens {l : Line} (h : l.Sound) :
    Statement.ofTokens? l.tokens = some l.statement := by
  cases l with
  | blank => rfl
  | header name =>
    have hpath : path? [.word name.toList] = some [name] := by
      unfold path?
      simp [tokenItems?_bare h, alternate?, pathLimit]
    change (path? [.word name.toList]).bind (fun p => some (Statement.header p)) = _
    rw [hpath]
    rfl
  | entry key word value =>
    obtain ⟨hkey, hvalue⟩ := h
    have hpath : path? [.word key.toList, .space] = some [key] := by
      unfold path?
      have hspace : tokenItems? .space = some [] := rfl
      simp [tokenItems?_bare hkey, hspace, alternate?, pathLimit]
    have hread : value? [.space, .word word] = some value := by
      simp [value?, Builder.step, Builder.begin?, Builder.complete?, Builder.finish, Token.isGap,
        Token.isBlank, hvalue.isDate, hvalue.read]
    change (path? [.word key.toList, .space]).bind (fun p =>
      (value? [.space, .word word]).bind fun v => some (Statement.entry p v)) = _
    rw [hpath, hread]
    rfl

end Line

/-! ## Documents -/

theorem ofTokens?_lines {ls : List Line} (h : ∀ l ∈ ls, l.Sound) :
    (tokens? (ls.flatMap Line.chars)).bind ofTokens? =
      ((ls.map Line.statement).foldlM Document.carryOut? {}).map Document.root := by
  have hlast : [[]].mapM Statement.ofTokens? = some [.nothing] := rfl
  rw [(Lexes.flatMap fun l hl => Line.lexes (h l hl)).tokens?, Option.bind_some, ofTokens?,
    Line.cut_lines, List.mapM_append, mapM_map_of_some fun l hl => Line.ofTokens?_tokens (h l hl),
    hlast]
  simp only [Option.bind_eq_bind, Option.bind_some, Option.pure_def, List.foldlM_append]
  cases (ls.map Line.statement).foldlM Document.carryOut? {} with
  | none => rfl
  | some d => rfl

/-- Lines do not begin with a byte order mark. -/
theorem afterMark_lines {ls : List Line} (h : ∀ l ∈ ls, l.Sound) :
    afterMark (ls.flatMap Line.chars) = ls.flatMap Line.chars := by
  have hname {cs rest : List Char} (hne : cs ≠ []) (hbare : ∀ c ∈ cs, isBare c = true) :
      afterMark (cs ++ rest) = cs ++ rest := by
    cases cs with
    | nil => exact absurd rfl hne
    | cons c cs =>
      have hc := hbare c (List.mem_cons_self ..)
      rw [List.cons_append]
      unfold afterMark
      split
      · next heq =>
        rw [(List.cons.inj heq).1] at hc
        exact absurd hc (by decide)
      · rfl
  cases ls with
  | nil => rfl
  | cons l ls =>
    have hl := h l (List.mem_cons_self ..)
    rw [List.flatMap_cons]
    cases l with
    | blank => rfl
    | header name => rfl
    | entry key word value =>
      rw [Line.chars, List.append_assoc]
      exact hname hl.1.1 hl.1.2

/-- The text of lines is read as their statements, carried out in order. -/
theorem ofChars?_lines {ls : List Line} (h : ∀ l ∈ ls, l.Sound) :
    ofChars? (ls.flatMap Line.chars) =
      ((ls.map Line.statement).foldlM Document.carryOut? {}).map Document.root := by
  rw [ofChars?, afterMark_lines h]
  exact ofTokens?_lines h

/-! ## Sections -/

theorem find?_eq_none {key : String} {fs : Fields} (h : key ∉ fs.map (·.1)) :
    find? key fs = none := by
  induction fs with
  | nil => rfl
  | cons f fs ih =>
    rw [List.map_cons, List.mem_cons, not_or] at h
    exact (if_neg (Ne.symm h.1)).trans (ih h.2)

/-- A key that is not there yet comes after the others. -/
theorem alter?_append {change : Option Toml → Option Toml} {key : String} {fs gs : Fields}
    (h : key ∉ fs.map (·.1)) :
    alter? change key (fs ++ gs) = (alter? change key gs).map (fs ++ ·) := by
  induction fs with
  | nil => simp
  | cons f fs ih =>
    obtain ⟨k, v⟩ := f
    rw [List.map_cons, List.mem_cons, not_or] at h
    rw [List.cons_append, alter?, if_neg (Ne.symm h.1), ih h.2]
    cases alter? change key gs <;> rfl

theorem alter?_singleton {change : Option Toml → Option Toml} {key : String} {v : Toml} :
    alter? change key [(key, v)] = (change (some v)).map fun w => [(key, w)] := by
  rw [alter?, if_pos rfl]
  cases change (some v) <;> rfl

theorem alter?_new {change : Option Toml → Option Toml} {key : String} {fs : Fields}
    (h : key ∉ fs.map (·.1)) :
    alter? change key fs = (change none).map fun v => fs ++ [(key, v)] := by
  have happend : alter? change key (fs ++ []) = _ := alter?_append h
  rw [List.append_nil] at happend
  rw [happend, alter?]
  cases change none <;> rfl

/-- A header makes a table at the end of the document. -/
theorem carryOut?_header {d : Document} {name : String} (h : name ∉ d.root.map (·.1)) :
    d.carryOut? (.header [name]) = some ⟨d.root ++ [(name, .table .header [])], [name]⟩ := by
  change (alter? openTable name d.root).bind (fun root => some (Document.mk root [name])) = _
  rw [alter?_new h]
  rfl

/-- An entry with a new key is added at the end of that table. -/
theorem carryOut?_entry {root fs : Fields} {name key : String} {v : Toml}
    (h : name ∉ root.map (·.1)) (hk : key ∉ fs.map (·.1)) :
    Document.carryOut? ⟨root ++ [(name, .table .header fs)], [name]⟩ (.entry [key] v) =
      some ⟨root ++ [(name, .table .header (fs ++ [(key, v)]))], [name]⟩ := by
  have hput : put? v [key] fs = some (fs ++ [(key, v)]) := alter?_new hk
  have hwithin : within? (put? v [key]) [name] (root ++ [(name, .table .header fs)]) =
      some (root ++ [(name, .table .header (fs ++ [(key, v)]))]) := by
    rw [within?, alter?_append h, alter?_singleton]
    simp [within?, hput]
  simp only [Document.carryOut?, hwithin, Option.bind_eq_bind, Option.bind_some, Option.pure_def]

theorem carryOut?_entries {root fs entries : Fields} {name : String}
    (h : name ∉ root.map (·.1)) (hkeys : ((fs ++ entries).map (·.1)).Nodup) :
    (entries.map fun e => Statement.entry [e.1] e.2).foldlM Document.carryOut?
        ⟨root ++ [(name, .table .header fs)], [name]⟩ =
      some ⟨root ++ [(name, .table .header (fs ++ entries))], [name]⟩ := by
  induction entries generalizing fs with
  | nil => simp
  | cons e entries ih =>
    obtain ⟨key, v⟩ := e
    have hk : key ∉ fs.map (·.1) := by
      rw [List.map_append, List.map_cons, List.nodup_append] at hkeys
      intro hmem
      exact hkeys.2.2 key hmem key (List.mem_cons_self ..) rfl
    rw [List.append_cons fs] at hkeys ⊢
    rw [List.map_cons, List.foldlM_cons, carryOut?_entry h hk]
    exact ih hkeys

/-- A header and entries with different keys make one table. -/
theorem carryOut?_section (d : Document) {name : String} (h : name ∉ d.root.map (·.1))
    {entries : Fields} (hkeys : (entries.map (·.1)).Nodup) :
    (Statement.header [name] :: entries.map fun e => .entry [e.1] e.2).foldlM
        Document.carryOut? d =
      some ⟨d.root ++ [(name, .table .header entries)], [name]⟩ := by
  rw [List.foldlM_cons, carryOut?_header h]
  exact carryOut?_entries h hkeys

/-! ## Values with a word -/

/-- The word of a scalar, of a number that is not negative, or of a flag. -/
def wordOf : Toml → List Char
  | .scalar x => NumberStyle.marked.chars x
  | .integer n => Decimal.digits n.toNat
  | .flag b => Flag.chars b
  | _ => []

theorem endsWord_of_isDigit {c : Char} (h : Decimal.isDigit c = true) : Lexer.endsWord c = false :=
  endsWord_eq_false (by rfl) h

theorem spells_scalar (x : Float) : Spells (NumberStyle.marked.chars x) (.scalar x) where
  ne_nil := by
    obtain ⟨n, cs, hchars, -, ⟨c, hc, -⟩, -⟩ := marked_chars x
    rw [hchars]
    cases n with
    | true => exact List.cons_ne_nil _ _
    | false => exact List.ne_nil_of_mem hc
  plain := by
    obtain ⟨n, cs, hchars, hplain, -⟩ := marked_chars x
    have hbody : ∀ c ∈ cs, Lexer.endsWord c = false :=
      fun c hc => endsWord_eq_false (p := isScalarChar) (by rfl) (hplain c hc)
    rw [hchars]
    cases n with
    | true => exact List.forall_mem_cons.2 ⟨by decide, hbody⟩
    | false => exact hbody
  isDate := isDate_chars x
  read := word?_chars x

theorem spells_digits {n : Nat} (h : n < 2 ^ 128) : Spells (Decimal.digits n) (.integer n) where
  ne_nil := Decimal.digits_ne_nil n
  plain c hc := endsWord_of_isDigit (Decimal.isDigit_of_mem_digits n c hc)
  isDate := isDate_digits n
  read := word?_digits h

theorem spells_flag (b : Bool) : Spells (Flag.chars b) (.flag b) where
  ne_nil := by cases b <;> exact List.cons_ne_nil _ _
  plain c hc := by
    have hall : (Flag.chars b).all (!Lexer.endsWord ·) = true := by cases b <;> rfl
    simpa using List.all_eq_true.1 hall c hc
  isDate := by cases b <;> rfl
  read := word?_flag b

/-- The values that have such a word: any scalar and flag, and the numbers of 64 bits. -/
inductive HasWord : Toml → Prop where
  | scalar (x : Float) : HasWord (.scalar x)
  | word (n : UInt64) : HasWord (.integer n.toNat)
  | flag (b : Bool) : HasWord (.flag b)

theorem HasWord.spells {v : Toml} (h : HasWord v) : Spells (wordOf v) v := by
  cases h with
  | scalar x => exact spells_scalar x
  | word n => exact spells_digits (n.toNat_lt.trans (by decide))
  | flag b => exact spells_flag b

theorem HasWord.isSound {v : Toml} (h : HasWord v) : isSound v = true := by
  cases h <;> rfl

/-- A header and a line for each field. -/
def sectionLines (name : String) (fields : Fields) : List Line :=
  .header name :: fields.map fun f => .entry f.1 (wordOf f.2) f.2

theorem sectionLines_sound {name : String} {fields : Fields} (hname : IsBareName name)
    (h : ∀ f ∈ fields, IsBareName f.1 ∧ HasWord f.2) : ∀ l ∈ sectionLines name fields, l.Sound := by
  refine List.forall_mem_cons.2 ⟨hname, List.forall_mem_map.2 fun f hf => ?_⟩
  exact ⟨(h f hf).1, (h f hf).2.spells⟩

end BusRegen.Toml
