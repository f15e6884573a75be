import BusRegen.Proofs.Json.Number
/-!
# The tokens of written JSON

A word ends only where the next character is not one of a word, so after the text of a value the
lexer may still be in a word. `Lexes` says which tokens there are if the text ends here, and
`LexesWhole` that there is nothing left to end. Punctuation makes the one into the other
(`Lexes.close`), and so the text of a value has the tokens of the value (`lexes_compact`).
-/
namespace BusRegen.Json

/-! ## Texts and their tokens -/

variable {p : Precision} {cs ds : List Char} {ts us : List Token}

/-- The tokens so far, in reverse, if the text ends here. -/
def Lexer.flush (p : Precision) (l : Lexer) : Option (List Token) :=
  match l.mode with
  | .between => some l.tokens
  | .word seen => do return .value (← word? p seen.reverse) :: l.tokens
  | _ => none

/-- From between tokens the lexer takes these tokens from the characters. -/
def Lexes (p : Precision) (cs : List Char) (ts : List Token) : Prop :=
  ∀ seen, ∃ l, cs.foldlM (Lexer.step p) ⟨seen, .between⟩ = some l ∧
    l.flush p = some (ts.reverse ++ seen)

/-- It does so and is between tokens again. -/
def LexesWhole (p : Precision) (cs : List Char) (ts : List Token) : Prop :=
  ∀ seen, cs.foldlM (Lexer.step p) ⟨seen, .between⟩ = some ⟨ts.reverse ++ seen, .between⟩

theorem LexesWhole.lexes (h : LexesWhole p cs ts) : Lexes p cs ts := fun seen => ⟨_, h seen, rfl⟩

theorem LexesWhole.append (h : LexesWhole p cs ts) (h' : LexesWhole p ds us) :
    LexesWhole p (cs ++ ds) (ts ++ us) := by
  intro seen
  rw [List.foldlM_append, h seen, List.reverse_append, List.append_assoc]
  exact h' _

theorem LexesWhole.append_lexes (h : LexesWhole p cs ts) (h' : Lexes p ds us) :
    Lexes p (cs ++ ds) (ts ++ us) := by
  intro seen
  rw [List.foldlM_append, h seen, List.reverse_append, List.append_assoc]
  exact h' _

/-- What is punctuation is no blank, no mark of text and no character of a word. -/
theorem outside_punctuation {c : Char} {t : Token} (h : punctuation? c = some t)
    (seen : List Token) :
    isWordChar c = false ∧ Lexer.outside seen c = some ⟨t :: seen, .between⟩ := by
  unfold punctuation? at h
  split at h <;> cases h <;> exact ⟨rfl, rfl⟩

theorem lexesWhole_punctuation {c : Char} {t : Token} (h : punctuation? c = some t) :
    LexesWhole p [c] [t] := by
  intro seen
  simp [Lexer.step, (outside_punctuation h seen).2]

/-- A word ends with the next punctuation. -/
theorem Lexes.close (h : Lexes p cs ts) {c : Char} {t : Token} (hc : punctuation? c = some t) :
    LexesWhole p (cs ++ [c]) (ts ++ [t]) := by
  intro seen
  obtain ⟨l, hl, hflush⟩ := h seen
  obtain ⟨hword, hout⟩ := outside_punctuation hc (ts.reverse ++ seen)
  have hstep : l.step p c = some ⟨t :: (ts.reverse ++ seen), .between⟩ := by
    unfold Lexer.flush at hflush
    split at hflush
    · next hmode =>
      have htokens := Option.some.inj hflush
      simp [Lexer.step, hmode, htokens, hout]
    · next w hmode =>
      obtain ⟨v, hv, hall⟩ := Option.bind_eq_some_iff.1 hflush
      have htokens := Option.some.inj hall
      simp [Lexer.step, hmode, hword, hv, htokens, hout]
    · cases hflush
  rw [List.foldlM_append, hl]
  simp [hstep]

theorem Lexer.finish_eq (l : Lexer) : l.finish p = (l.flush p).map List.reverse := by
  obtain ⟨tokens, mode⟩ := l
  cases mode with
  | word seen =>
    change (word? p seen.reverse).bind _ = ((word? p seen.reverse).bind _).map _
    cases word? p seen.reverse <;> rfl
  | between | text | escape | hex | half => rfl

theorem Lexes.tokens? (h : Lexes p cs ts) : tokens? p cs = some ts := by
  obtain ⟨l, hl, hflush⟩ := h []
  unfold Json.tokens?
  rw [hl]
  change l.finish p = some ts
  rw [Lexer.finish_eq, hflush, Option.map_some, List.append_nil, List.reverse_reverse]

/-! ## Words and text -/

theorem foldlM_word {seen : List Token} {before : List Char} (w : List Char)
    (h : ∀ c ∈ w, isWordChar c = true) :
    w.foldlM (Lexer.step p) ⟨seen, .word before⟩ = some ⟨seen, .word (w.reverse ++ before)⟩ := by
  induction w generalizing before with
  | nil => rfl
  | cons c w ih =>
    have hc := h c (List.mem_cons_self ..)
    have hstep : Lexer.step p ⟨seen, .word before⟩ c = some ⟨seen, .word (c :: before)⟩ := by
      simp only [Lexer.step, hc, if_true]
    rw [List.foldlM_cons, hstep, List.reverse_cons, List.append_assoc]
    exact ih fun c hc => h c (List.mem_cons_of_mem _ hc)

/-- The characters of words are none of blanks or text. -/
theorem outside_word {c : Char} (h : isWordChar c = true) (seen : List Token) :
    Lexer.outside seen c = some ⟨seen, .word [c]⟩ := by
  have hblank : isBlank c = false := by
    cases hb : isBlank c with
    | false => rfl
    | true =>
      simp only [isBlank, Bool.or_eq_true, beq_iff_eq] at hb
      rcases hb with ((rfl | rfl) | rfl) | rfl <;> exact absurd h (by decide)
  have hquote : c ≠ '"' := by
    rintro rfl
    exact absurd h (by decide)
  unfold Lexer.outside
  rw [hblank, if_neg Bool.false_ne_true, if_neg hquote, if_pos h]

theorem lexes_word {w : List Char} {v : Json} (hw : IsWord w) (h : word? p w = some v) :
    Lexes p w [.value v] := by
  intro seen
  obtain ⟨hne, hchars⟩ := hw
  cases w with
  | nil => exact absurd rfl hne
  | cons c w =>
    have hfirst := outside_word (hchars c (List.mem_cons_self ..)) seen
    refine ⟨⟨seen, .word (w.reverse ++ [c])⟩, ?_, ?_⟩
    · rw [List.foldlM_cons]
      change (Lexer.outside seen c).bind _ = _
      rw [hfirst]
      exact foldlM_word w fun c hc => hchars c (List.mem_cons_of_mem _ hc)
    · simp [Lexer.flush, h]

theorem hexValue?_digitChar {d : Nat} (h : d < 16) :
    Decimal.hexValue? (Nat.digitChar d) = some d := by
  revert d
  decide

/-- A character of text comes back from its escape. -/
theorem foldlM_escaped (seen : List Token) (before : List Char) (c : Char) :
    (escaped c).foldlM (Lexer.step p) ⟨seen, .text before⟩ = some ⟨seen, .text (c :: before)⟩ := by
  unfold escaped
  split
  · rfl
  · rfl
  · rfl
  · rfl
  · rfl
  · rfl
  · rfl
  · next hquote hslash _ _ _ _ _ =>
    split
    · next hcontrol =>
      -- Four digits, of which the first two are zeros.
      have hhigh := hexValue?_digitChar (by omega : c.toNat / 16 < 16)
      have hlow := hexValue?_digitChar (by omega : c.toNat % 16 < 16)
      have hzero : Decimal.hexValue? '0' = some 0 := rfl
      have hcode : c.toNat / 16 * 16 + c.toNat % 16 = c.toNat := by omega
      have hunit : Lexer.codeUnit seen before none c.toNat = some ⟨seen, .text (c :: before)⟩ := by
        unfold Lexer.codeUnit
        simp only
        rw [if_neg (by omega), if_neg (by omega), Char.ofNat_toNat]
      simp [Lexer.step, hhigh, hlow, hzero, hcode, hunit]
    · next hprintable =>
      have hstep : Lexer.step p ⟨seen, .text before⟩ c = some ⟨seen, .text (c :: before)⟩ := by
        simp only [Lexer.step, if_neg hprintable]
        rw [if_neg hquote, if_neg hslash]
      rw [List.foldlM_cons, hstep]
      rfl

theorem lexesWhole_textChars (s : String) : LexesWhole p (textChars s) [.value (.text s)] := by
  intro seen
  have htext (cs before : List Char) : (cs.flatMap escaped).foldlM (Lexer.step p)
      ⟨seen, .text before⟩ = some ⟨seen, .text (cs.reverse ++ before)⟩ := by
    induction cs generalizing before with
    | nil => rfl
    | cons c cs ih =>
      rw [List.flatMap_cons, List.foldlM_append, foldlM_escaped, List.reverse_cons,
        List.append_assoc]
      exact ih (c :: before)
  rw [textChars, List.foldlM_cons]
  change ((s.toList.flatMap escaped ++ ['"']).foldlM (Lexer.step p) ⟨seen, .text []⟩) = _
  rw [List.foldlM_append, htext, List.append_nil]
  simp [Lexer.step]

end BusRegen.Json
