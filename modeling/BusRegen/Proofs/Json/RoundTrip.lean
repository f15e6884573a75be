import BusRegen.Json.Reader
import BusRegen.Proofs.Json.Lexer
/-!
# JSON values are read as they were written

The tokens of the text of a value are those of the value (`lexes_compact`), and from these the
builder makes the value again, inside whatever is open already (`foldlM_tokens`). So a value is
read from its compact text (`ofChars?_compact`) if it is not nested too deeply, its integers fit 64
bits and a sign, and the reader finds its scalars in their texts.
-/
namespace BusRegen.Json

variable {p : Precision}

mutual

/-- The tokens of a value. -/
def tokensOf : Json → List Token
  | array items => .openArray :: (itemTokens items ++ [.closeArray])
  | object fields => .openObject :: (fieldTokens fields ++ [.closeObject])
  | v => [.value v]

def itemTokens : List Json → List Token
  | [] => []
  | [v] => tokensOf v
  | v :: rest => tokensOf v ++ .comma :: itemTokens rest

def fieldTokens : List (String × Json) → List Token
  | [] => []
  | [(k, v)] => .value (.text k) :: .colon :: tokensOf v
  | (k, v) :: rest => .value (.text k) :: .colon :: (tokensOf v ++ .comma :: fieldTokens rest)

end

mutual

/-- Whether the words of a value are read as what they stand for. -/
def isReadable (p : Precision) : Json → Bool
  | integer n => n.natAbs < 2 ^ 64
  | scalar x => readsBack p x
  | array items => areReadable p items
  | object fields => fieldsReadable p fields
  | null | bool _ | text _ => true

def areReadable (p : Precision) : List Json → Bool
  | [] => true
  | v :: rest => isReadable p v && areReadable p rest

def fieldsReadable (p : Precision) : List (String × Json) → Bool
  | [] => true
  | (_, v) :: rest => isReadable p v && fieldsReadable p rest

end

mutual

/-- How many arrays and objects are open at most. -/
def depth : Json → Nat
  | array items => itemsDepth items + 1
  | object fields => fieldsDepth fields + 1
  | _ => 0

def itemsDepth : List Json → Nat
  | [] => 0
  | v :: rest => max (depth v) (itemsDepth rest)

def fieldsDepth : List (String × Json) → Nat
  | [] => 0
  | (_, v) :: rest => max (depth v) (fieldsDepth rest)

end

/-! ## From texts to tokens -/

mutual

theorem lexes_compact (v : Json) (h : v.isReadable p = true) : Lexes p v.compact v.tokensOf := by
  cases v with
  | null => exact lexes_word ⟨List.cons_ne_nil _ _, List.all_eq_true.1 rfl⟩ rfl
  | bool b =>
    refine lexes_word ⟨by cases b <;> exact List.cons_ne_nil _ _, ?_⟩ ?_
    · cases b <;> exact List.all_eq_true.1 rfl
    · cases b <;> rfl
  | integer n => exact lexes_word (isWord_integerChars n) (word?_integerChars (of_decide_eq_true h))
  | scalar x => exact lexes_word (isWord_scalarChars x) (word?_scalarChars h)
  | text s => exact (lexesWhole_textChars s).lexes
  | array items =>
    have hopen := lexesWhole_punctuation (p := p) (c := '[') rfl
    exact (hopen.append ((lexes_items items h).close (c := ']') rfl)).lexes
  | object fields =>
    have hopen := lexesWhole_punctuation (p := p) (c := '\x7b') rfl
    exact (hopen.append ((lexes_fields fields h).close (c := '\x7d') rfl)).lexes

theorem lexes_items (items : List Json) (h : areReadable p items = true) :
    Lexes p (compactItems items) (itemTokens items) := by
  cases items with
  | nil => exact fun seen => ⟨_, rfl, rfl⟩
  | cons v rest =>
    rw [areReadable, Bool.and_eq_true] at h
    have hv := lexes_compact v h.1
    cases rest with
    | nil => exact hv
    | cons w rest =>
      have hall := (hv.close (c := ',') rfl).append_lexes (lexes_items (w :: rest) h.2)
      rw [List.append_assoc, List.append_assoc] at hall
      exact hall

theorem lexes_fields (fields : List (String × Json)) (h : fieldsReadable p fields = true) :
    Lexes p (compactFields fields) (fieldTokens fields) := by
  cases fields with
  | nil => exact fun seen => ⟨_, rfl, rfl⟩
  | cons f rest =>
    obtain ⟨k, v⟩ := f
    rw [fieldsReadable, Bool.and_eq_true] at h
    have hv := lexes_compact v h.1
    have hkey := (lexesWhole_textChars (p := p) k).append (lexesWhole_punctuation (c := ':') rfl)
    cases rest with
    | nil =>
      have hall := hkey.append_lexes hv
      rw [List.append_assoc, List.append_assoc] at hall
      exact hall
    | cons w rest =>
      have hall := hkey.append_lexes
        ((hv.close (c := ',') rfl).append_lexes (lexes_fields (w :: rest) h.2))
      rw [List.append_assoc, List.append_assoc, List.append_assoc, List.append_assoc] at hall
      exact hall

end

/-! ## From tokens to values -/

/-- A value may come next. -/
def TakesValue (e : Expect) : Prop := e = .value ∨ e = .valueOrClose

/-- A key may come next. -/
def TakesKey (e : Expect) : Prop := e = .key ∨ e = .keyOrClose

namespace Builder

theorem close_eq_none {t : Token} (h : t ≠ .closeArray ∧ t ≠ .closeObject) (frames : List Frame) :
    close frames t = none := by
  cases frames with
  | nil => rfl
  | cons f _ =>
    cases f with
    | array => cases t <;> first | rfl | exact absurd rfl h.1
    | object => cases t <;> first | rfl | exact absurd rfl h.2

/-- Where a value may come next, all tokens but a closing mark are taken for its first. -/
theorem step_eq_begin {e : Expect} (he : TakesValue e) {t : Token}
    (h : t ≠ .closeArray ∧ t ≠ .closeObject) (frames : List Frame) :
    step ⟨frames, e⟩ t = begin frames t := by
  rcases he with rfl | rfl
  · rfl
  · simp only [step, close_eq_none h, Option.none_or]

section
variable {e : Expect} (he : TakesValue e) {frames : List Frame}
include he

theorem step_value (v : Json) : step ⟨frames, e⟩ (.value v) = some (complete frames v) :=
  step_eq_begin he ⟨Token.noConfusion, Token.noConfusion⟩ frames

theorem step_openArray (h : frames.length + 1 < depthLimit) :
    step ⟨frames, e⟩ .openArray = some ⟨.array [] :: frames, .valueOrClose⟩ :=
  (step_eq_begin he ⟨Token.noConfusion, Token.noConfusion⟩ frames).trans (if_pos h)

theorem step_openObject (h : frames.length + 1 < depthLimit) :
    step ⟨frames, e⟩ .openObject = some ⟨.object [] "" :: frames, .keyOrClose⟩ :=
  (step_eq_begin he ⟨Token.noConfusion, Token.noConfusion⟩ frames).trans (if_pos h)

end

theorem step_key {e : Expect} (he : TakesKey e) (frames : List Frame)
    (done : List (String × Json)) (before k : String) :
    step ⟨.object done before :: frames, e⟩ (.value (.text k)) =
      some ⟨.object done k :: frames, .colon⟩ := by
  rcases he with rfl | rfl <;> rfl

end Builder

mutual

/-- From the tokens of a value the builder makes the value. -/
theorem foldlM_tokens (v : Json) {frames : List Frame} {e : Expect} (he : TakesValue e)
    (h : frames.length + v.depth < Builder.depthLimit) :
    v.tokensOf.foldlM Builder.step ⟨frames, e⟩ = some (Builder.complete frames v) := by
  cases v with
  | null | bool | integer | scalar | text =>
    rw [tokensOf, List.foldlM_cons, Builder.step_value he]
    · rfl
    all_goals simp
  | array items =>
    rw [depth] at h
    rw [tokensOf, List.foldlM_cons, Builder.step_openArray he (by omega)]
    change ((itemTokens items ++ [Token.closeArray]).foldlM Builder.step _) = _
    cases items with
    | nil => rfl
    | cons v rest =>
      rw [List.foldlM_append, foldlM_items (v :: rest) (List.cons_ne_nil v rest) [] (.inr rfl)
        (by omega), List.append_nil]
      change some (Builder.complete frames (.array (v :: rest).reverse.reverse)) = _
      rw [List.reverse_reverse]
  | object fields =>
    rw [depth] at h
    rw [tokensOf, List.foldlM_cons, Builder.step_openObject he (by omega)]
    change ((fieldTokens fields ++ [Token.closeObject]).foldlM Builder.step _) = _
    cases fields with
    | nil => rfl
    | cons f rest =>
      obtain ⟨k, hfields⟩ := foldlM_fields (f :: rest) (List.cons_ne_nil f rest) [] "" (.inr rfl)
        (by omega : frames.length + 1 + fieldsDepth (f :: rest) < _)
      rw [List.foldlM_append, hfields, List.append_nil]
      change some (Builder.complete frames (.object (f :: rest).reverse.reverse)) = _
      rw [List.reverse_reverse]

/-- Items come after those that the array has already. -/
theorem foldlM_items (items : List Json) (hne : items ≠ []) (done : List Json)
    {frames : List Frame} {e : Expect} (he : TakesValue e)
    (h : frames.length + 1 + itemsDepth items < Builder.depthLimit) :
    (itemTokens items).foldlM Builder.step ⟨.array done :: frames, e⟩ =
      some ⟨.array (items.reverse ++ done) :: frames, .separator⟩ := by
  cases items with
  | nil => exact absurd rfl hne
  | cons v rest =>
    rw [itemsDepth] at h
    have hv : _ = some (Builder.complete (.array done :: frames) v) :=
      foldlM_tokens v he (by rw [List.length_cons]; omega)
    cases rest with
    | nil => exact hv
    | cons w rest =>
      rw [itemTokens, List.foldlM_append, hv]
      · change ((itemTokens (w :: rest)).foldlM Builder.step
          ⟨.array (v :: done) :: frames, .value⟩) = _
        rw [foldlM_items (w :: rest) (List.cons_ne_nil w rest) (v :: done) (.inl rfl) (by omega)]
        simp
      · simp

/-- Fields come after those that the object has already. -/
theorem foldlM_fields (fields : List (String × Json)) (hne : fields ≠ [])
    (done : List (String × Json)) (before : String) {frames : List Frame} {e : Expect}
    (he : TakesKey e) (h : frames.length + 1 + fieldsDepth fields < Builder.depthLimit) :
    ∃ key, (fieldTokens fields).foldlM Builder.step ⟨.object done before :: frames, e⟩ =
      some ⟨.object (fields.reverse ++ done) key :: frames, .separator⟩ := by
  cases fields with
  | nil => exact absurd rfl hne
  | cons f rest =>
    obtain ⟨k, v⟩ := f
    rw [fieldsDepth] at h
    have hv : _ = some (Builder.complete (.object done k :: frames) v) :=
      foldlM_tokens v (.inl rfl) (by rw [List.length_cons]; omega)
    cases rest with
    | nil =>
      refine ⟨k, ?_⟩
      rw [fieldTokens, List.foldlM_cons, Builder.step_key he]
      exact hv
    | cons w rest =>
      obtain ⟨key, hrest⟩ := foldlM_fields (w :: rest) (List.cons_ne_nil w rest) ((k, v) :: done) k
        (.inl rfl) (by omega : frames.length + 1 + fieldsDepth (w :: rest) < _)
      refine ⟨key, ?_⟩
      rw [fieldTokens, List.foldlM_cons, Builder.step_key he]
      · change ((v.tokensOf ++ .comma :: fieldTokens (w :: rest)).foldlM Builder.step
          ⟨.object done k :: frames, .value⟩) = _
        rw [List.foldlM_append, hv]
        refine Eq.trans ?_ (hrest.trans ?_)
        · rfl
        · simp
      · simp

end

/-- A value is read from its compact text. -/
theorem ofChars?_compact {v : Json} (h : v.isReadable p = true)
    (hd : v.depth < Builder.depthLimit) : ofChars? p v.compact = some v := by
  have hbuild : v.tokensOf.foldlM Builder.step ⟨[], .value⟩ = some (Builder.complete [] v) :=
    foldlM_tokens v (.inl rfl) (by simpa using hd)
  unfold ofChars? ofTokens?
  rw [(lexes_compact v h).tokens?]
  change (v.tokensOf.foldlM Builder.step ⟨[], .value⟩).bind _ = _
  rw [hbuild]
  rfl

end BusRegen.Json
