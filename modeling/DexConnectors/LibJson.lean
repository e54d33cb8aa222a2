import Mathlib.Data.List.Chain
import Mathlib.Data.List.TakeWhile
import DexConnectors.LibJsonString
/-!
# LibJson — JSON texts as token sequences

A text is a sequence of tokens: punctuation, string literals, and words (numbers, `true`, `false`, `null`), with spaces
between them.  `accepts` runs the grammar over the tokens with a stack of open brackets, and refuses to nest deeper than
its limit.  Two texts denote the same value when their tokens agree up to the spelling of their strings, which is what
`values` compares: order of members, duplicates and the text of numbers all count.

`compact` writes the tokens without spaces and with their strings HTML-escaped, as an encoder does with a text it embeds.
`parse_compact`: the result has the escaped tokens.  So it denotes the same value, nests as deep, and compacting it again
changes nothing.
-/
namespace Lib
namespace Json

inductive Token where
  | punct (b : UInt8)
  | literal (text : Bytes)
  | string (body : Bytes)
  deriving DecidableEq, Repr

def isSpace (b : UInt8) : Bool := b == 0x20 || b == 0x09 || b == 0x0A || b == 0x0D

/-- `{`, `}`, `[`, `]`, `,` and `:`. -/
def isPunct (b : UInt8) : Bool := b == 0x7B || b == 0x7D || b == 0x5B || b == 0x5D || b == 0x2C || b == 0x3A

def isDigit (b : UInt8) : Bool := 0x30 ≤ b && b ≤ 0x39

/-- What numbers, `true`, `false` and `null` are made of. -/
def isWord (b : UInt8) : Bool :=
  isDigit b || (0x41 ≤ b && b ≤ 0x5A) || (0x61 ≤ b && b ≤ 0x7A) || b == 0x2B || b == 0x2D || b == 0x2E

/-- The tokens of a text; the number bounds how many. -/
def lexFrom : Nat → Bytes → Option (List Token)
  | _, [] => some []
  | 0, _ :: _ => none
  | n + 1, b :: rest =>
    if isSpace b then lexFrom n rest
    else if isPunct b then (lexFrom n rest).map (.punct b :: ·)
    else if b = 0x22 then
      match scanString rest with
      | some (body, after) => (lexFrom n after).map (.string body :: ·)
      | none => none
    else if isWord b then
      (lexFrom n (rest.dropWhile isWord)).map (.literal (b :: rest.takeWhile isWord) :: ·)
    else none

def lex (bs : Bytes) : Option (List Token) := lexFrom bs.length bs

/-! ## The grammar -/

/-- The digits of a number after its sign, its integer part, its fraction and its exponent mark. -/
inductive NumberState where
  | start | sign | zero | integer | point | fraction | mark | markSign | exponent | bad
  deriving DecidableEq, Repr

def NumberState.step : NumberState → UInt8 → NumberState
  | .start, b => if b = 0x2D then .sign else if b = 0x30 then .zero else if isDigit b then .integer else .bad
  | .sign, b => if b = 0x30 then .zero else if isDigit b then .integer else .bad
  | .zero, b => if b = 0x2E then .point else if b = 0x65 ∨ b = 0x45 then .mark else .bad
  | .integer, b =>
    if isDigit b then .integer else if b = 0x2E then .point else if b = 0x65 ∨ b = 0x45 then .mark else .bad
  | .point, b => if isDigit b then .fraction else .bad
  | .fraction, b => if isDigit b then .fraction else if b = 0x65 ∨ b = 0x45 then .mark else .bad
  | .mark, b => if b = 0x2B ∨ b = 0x2D then .markSign else if isDigit b then .exponent else .bad
  | .markSign, b => if isDigit b then .exponent else .bad
  | .exponent, b => if isDigit b then .exponent else .bad
  | .bad, _ => .bad

def isNumber (text : Bytes) : Bool :=
  match text.foldl NumberState.step .start with
  | .zero | .integer | .fraction | .exponent => true
  | _ => false

def isLiteral (text : Bytes) : Bool :=
  text == ascii "true" || text == ascii "false" || text == ascii "null" || isNumber text

/-- What may come next. -/
inductive Expect where
  | value
  | item      -- a value or `]`
  | name      -- a member name or `}`
  | member    -- a member name
  | colon
  | more      -- a comma, the closing bracket, or the end
  deriving DecidableEq, Repr

/-- The open brackets, innermost first; an object is `true`. -/
structure Scan where
  stack  : List Bool
  expect : Expect
  deriving DecidableEq, Repr

def Scan.begin (limit : Nat) (s : Scan) : Token → Option Scan
  | .string _ => some ⟨s.stack, .more⟩
  | .literal text => if isLiteral text then some ⟨s.stack, .more⟩ else none
  | .punct b =>
    if s.stack.length < limit then
      if b = 0x7B then some ⟨true :: s.stack, .name⟩
      else if b = 0x5B then some ⟨false :: s.stack, .item⟩ else none
    else none

def Scan.close (s : Scan) (b : UInt8) : Option Scan :=
  match s.stack with
  | true :: outer => if b = 0x7D then some ⟨outer, .more⟩ else none
  | false :: outer => if b = 0x5D then some ⟨outer, .more⟩ else none
  | [] => none

def Scan.comma (s : Scan) : Option Scan :=
  match s.stack with
  | true :: _ => some ⟨s.stack, .member⟩
  | false :: _ => some ⟨s.stack, .value⟩
  | [] => none

def Scan.step (limit : Nat) (s : Scan) (t : Token) : Option Scan :=
  match s.expect, t with
  | .value, t => s.begin limit t
  | .item, .punct b => if b = 0x5D then s.close b else s.begin limit (.punct b)
  | .item, t => s.begin limit t
  | .name, .string _ => some ⟨s.stack, .colon⟩
  | .name, .punct b => s.close b
  | .member, .string _ => some ⟨s.stack, .colon⟩
  | .colon, .punct b => if b = 0x3A then some ⟨s.stack, .value⟩ else none
  | .more, .punct b => if b = 0x2C then s.comma else s.close b
  | _, _ => none

def Scan.run (limit : Nat) : Scan → List Token → Option Scan
  | s, [] => some s
  | s, t :: rest => (s.step limit t).bind (fun s' => Scan.run limit s' rest)

/-- **One value, nested at most `limit` deep.** -/
def accepts (limit : Nat) (ts : List Token) : Bool := Scan.run limit ⟨[], .value⟩ ts == some ⟨[], .more⟩

/-- The tokens of a text that is one value. -/
def parse (limit : Nat) (bs : Bytes) : Option (List Token) :=
  match lex bs with
  | some ts => if accepts limit ts then some ts else none
  | none => none

def isObject (ts : List Token) : Bool := ts.head? == some (.punct 0x7B)

/-! ## Writing -/

def Token.text : Token → Bytes
  | .punct b => [b]
  | .literal text => text
  | .string body => 0x22 :: (body ++ [0x22])

def render (ts : List Token) : Bytes := ts.flatMap Token.text

def Token.escape : Token → Token
  | .string body => .string (escapeHTML body)
  | t => t

/-- The token with its string read. -/
def Token.value : Token → Token
  | .string body => .string (unquote body)
  | t => t

/-- **What a text denotes.** -/
def values (ts : List Token) : List Token := ts.map Token.value

/-- **The text as an encoder embeds it.** -/
def compact (limit : Nat) (bs : Bytes) : Option Bytes := (parse limit bs).map (fun ts => render (ts.map Token.escape))

/-! ## Tokens of a written text -/

def Token.Wf : Token → Prop
  | .punct b => isPunct b = true
  | .literal text => text ≠ [] ∧ ∀ b ∈ text, isWord b = true
  | .string body => Body body

def Token.isWord : Token → Bool
  | .literal _ => true
  | _ => false

/-- No two words stand side by side. -/
def Separated (ts : List Token) : Prop := ts.IsChain (fun t u => ¬ (t.isWord = true ∧ u.isWord = true))

theorem wf_of_lexFrom : ∀ (n : Nat) (bs : Bytes) (ts : List Token), lexFrom n bs = some ts → ∀ t ∈ ts, t.Wf
  | n, [], ts, h => by
    have : ts = [] := by cases n <;> (unfold lexFrom at h; cases h; rfl)
    rw [this]
    exact fun t ht => by cases ht
  | 0, _ :: _, ts, h => by cases h
  | n + 1, b :: rest, ts, h => by
    unfold lexFrom at h
    split at h
    · exact wf_of_lexFrom n rest ts h
    split at h
    · rename_i hb
      obtain ⟨more, hmore, rfl⟩ := Option.map_eq_some_iff.1 h
      exact List.forall_mem_cons.2 ⟨hb, wf_of_lexFrom n rest more hmore⟩
    split at h
    · split at h
      · rename_i body after hscan
        obtain ⟨more, hmore, rfl⟩ := Option.map_eq_some_iff.1 h
        exact List.forall_mem_cons.2 ⟨(body_of_scanString hscan).2, wf_of_lexFrom n after more hmore⟩
      · cases h
    split at h
    · rename_i hb
      obtain ⟨more, hmore, rfl⟩ := Option.map_eq_some_iff.1 h
      refine List.forall_mem_cons.2 ⟨⟨List.cons_ne_nil _ _, ?_⟩, wf_of_lexFrom n _ more hmore⟩
      exact List.forall_mem_cons.2 ⟨hb, fun c hc => List.mem_takeWhile_imp hc⟩
    · cases h

theorem not_word_of_punct : ∀ b : UInt8, isPunct b = true → isWord b = false ∧ isSpace b = false ∧ b ≠ 0x22 :=
  Utf8.forall_byte (by decide)

theorem not_space_of_word : ∀ b : UInt8, isWord b = true → isSpace b = false ∧ isPunct b = false ∧ b ≠ 0x22 :=
  Utf8.forall_byte (by decide)

/-- A text that starts with no word. -/
theorem render_head {t : Token} {ts : List Token} (ht : t.Wf) (hw : t.isWord = false) :
    ∃ b rest, render (t :: ts) = b :: rest ∧ isWord b = false := by
  cases t with
  | punct b => exact ⟨b, render ts, rfl, (not_word_of_punct b ht).1⟩
  | literal text => cases hw
  | string body => exact ⟨0x22, body ++ [0x22] ++ render ts, rfl, by decide⟩

theorem takeWhile_word {text rest : Bytes} (h : ∀ b ∈ text, isWord b = true)
    (hrest : ∀ b more, rest = b :: more → isWord b = false) :
    (text ++ rest).takeWhile isWord = text ∧ (text ++ rest).dropWhile isWord = rest := by
  rw [List.takeWhile_append_of_pos h, List.dropWhile_append_of_pos h]
  cases rest with
  | nil => exact ⟨List.append_nil _, rfl⟩
  | cons b more =>
    have hb := hrest b more rfl
    rw [List.takeWhile_cons_of_neg (by rw [hb]; decide), List.dropWhile_cons_of_neg (by rw [hb]; decide)]
    exact ⟨List.append_nil _, rfl⟩

/-- **Written tokens are read back.** -/
theorem lexFrom_render : ∀ (ts : List Token), (∀ t ∈ ts, t.Wf) → Separated ts → ∀ n, (render ts).length ≤ n →
    lexFrom n (render ts) = some ts
  | [], _, _, n, _ => by cases n <;> rfl
  | t :: ts, hwf, hsep, n, hn => by
    have ht := hwf t List.mem_cons_self
    have hts := fun u hu => hwf u (List.mem_cons_of_mem _ hu)
    have ih := lexFrom_render ts hts (List.IsChain.tail hsep)
    have hsplit : render (t :: ts) = t.text ++ render ts := rfl
    rw [hsplit, List.length_append] at hn
    rw [hsplit]
    cases t with
    | punct b =>
      have hb := not_word_of_punct b ht
      obtain ⟨m, rfl⟩ : ∃ m, n = m + 1 := ⟨n - 1, by simp only [Token.text, List.length_singleton] at hn; omega⟩
      simp only [Token.text, List.length_singleton] at hn
      simp only [Token.text, List.singleton_append, lexFrom, hb.2.1, show isPunct b = true from ht]
      rw [ih m (by omega)]
      rfl
    | string body =>
      have hlen : (Token.string body).text.length = body.length + 2 := by simp [Token.text]
      rw [hlen] at hn
      obtain ⟨m, rfl⟩ : ∃ m, n = m + 1 := ⟨n - 1, by omega⟩
      have htext : (Token.string body).text ++ render ts = 0x22 :: (body ++ 0x22 :: render ts) := by simp [Token.text]
      rw [htext]
      simp only [lexFrom, scanString_body (show Body body from ht), ih m (by omega)]
      rfl
    | literal text =>
      obtain ⟨hne, hall⟩ := (show text ≠ [] ∧ ∀ b ∈ text, isWord b = true from ht)
      cases text with
      | nil => exact absurd rfl hne
      | cons b word =>
        have hb := not_space_of_word b (hall b List.mem_cons_self)
        obtain ⟨m, rfl⟩ : ∃ m, n = m + 1 := ⟨n - 1, by simp only [Token.text, List.length_cons] at hn; omega⟩
        simp only [Token.text, List.length_cons] at hn
        have hnext : ∀ c more, render ts = c :: more → isWord c = false := by
          intro c more hc
          cases ts with
          | nil => cases hc
          | cons u us =>
            have hu : u.isWord = false := by
              by_contra hu
              exact (List.isChain_cons_cons.1 hsep).1 ⟨rfl, by simpa using hu⟩
            obtain ⟨c', more', hc', hword⟩ := @render_head u us (hts u List.mem_cons_self) hu
            rw [hc] at hc'
            cases hc'
            exact hword
        obtain ⟨htake, hdrop⟩ := takeWhile_word (fun c hc => hall c (List.mem_cons_of_mem _ hc)) hnext
        simp only [Token.text, List.cons_append, lexFrom, hb.1, hb.2.1, if_neg hb.2.2, hall b List.mem_cons_self, htake,
          hdrop, ih m (by omega)]
        rfl

theorem lex_render {ts : List Token} (hwf : ∀ t ∈ ts, t.Wf) (hsep : Separated ts) : lex (render ts) = some ts :=
  lexFrom_render ts hwf hsep _ le_rfl

/-! ## Accepted texts -/

section

variable {limit limit' : Nat}

theorem parse_some {bs : Bytes} {ts : List Token} : parse limit bs = some ts ↔ lex bs = some ts ∧ accepts limit ts = true := by
  unfold parse
  cases lex bs with
  | none => simp
  | some us =>
    by_cases h : accepts limit us = true
    · simp only [h, if_true, Option.some.injEq]
      exact ⟨fun heq => ⟨heq, heq ▸ h⟩, fun h => h.1⟩
    · simp only [h, Option.some.injEq]
      exact ⟨fun heq => by simp at heq, fun heq => absurd (heq.1 ▸ heq.2) h⟩

theorem Scan.begin_escape (s : Scan) (t : Token) : s.begin limit t.escape = s.begin limit t := by cases t <;> rfl

theorem Scan.step_escape (s : Scan) (t : Token) : s.step limit t.escape = s.step limit t := by
  unfold Scan.step
  cases s.expect <;> cases t <;> rfl

theorem Scan.run_escape : ∀ (ts : List Token) (s : Scan), Scan.run limit s (ts.map Token.escape) = Scan.run limit s ts
  | [], _ => rfl
  | t :: ts, s => by
    simp only [List.map_cons, Scan.run, Scan.step_escape]
    congr 1
    funext s'
    exact Scan.run_escape ts s'

theorem accepts_escape (ts : List Token) : accepts limit (ts.map Token.escape) = accepts limit ts := by
  unfold accepts
  rw [Scan.run_escape]

/-- After a word comes no word. -/
theorem Scan.step_word {s s' : Scan} {t : Token} (h : s.step limit t = some s') (ht : t.isWord = true) :
    s'.expect = .more := by
  cases t with
  | literal text =>
    have hbegin : ∀ {u : Scan}, s.begin limit (.literal text) = some u → u.expect = .more := by
      intro u hu
      simp only [Scan.begin] at hu
      split at hu
      · cases hu; rfl
      · cases hu
    unfold Scan.step at h
    cases hs : s.expect <;> rw [hs] at h <;> first | exact hbegin h | cases h
  | punct b => cases ht
  | string body => cases ht

theorem Scan.step_more {s s' : Scan} {t : Token} (h : s.step limit t = some s') (hs : s.expect = .more) :
    t.isWord = false := by
  unfold Scan.step at h
  rw [hs] at h
  cases t with
  | literal text => cases h
  | punct b => rfl
  | string body => rfl

theorem Scan.separated : ∀ {ts : List Token} {s s' : Scan}, Scan.run limit s ts = some s' → Separated ts
  | [], _, _, _ => List.IsChain.nil
  | [t], _, _, _ => List.IsChain.singleton t
  | t :: u :: ts, s, s', h => by
    obtain ⟨s₁, h1, hrest⟩ := Option.bind_eq_some_iff.1 h
    obtain ⟨s₂, h2, -⟩ := Option.bind_eq_some_iff.1 hrest
    refine List.isChain_cons_cons.2 ⟨?_, Scan.separated hrest⟩
    rintro ⟨ht, hu⟩
    rw [Scan.step_more h2 (Scan.step_word h1 ht)] at hu
    cases hu

theorem separated_of_accepts {ts : List Token} (h : accepts limit ts = true) : Separated ts := by
  have hrun : Scan.run limit ⟨[], .value⟩ ts = some ⟨[], .more⟩ := by simpa [accepts] using h
  exact Scan.separated hrun

/-- A deeper limit accepts more. -/
theorem Scan.begin_mono (hle : limit ≤ limit') {s s' : Scan} {t : Token} (h : s.begin limit t = some s') :
    s.begin limit' t = some s' := by
  cases t with
  | punct b =>
    simp only [Scan.begin] at h ⊢
    split at h
    · rename_i hlt
      rw [if_pos (lt_of_lt_of_le hlt hle)]
      exact h
    · cases h
  | literal text => exact h
  | string body => exact h

theorem Scan.step_mono (hle : limit ≤ limit') {s s' : Scan} {t : Token} (h : s.step limit t = some s') :
    s.step limit' t = some s' := by
  unfold Scan.step at h ⊢
  cases hs : s.expect <;> rw [hs] at h
  case value => exact Scan.begin_mono hle h
  case item =>
    cases t with
    | punct b =>
      simp only at h ⊢
      split at h
      · rename_i hb
        rw [if_pos hb]
        exact h
      · rename_i hb
        rw [if_neg hb]
        exact Scan.begin_mono hle h
    | literal text => exact Scan.begin_mono hle h
    | string body => exact Scan.begin_mono hle h
  all_goals
    cases t <;> exact h

theorem Scan.run_mono (hle : limit ≤ limit') : ∀ {ts : List Token} {s s' : Scan}, Scan.run limit s ts = some s' →
    Scan.run limit' s ts = some s'
  | [], _, _, h => h
  | t :: ts, s, s', h => by
    obtain ⟨s₁, h1, hrest⟩ := Option.bind_eq_some_iff.1 h
    exact Option.bind_eq_some_iff.2 ⟨s₁, Scan.step_mono hle h1, Scan.run_mono hle hrest⟩

theorem accepts_mono (hle : limit ≤ limit') {ts : List Token} (h : accepts limit ts = true) : accepts limit' ts = true := by
  simp only [accepts, beq_iff_eq] at h ⊢
  exact Scan.run_mono hle h

/-! ## Compacting -/

theorem Token.Wf.escape {t : Token} (h : t.Wf) : t.escape.Wf := by
  cases t with
  | string body => exact body_escapeHTML h
  | punct b => exact h
  | literal text => exact h

theorem Token.escape_escape {t : Token} (h : t.Wf) : t.escape.escape = t.escape := by
  cases t with
  | string body => exact congrArg Token.string (escapeHTML_escapeHTML h)
  | punct b => rfl
  | literal text => rfl

theorem Token.value_escape {t : Token} (h : t.Wf) : t.escape.value = t.value := by
  cases t with
  | string body => exact congrArg Token.string (unquote_escapeHTML h)
  | punct b => rfl
  | literal text => rfl

theorem wf_of_parse {bs : Bytes} {ts : List Token} (h : parse limit bs = some ts) : ∀ t ∈ ts, t.Wf :=
  wf_of_lexFrom _ bs ts (parse_some.1 h).1

/-- **A compacted text has the escaped tokens**, within the same limits. -/
theorem parse_compact {bs : Bytes} {ts : List Token} (h : parse limit bs = some ts) (limit' : Nat) :
    parse limit' (render (ts.map Token.escape)) = if accepts limit' ts then some (ts.map Token.escape) else none := by
  have hwf : ∀ t ∈ ts.map Token.escape, t.Wf := by
    intro t ht
    obtain ⟨u, hu, rfl⟩ := List.mem_map.1 ht
    exact (wf_of_parse h u hu).escape
  have haccepts : accepts limit (ts.map Token.escape) = true := by
    rw [accepts_escape]
    exact (parse_some.1 h).2
  have hsep := separated_of_accepts haccepts
  unfold parse
  rw [lex_render hwf hsep]
  simp only [accepts_escape]

/-- A compacted text is accepted within the limits within which the text is. -/
theorem isSome_parse_compact {bs cs : Bytes} (h : compact limit bs = some cs) (limit' : Nat) :
    (parse limit' cs).isSome = (parse limit' bs).isSome := by
  obtain ⟨ts, hts, rfl⟩ := Option.map_eq_some_iff.1 h
  have hlex := (parse_some.1 hts).1
  rw [parse_compact hts]
  unfold parse
  rw [hlex]
  by_cases ha : accepts limit' ts = true
  · simp only [ha, if_true, Option.isSome_some]
  · simp only [ha, Bool.false_eq_true, if_false]

/-- **Compacting keeps the value.** -/
theorem values_escape {bs : Bytes} {ts : List Token} (h : parse limit bs = some ts) :
    values (ts.map Token.escape) = values ts := by
  unfold values
  rw [List.map_map]
  exact List.map_congr_left (fun t ht => Token.value_escape (wf_of_parse h t ht))

/-- **Compacting twice is compacting once.** -/
theorem compact_compact {bs cs : Bytes} (h : compact limit bs = some cs) : compact limit cs = some cs := by
  obtain ⟨ts, hts, rfl⟩ := Option.map_eq_some_iff.1 h
  have hmap : (ts.map Token.escape).map Token.escape = ts.map Token.escape := by
    rw [List.map_map]
    exact List.map_congr_left (fun t ht => Token.escape_escape (wf_of_parse hts t ht))
  unfold compact
  rw [parse_compact hts, if_pos (parse_some.1 hts).2, Option.map_some, hmap]

theorem isObject_escape (ts : List Token) : isObject (ts.map Token.escape) = isObject ts := by
  cases ts with
  | nil => rfl
  | cons t ts => cases t <;> rfl

end

end Json
end Lib
