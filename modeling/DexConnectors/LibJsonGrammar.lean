import DexConnectors.LibJsonNumber
import DexConnectors.LibJsonTree
/-!
# LibJsonGrammar — the grammar of JSON texts

`Spells` says which tokens a text is made of and `Reads` which value they are, nested at most so deep.  `decode` finds a value
and nothing but spaces after it exactly when the text denotes that value (`decode_iff`).
-/
namespace Lib
namespace Json

/-- A value whose numbers are numbers of the grammar. -/
inductive Numeric : Tree → Prop
  | null : Numeric .null
  | bool (b : Bool) : Numeric (.bool b)
  | number {text : Bytes} (h : isNumber text = true) : Numeric (.number text)
  | string (text : Bytes) : Numeric (.string text)
  | array {items : List Tree} (h : ∀ item ∈ items, Numeric item) : Numeric (.array items)
  | object {members : Members} (h : ∀ m ∈ members, Numeric m.2) : Numeric (.object members)

/-- A token of the grammar. -/
def Token.Proper : Token → Prop
  | .punct b => isPunct b = true
  | .literal text => isLiteral text = true
  | .string body => Body body

/-- **The tokens of a text**, with spaces around them. -/
inductive Spells : Bytes → List Token → Prop
  | nil {spaces : Bytes} (h : ∀ b ∈ spaces, isSpace b = true) : Spells spaces []
  | cons {spaces rest : Bytes} {t : Token} {ts : List Token} (hspaces : ∀ b ∈ spaces, isSpace b = true) (ht : t.Proper)
      (h : Spells rest ts) : Spells (spaces ++ (t.text ++ rest)) (t :: ts)

mutual

/-- **The value at the head of tokens**, nested at most `n` deep, and the tokens after it. -/
inductive Reads : Nat → List Token → Tree → List Token → Prop
  | literal {n : Nat} {text : Bytes} {rest : List Token} (h : isLiteral text = true) :
      Reads n (.literal text :: rest) (ofLiteral text) rest
  | string {n : Nat} {body : Bytes} {rest : List Token} : Reads n (.string body :: rest) (.string (unquote body)) rest
  | emptyArray {n : Nat} {rest : List Token} : Reads (n + 1) (.punct 0x5B :: .punct 0x5D :: rest) (.array []) rest
  | array {n : Nat} {ts rest : List Token} {items : List Tree} (h : ReadsItems n ts items rest) :
      Reads (n + 1) (.punct 0x5B :: ts) (.array items) rest
  | emptyObject {n : Nat} {rest : List Token} : Reads (n + 1) (.punct 0x7B :: .punct 0x7D :: rest) (.object []) rest
  | object {n : Nat} {ts rest : List Token} {members : Members} (h : ReadsMembers n ts members rest) :
      Reads (n + 1) (.punct 0x7B :: ts) (.object members) rest

/-- Values with commas between them, and the bracket that closes them. -/
inductive ReadsItems : Nat → List Token → List Tree → List Token → Prop
  | last {n : Nat} {ts rest : List Token} {item : Tree} (h : Reads n ts item (.punct 0x5D :: rest)) :
      ReadsItems n ts [item] rest
  | more {n : Nat} {ts mid rest : List Token} {item : Tree} {items : List Tree} (h : Reads n ts item (.punct 0x2C :: mid))
      (hmore : ReadsItems n mid items rest) : ReadsItems n ts (item :: items) rest

inductive ReadsMembers : Nat → List Token → Members → List Token → Prop
  | last {n : Nat} {name : Bytes} {ts rest : List Token} {value : Tree} (h : Reads n ts value (.punct 0x7D :: rest)) :
      ReadsMembers n (.string name :: .punct 0x3A :: ts) [(unquote name, value)] rest
  | more {n : Nat} {name : Bytes} {ts mid rest : List Token} {value : Tree} {members : Members}
      (h : Reads n ts value (.punct 0x2C :: mid)) (hmore : ReadsMembers n mid members rest) :
      ReadsMembers n (.string name :: .punct 0x3A :: ts) ((unquote name, value) :: members) rest

end

/-- **The text is one value**, nested at most `n` deep, with spaces around it. -/
def Denotes (n : Nat) (bs : Bytes) (tree : Tree) : Prop := ∃ ts, Spells bs ts ∧ Reads n ts tree []

/-! ## Tokens of a text -/

theorem lexOne_spaces : ∀ {spaces : Bytes}, (∀ b ∈ spaces, isSpace b = true) → ∀ bs, lexOne (spaces ++ bs) = lexOne bs
  | [], _, _ => rfl
  | b :: spaces, h, bs => by
    rw [List.forall_mem_cons] at h
    rw [List.cons_append, lexOne, if_pos h.1]
    exact lexOne_spaces h.2 bs

/-- A number is taken whole when no other of its characters comes after it. -/
theorem takeNumber_append {rest : Bytes} (hstop : ∀ b ∈ rest.head?, isWord b = false) : ∀ (text : Bytes) (s : NumberState),
    text.foldl NumberState.step s ≠ .bad → takeNumber s (text ++ rest) = (text, rest)
  | [], s, hs => by
    cases rest with
    | nil => rfl
    | cons b rest =>
      have hbad : s.step b = .bad := by
        have hb := hstop b rfl
        revert hb
        cases s with
        | bad => exact absurd rfl hs
        | start | sign | zero | integer | point | fraction | mark | markSign | exponent =>
          exact Utf8.forall_byte (P := fun b => isWord b = false → NumberState.step _ b = .bad) (by decide) b
      rw [List.nil_append, takeNumber, if_pos hbad]
  | b :: text, s, hs => by
    have hnot : s.step b ≠ .bad := by
      intro hbad
      rw [List.foldl_cons, hbad] at hs
      exact hs (Literal.foldl_bad text)
    rw [List.cons_append, takeNumber, if_neg hnot, takeNumber_append hstop text (s.step b) hs]

theorem takeNumber_split : ∀ (bs : Bytes) (s : NumberState), (takeNumber s bs).1 ++ (takeNumber s bs).2 = bs
  | [], _ => rfl
  | b :: rest, s => by
    rw [takeNumber]
    split
    · rfl
    · exact congrArg _ (takeNumber_split rest (s.step b))

theorem not_bad_of_isNumber {text : Bytes} (h : isNumber text = true) : text.foldl NumberState.step .start ≠ .bad := by
  intro hbad
  unfold isNumber at h
  rw [hbad] at h
  cases h

/-- The first byte of a number. -/
theorem head_of_isNumber {text : Bytes} (h : isNumber text = true) :
    ∃ b rest, text = b :: rest ∧ (b = 0x2D ∨ isDigit b = true) := by
  cases text with
  | nil => cases h
  | cons b rest =>
    refine ⟨b, rest, rfl, ?_⟩
    by_contra hnot
    rw [not_or, Bool.not_eq_true] at hnot
    have hbad : NumberState.step .start b = .bad := by
      unfold NumberState.step
      dsimp only
      rw [if_neg hnot.1, if_neg, hnot.2]
      · rfl
      · rintro rfl
        exact absurd hnot.2 (by decide)
    refine not_bad_of_isNumber h ?_
    rw [List.foldl_cons, hbad, Literal.foldl_bad]

theorem takeLiteral_append {text rest : Bytes} (h : isLiteral text = true) (hstop : ∀ b ∈ rest.head?, isWord b = false) :
    takeLiteral (text ++ rest) = some (text, rest) := by
  unfold isLiteral at h
  rw [Bool.or_eq_true, Bool.or_eq_true, Bool.or_eq_true, beq_iff_eq, beq_iff_eq, beq_iff_eq] at h
  rcases h with ((rfl | rfl) | rfl) | h
  · rfl
  · rfl
  · rfl
  · obtain ⟨b, more, rfl, hb⟩ := head_of_isNumber h
    have hnone : [ascii "true", ascii "false", ascii "null"].find? (·.isPrefixOf (b :: more ++ rest)) = none := by
      have hne : b ≠ 0x74 ∧ b ≠ 0x66 ∧ b ≠ 0x6E := by
        rcases hb with rfl | hb
        · decide
        · revert hb
          exact Utf8.forall_byte (P := fun b => isDigit b = true → b ≠ 0x74 ∧ b ≠ 0x66 ∧ b ≠ 0x6E) (by decide) b
      rw [List.find?_eq_none]
      intro word hword
      simp only [List.mem_cons, List.not_mem_nil, or_false] at hword
      rcases hword with rfl | rfl | rfl
      · exact fun hp => hne.1 (List.cons_prefix_cons.1 (List.isPrefixOf_iff_prefix.1 hp)).1.symm
      · exact fun hp => hne.2.1 (List.cons_prefix_cons.1 (List.isPrefixOf_iff_prefix.1 hp)).1.symm
      · exact fun hp => hne.2.2 (List.cons_prefix_cons.1 (List.isPrefixOf_iff_prefix.1 hp)).1.symm
    unfold takeLiteral
    rw [hnone]
    dsimp only
    rw [takeNumber_append hstop (b :: more) .start (not_bad_of_isNumber h), if_pos h]

theorem takeLiteral_proper {bs text rest : Bytes} (h : takeLiteral bs = some (text, rest)) :
    bs = text ++ rest ∧ isLiteral text = true := by
  unfold takeLiteral at h
  split at h
  next word hword =>
    cases h
    have hmem := List.mem_of_find?_eq_some hword
    have hstart : text.isPrefixOf bs = true := by
      have hfound := List.find?_some hword
      exact hfound
    have hstarts := List.isPrefixOf_iff_prefix.1 hstart
    refine ⟨(List.prefix_iff_eq_append.1 hstarts).symm, ?_⟩
    simp only [List.mem_cons, List.not_mem_nil, or_false] at hmem
    rcases hmem with rfl | rfl | rfl <;> rfl
  · split at h
    next hnumber =>
      have hsplit := takeNumber_split bs .start
      rw [Option.some.inj h] at hsplit hnumber
      exact ⟨hsplit.symm, by rw [isLiteral, hnumber, Bool.or_true]⟩
    · cases h

/-- The first byte of a word. -/
theorem head_of_isLiteral {text : Bytes} (h : isLiteral text = true) :
    ∃ b rest, text = b :: rest ∧ isSpace b = false ∧ isPunct b = false ∧ b ≠ 0x22 := by
  unfold isLiteral at h
  rw [Bool.or_eq_true, Bool.or_eq_true, Bool.or_eq_true, beq_iff_eq, beq_iff_eq, beq_iff_eq] at h
  rcases h with ((rfl | rfl) | rfl) | h
  · exact ⟨0x74, _, rfl, by decide⟩
  · exact ⟨0x66, _, rfl, by decide⟩
  · exact ⟨0x6E, _, rfl, by decide⟩
  · obtain ⟨b, more, rfl, hb⟩ := head_of_isNumber h
    refine ⟨b, more, rfl, ?_⟩
    rcases hb with rfl | hb
    · decide
    · revert hb
      exact Utf8.forall_byte (P := fun b => isDigit b = true → isSpace b = false ∧ isPunct b = false ∧ b ≠ 0x22)
        (by decide) b

/-- A token is read back from its text. -/
theorem lexOne_text {t : Token} {rest : Bytes} (ht : t.Proper)
    (hstop : t.isWord = true → ∀ b ∈ rest.head?, isWord b = false) : lexOne (t.text ++ rest) = some (t, rest) := by
  cases t with
  | punct b =>
    have hb := not_word_of_punct b ht
    show lexOne (b :: rest) = _
    rw [lexOne, hb.2.1, if_neg Bool.false_ne_true, if_pos (show isPunct b = true from ht)]
  | string body =>
    have htext : (Token.string body).text ++ rest = 0x22 :: (body ++ 0x22 :: rest) := by
      show 0x22 :: (body ++ [0x22]) ++ rest = _
      rw [List.cons_append, List.append_assoc, List.singleton_append]
    rw [htext, lexOne, if_neg (by decide), if_neg (by decide), if_pos rfl, scanString_body ht]
    rfl
  | literal text =>
    obtain ⟨b, more, rfl, hspace, hpunct, hquote⟩ := head_of_isLiteral ht
    show lexOne (b :: (more ++ rest)) = _
    rw [lexOne, hspace, hpunct, if_neg Bool.false_ne_true, if_neg Bool.false_ne_true, if_neg hquote]
    show (takeLiteral (b :: more ++ rest)).map _ = _
    rw [takeLiteral_append ht (hstop rfl)]
    rfl

theorem lexOne_proper : ∀ {bs rest : Bytes} {t : Token}, lexOne bs = some (t, rest) →
    ∃ spaces, (∀ b ∈ spaces, isSpace b = true) ∧ bs = spaces ++ (t.text ++ rest) ∧ t.Proper
  | [], _, _, h => by cases h
  | b :: bs, rest, t, h => by
    rw [lexOne] at h
    split at h
    next hspace =>
      obtain ⟨spaces, hspaces, rfl, ht⟩ := lexOne_proper h
      exact ⟨b :: spaces, List.forall_mem_cons.2 ⟨hspace, hspaces⟩, rfl, ht⟩
    refine ⟨[], fun b hb => (by cases hb), ?_⟩
    split at h
    next hpunct =>
      cases h
      exact ⟨rfl, hpunct⟩
    split at h
    next hquote =>
      obtain ⟨⟨body, after⟩, hscan, heq⟩ := Option.map_eq_some_iff.1 h
      cases heq
      obtain ⟨rfl, hbody⟩ := body_of_scanString hscan
      refine ⟨?_, hbody⟩
      rw [hquote]
      show _ = 0x22 :: (body ++ [0x22]) ++ after
      rw [List.cons_append, List.append_assoc, List.singleton_append]
    · obtain ⟨⟨text, after⟩, htake, heq⟩ := Option.map_eq_some_iff.1 h
      cases heq
      exact takeLiteral_proper htake

theorem Spells.stop {bs : Bytes} {ts : List Token} (h : Spells bs ts) (hnext : ∀ t ∈ ts.head?, t.isWord = false) :
    ∀ b ∈ bs.head?, isWord b = false := by
  have hspace : ∀ b, isSpace b = true → isWord b = false := by
    intro b hb
    cases hw : isWord b with
    | false => rfl
    | true =>
      rw [(not_space_of_word b hw).1] at hb
      cases hb
  cases h with
  | nil h => exact fun b hb => hspace b (h b (List.mem_of_mem_head? hb))
  | @cons spaces rest t ts hspaces ht _ =>
    cases spaces with
    | cons b spaces =>
      intro c hc
      cases hc
      exact hspace _ (hspaces _ List.mem_cons_self)
    | nil =>
      have hword := hnext t rfl
      cases t with
      | literal text => cases hword
      | punct b =>
        intro c hc
        cases hc
        exact (not_word_of_punct _ ht).1
      | string body =>
        intro c hc
        cases hc
        decide

theorem Spells.length_le {bs : Bytes} {ts : List Token} (h : Spells bs ts) : ts.length ≤ bs.length := by
  induction h with
  | nil => exact Nat.zero_le _
  | @cons spaces rest t ts _ ht _ ih =>
    have htext : 1 ≤ t.text.length := by
      cases t with
      | punct b => exact Nat.le_refl _
      | string body => exact Nat.succ_le_succ (Nat.zero_le _)
      | literal text =>
        obtain ⟨b, more, rfl, -⟩ := head_of_isLiteral ht
        exact Nat.succ_le_succ (Nat.zero_le _)
    simp only [List.length_cons, List.length_append]
    omega

theorem Spells.lexOne {bs : Bytes} {t : Token} {ts : List Token} (h : Spells bs (t :: ts))
    (hnext : t.isWord = true → ∀ u ∈ ts.head?, u.isWord = false) : ∃ rest, lexOne bs = some (t, rest) ∧ Spells rest ts := by
  cases h with
  | @cons spaces rest _ _ hspaces ht h =>
    exact ⟨rest, by rw [lexOne_spaces hspaces, lexOne_text ht (fun hword => h.stop (hnext hword))], h⟩

/-! ## What is denoted is read -/

section Complete

variable {limit : Nat}

/-- The rest of the text, unless the value is at its end. -/
def goOn (limit fuel : Nat) (s : Scan) (bs : Bytes) : Option (List Token × Bytes) :=
  if s = ⟨[], .more⟩ then some ([], bs) else readFrom limit fuel s bs

def ahead (used : List Token) (p : List Token × Bytes) : List Token × Bytes := (used ++ p.1, p.2)

theorem map_ahead (used used' : List Token) (read : Option (List Token × Bytes)) :
    (read.map (ahead used')).map (ahead used) = read.map (ahead (used ++ used')) := by
  rw [Option.map_map]
  congr 1
  funext p
  exact Prod.ext (List.append_assoc used used' p.1).symm rfl

theorem readFrom_step {fuel : Nat} {s s' : Scan} {bs rest : Bytes} {t : Token} (hlex : lexOne bs = some (t, rest))
    (hstep : s.step limit t = some s') : readFrom limit (fuel + 1) s bs = (goOn limit fuel s' rest).map (ahead [t]) := by
  rw [readFrom, hlex]
  dsimp only
  rw [hstep]
  dsimp only
  unfold goOn
  split
  · rfl
  · rfl

theorem goOn_inside {fuel : Nat} {b : Bool} {stack : List Bool} {expect : Expect} {bs : Bytes} :
    goOn limit fuel ⟨b :: stack, expect⟩ bs = readFrom limit fuel ⟨b :: stack, expect⟩ bs :=
  if_neg (fun h => by cases h)

theorem goOn_expect {fuel : Nat} {stack : List Bool} {expect : Expect} {bs : Bytes} (h : expect ≠ .more) :
    goOn limit fuel ⟨stack, expect⟩ bs = readFrom limit fuel ⟨stack, expect⟩ bs :=
  if_neg (fun heq => by cases heq; exact h rfl)

/-- The token that a value begins with is no closing bracket. -/
theorem Reads.head {n : Nat} {ts more : List Token} {tree : Tree} (h : Reads n ts tree more)
    (hfollow : ∀ u ∈ more.head?, u.isWord = false) :
    ∃ t rest, ts = t :: rest ∧ t ≠ .punct 0x5D ∧ (t.isWord = true → ∀ u ∈ rest.head?, u.isWord = false) := by
  cases h with
  | literal => exact ⟨_, _, rfl, fun h => (by cases h), fun _ => hfollow⟩
  | string | emptyArray | array | emptyObject | object => exact ⟨_, _, rfl, fun h => (by cases h), fun h => (by cases h)⟩

theorem ReadsItems.head {n : Nat} {ts more : List Token} {items : List Tree} (h : ReadsItems n ts items more) :
    ∃ t rest, ts = t :: rest ∧ t ≠ .punct 0x5D ∧ (t.isWord = true → ∀ u ∈ rest.head?, u.isWord = false) := by
  cases h with
  | last h | more h _ => exact h.head (fun u hu => by cases hu; rfl)

theorem ReadsMembers.head {n : Nat} {ts more : List Token} {members : Members} (h : ReadsMembers n ts members more) :
    ∃ name rest, ts = .string name :: rest := by
  cases h with
  | last | more => exact ⟨_, _, rfl⟩

theorem step_item {stack : List Bool} {t : Token} (h : t ≠ .punct 0x5D) :
    (⟨stack, .item⟩ : Scan).step limit t = (⟨stack, .value⟩ : Scan).step limit t := by
  cases t with
  | punct b => exact if_neg (fun heq => h (congrArg Token.punct heq))
  | literal text => rfl
  | string body => rfl

theorem readFrom_congr {fuel : Nat} {s s' : Scan} {bs rest : Bytes} {t : Token} (hlex : lexOne bs = some (t, rest))
    (h : s.step limit t = s'.step limit t) : readFrom limit fuel s bs = readFrom limit fuel s' bs := by
  cases fuel with
  | zero => rfl
  | succ fuel =>
    rw [readFrom, readFrom, hlex]
    dsimp only
    rw [h]

/-- What is read from a state up to another, with the tokens that are used. -/
def ReadsTo (limit : Nat) (s : Scan) (bs : Bytes) (ts : List Token) (s' : Scan) (more : List Token) : Prop :=
  ∃ used rest, ts = used ++ more ∧ Spells rest more ∧
    ∀ fuel, readFrom limit (used.length + fuel) s bs = (goOn limit fuel s' rest).map (ahead used)

/-- A token, and what is read after it. -/
theorem ReadsTo.token {s s₁ s' : Scan} {bs : Bytes} {t : Token} {ts more : List Token} (hspells : Spells bs (t :: ts))
    (hnext : t.isWord = true → ∀ u ∈ ts.head?, u.isWord = false) (hstep : s.step limit t = some s₁) (hs₁ : s₁ ≠ ⟨[], .more⟩)
    (h : ∀ rest, Spells rest ts → ReadsTo limit s₁ rest ts s' more) : ReadsTo limit s bs (t :: ts) s' more := by
  obtain ⟨rest, hlex, hrest⟩ := hspells.lexOne hnext
  obtain ⟨used, rest', rfl, hrest', hread⟩ := h rest hrest
  refine ⟨t :: used, rest', rfl, hrest', fun fuel => ?_⟩
  rw [List.length_cons, Nat.add_right_comm, readFrom_step hlex hstep]
  unfold goOn
  rw [if_neg hs₁, hread fuel, map_ahead]
  rfl

/-- The token that comes last. -/
theorem ReadsTo.last {s s' : Scan} {bs : Bytes} {t : Token} {more : List Token} (hspells : Spells bs (t :: more))
    (hnext : t.isWord = true → ∀ u ∈ more.head?, u.isWord = false) (hstep : s.step limit t = some s') :
    ReadsTo limit s bs (t :: more) s' more := by
  obtain ⟨rest, hlex, hrest⟩ := hspells.lexOne hnext
  refine ⟨[t], rest, rfl, hrest, fun fuel => ?_⟩
  rw [List.length_singleton, Nat.add_comm, readFrom_step hlex hstep]

theorem ReadsTo.trans {s s₁ s' : Scan} {bs : Bytes} {ts mid more : List Token} (h : ReadsTo limit s bs ts s₁ mid)
    (hs₁ : s₁ ≠ ⟨[], .more⟩) (hmore : ∀ rest, Spells rest mid → ReadsTo limit s₁ rest mid s' more) :
    ReadsTo limit s bs ts s' more := by
  obtain ⟨used, rest, rfl, hrest, hread⟩ := h
  obtain ⟨used', rest', rfl, hrest', hread'⟩ := hmore rest hrest
  refine ⟨used ++ used', rest', (List.append_assoc _ _ _).symm, hrest', fun fuel => ?_⟩
  rw [List.length_append, Nat.add_assoc, hread]
  unfold goOn
  rw [if_neg hs₁, hread' fuel, map_ahead]
  rfl

theorem ReadsTo.congr {s s₁ s' : Scan} {bs : Bytes} {t : Token} {ts more : List Token} (hspells : Spells bs (t :: ts))
    (hnext : t.isWord = true → ∀ u ∈ ts.head?, u.isWord = false) (hstep : s.step limit t = s₁.step limit t)
    (h : ReadsTo limit s₁ bs (t :: ts) s' more) : ReadsTo limit s bs (t :: ts) s' more := by
  obtain ⟨rest, hlex, -⟩ := hspells.lexOne hnext
  obtain ⟨used, rest', hts, hrest', hread⟩ := h
  exact ⟨used, rest', hts, hrest', fun fuel => by rw [readFrom_congr hlex hstep, hread fuel]⟩

theorem begin_open {stack : List Bool} (h : stack.length < limit) :
    (⟨stack, .value⟩ : Scan).step limit (.punct 0x5B) = some ⟨false :: stack, .item⟩ ∧
      (⟨stack, .value⟩ : Scan).step limit (.punct 0x7B) = some ⟨true :: stack, .name⟩ :=
  ⟨if_pos h, if_pos h⟩

mutual

theorem Reads.readsTo : ∀ {n : Nat} {ts more : List Token} {tree : Tree}, Reads n ts tree more → ∀ {stack : List Bool} {bs : Bytes},
    stack.length + n ≤ limit → Spells bs ts → (∀ u ∈ more.head?, u.isWord = false) →
    ReadsTo limit ⟨stack, .value⟩ bs ts ⟨stack, .more⟩ more
  | _, _, _, _, .literal hliteral, _, _, _, hspells, hfollow => .last hspells (fun _ => hfollow) (if_pos hliteral)
  | _, _, _, _, .string, _, _, _, hspells, _ => .last hspells (fun h => by cases h) rfl
  | _, _, _, _, .emptyArray, _, _, hlimit, hspells, _ =>
    .token hspells (fun h => by cases h) (begin_open (by omega)).1 (fun h => by cases h) fun _ hrest =>
      .last hrest (fun h => by cases h) rfl
  | _, _, _, _, .array hitems, stack, _, hlimit, hspells, _ => by
    refine .token hspells (fun h => by cases h) (@begin_open limit stack (by omega)).1 (fun h => by cases h) fun rest hrest => ?_
    obtain ⟨t, ts, rfl, ht, hnext⟩ := hitems.head
    refine .congr hrest hnext (step_item ht) (hitems.readsTo ?_ hrest)
    omega
  | _, _, _, _, .emptyObject, _, _, hlimit, hspells, _ =>
    .token hspells (fun h => by cases h) (begin_open (by omega)).2 (fun h => by cases h) fun _ hrest =>
      .last hrest (fun h => by cases h) rfl
  | _, _, _, _, .object hmembers, stack, _, hlimit, hspells, _ => by
    refine .token hspells (fun h => by cases h) (@begin_open limit stack (by omega)).2 (fun h => by cases h) fun rest hrest => ?_
    obtain ⟨name, ts, rfl⟩ := hmembers.head
    have hstep : (⟨true :: stack, .name⟩ : Scan).step limit (.string name) =
        (⟨true :: stack, .member⟩ : Scan).step limit (.string name) := rfl
    exact .congr hrest (fun h => by cases h) hstep (hmembers.readsTo (by omega) hrest)

theorem ReadsItems.readsTo : ∀ {n : Nat} {ts more : List Token} {items : List Tree}, ReadsItems n ts items more →
    ∀ {stack : List Bool} {bs : Bytes}, stack.length + 1 + n ≤ limit → Spells bs ts →
    ReadsTo limit ⟨false :: stack, .value⟩ bs ts ⟨stack, .more⟩ more
  | _, _, _, _, .last hitem, _, _, hlimit, hspells =>
    .trans (hitem.readsTo hlimit hspells (fun u hu => by cases hu; rfl)) (fun h => by cases h)
      fun _ hrest => .last hrest (fun h => by cases h) rfl
  | _, _, _, _, .more hitem hmore, _, _, hlimit, hspells =>
    .trans (hitem.readsTo hlimit hspells (fun u hu => by cases hu; rfl)) (fun h => by cases h)
      fun _ hrest => .token hrest (fun h => by cases h) rfl (fun h => by cases h)
        fun _ hrest' => hmore.readsTo hlimit hrest'

theorem ReadsMembers.readsTo : ∀ {n : Nat} {ts more : List Token} {members : Members}, ReadsMembers n ts members more →
    ∀ {stack : List Bool} {bs : Bytes}, stack.length + 1 + n ≤ limit → Spells bs ts →
    ReadsTo limit ⟨true :: stack, .member⟩ bs ts ⟨stack, .more⟩ more
  | _, _, _, _, .last hvalue, _, _, hlimit, hspells =>
    .token hspells (fun h => by cases h) rfl (fun h => by cases h) fun _ hname =>
      .token hname (fun h => by cases h) rfl (fun h => by cases h) fun _ hcolon =>
        .trans (hvalue.readsTo hlimit hcolon (fun u hu => by cases hu; rfl)) (fun h => by cases h)
          fun _ hrest => .last hrest (fun h => by cases h) rfl
  | _, _, _, _, .more hvalue hmore, _, _, hlimit, hspells =>
    .token hspells (fun h => by cases h) rfl (fun h => by cases h) fun _ hname =>
      .token hname (fun h => by cases h) rfl (fun h => by cases h) fun _ hcolon =>
        .trans (hvalue.readsTo hlimit hcolon (fun u hu => by cases hu; rfl)) (fun h => by cases h)
          fun _ hrest => .token hrest (fun h => by cases h) rfl (fun h => by cases h)
            fun _ hrest' => hmore.readsTo hlimit hrest'

end

/-! ## The value that is built -/

mutual

theorem Reads.progress : ∀ {n : Nat} {ts more : List Token} {tree : Tree}, Reads n ts tree more → more.length < ts.length
  | _, _, _, _, .literal _ => Nat.lt_succ_self _
  | _, _, _, _, .string => Nat.lt_succ_self _
  | _, _, _, _, .emptyArray | _, _, _, _, .emptyObject => Nat.lt_succ_of_lt (Nat.lt_succ_self _)
  | _, _, _, _, .array h => Nat.lt_succ_of_lt h.progress
  | _, _, _, _, .object h => Nat.lt_succ_of_lt h.progress

theorem ReadsItems.progress : ∀ {n : Nat} {ts more : List Token} {items : List Tree}, ReadsItems n ts items more →
    more.length < ts.length
  | _, _, _, _, .last h => Nat.lt_of_succ_lt h.progress
  | _, _, _, _, .more h hmore => Nat.lt_trans hmore.progress (Nat.lt_of_succ_lt h.progress)

theorem ReadsMembers.progress : ∀ {n : Nat} {ts more : List Token} {members : Members}, ReadsMembers n ts members more →
    more.length < ts.length
  | _, _, _, _, .last h => Nat.lt_succ_of_lt (Nat.lt_succ_of_lt (Nat.lt_of_succ_lt h.progress))
  | _, _, _, _, .more h hmore =>
    Nat.lt_succ_of_lt (Nat.lt_succ_of_lt (Nat.lt_trans hmore.progress (Nat.lt_of_succ_lt h.progress)))

end

mutual

theorem Reads.build : ∀ {n : Nat} {ts more : List Token} {tree : Tree}, Reads n ts tree more → ∀ {fuel : Nat},
    2 * ts.length ≤ fuel + 2 * more.length → build fuel ts = some (tree, more)
  | _, _, _, _, .literal _, _, _ => by rw [Json.build]
  | _, _, _, _, .string, _, _ => by rw [Json.build]
  | _, _, more, _, .emptyArray, fuel, hfuel => by
    simp only [List.length_cons] at hfuel
    obtain ⟨fuel, rfl⟩ : ∃ k, fuel = k + 2 := ⟨fuel - 2, by omega⟩
    rw [Json.build, if_neg (by decide), if_pos rfl, buildItems, if_pos (show (Token.punct 0x5D :: more).head? = some (.punct 0x5D) from rfl)]
    rfl
  | _, _, more, _, .array h, fuel, hfuel => by
    have hprogress := h.progress
    simp only [List.length_cons] at hfuel
    obtain ⟨fuel, rfl⟩ : ∃ k, fuel = k + 1 := ⟨fuel - 1, by omega⟩
    rw [Json.build, if_neg (by decide), if_pos rfl, h.build (by omega)]
    rfl
  | _, _, more, _, .emptyObject, fuel, hfuel => by
    simp only [List.length_cons] at hfuel
    obtain ⟨fuel, rfl⟩ : ∃ k, fuel = k + 1 := ⟨fuel - 1, by omega⟩
    rw [Json.build, if_pos rfl, buildMembers, if_pos rfl]
    rfl
  | _, _, more, _, .object h, fuel, hfuel => by
    have hprogress := h.progress
    simp only [List.length_cons] at hfuel
    obtain ⟨fuel, rfl⟩ : ∃ k, fuel = k + 1 := ⟨fuel - 1, by omega⟩
    rw [Json.build, if_pos rfl, h.build (by omega)]
    rfl

theorem ReadsItems.build : ∀ {n : Nat} {ts more : List Token} {items : List Tree}, ReadsItems n ts items more → ∀ {fuel : Nat},
    2 * ts.length ≤ fuel + 2 * more.length → buildItems fuel ts = some (items, more)
  | _, ts, more, _, .last h, fuel, hfuel => by
    have hprogress := h.progress
    obtain ⟨t, rest, hts, ht, -⟩ := h.head (fun u hu => by cases hu; rfl)
    have hhead : ts.head? ≠ some (.punct 0x5D) := fun heq => ht (Option.some.inj (by rw [← heq, hts]; rfl))
    rw [List.length_cons] at hprogress
    obtain ⟨fuel, rfl⟩ : ∃ k, fuel = k + 1 := ⟨fuel - 1, by omega⟩
    rw [buildItems, if_neg hhead, h.build (by rw [List.length_cons]; omega)]
    rfl
  | _, ts, more, _, .more h hmore, fuel, hfuel => by
    have hprogress := h.progress
    have hrest := hmore.progress
    obtain ⟨t, rest, hts, ht, -⟩ := h.head (fun u hu => by cases hu; rfl)
    have hhead : ts.head? ≠ some (.punct 0x5D) := fun heq => ht (Option.some.inj (by rw [← heq, hts]; rfl))
    rw [List.length_cons] at hprogress
    obtain ⟨fuel, rfl⟩ : ∃ k, fuel = k + 1 := ⟨fuel - 1, by omega⟩
    rw [buildItems, if_neg hhead, h.build (by rw [List.length_cons]; omega)]
    dsimp only
    rw [if_neg (by decide), if_pos rfl, hmore.build (by omega)]
    rfl

theorem ReadsMembers.build : ∀ {n : Nat} {ts more : List Token} {members : Members}, ReadsMembers n ts members more →
    ∀ {fuel : Nat}, 2 * ts.length ≤ fuel + 2 * more.length → buildMembers fuel ts = some (members, more)
  | _, _, more, _, .last h, fuel, hfuel => by
    have hprogress := h.progress
    simp only [List.length_cons] at hprogress hfuel
    obtain ⟨fuel, rfl⟩ : ∃ k, fuel = k + 1 := ⟨fuel - 1, by omega⟩
    rw [buildMembers, if_pos rfl, h.build (by rw [List.length_cons]; omega)]
    rfl
  | _, _, more, _, .more h hmore, fuel, hfuel => by
    have hprogress := h.progress
    have hrest := hmore.progress
    simp only [List.length_cons] at hprogress hfuel
    obtain ⟨fuel, rfl⟩ : ∃ k, fuel = k + 1 := ⟨fuel - 1, by omega⟩
    rw [buildMembers, if_pos rfl, h.build (by rw [List.length_cons]; omega)]
    dsimp only
    rw [if_neg (by decide), if_pos rfl, hmore.build (by omega)]
    rfl

end

/-- **What a text denotes is what `decode` finds.** -/
theorem decode_of_denotes {n : Nat} (hn : n ≤ limit) {bs : Bytes} {tree : Tree} (h : Denotes n bs tree) :
    ∃ rest, decode limit bs = some (tree, rest) ∧ rest.all isSpace = true := by
  obtain ⟨ts, hspells, hreads⟩ := h
  have hdepth : ([] : List Bool).length + n ≤ limit := by rwa [List.length_nil, Nat.zero_add]
  obtain ⟨used, rest, hused, hrest, hread⟩ := hreads.readsTo hdepth hspells (fun u hu => by cases hu)
  rw [List.append_nil] at hused
  subst hused
  have hlength : ts.length ≤ bs.length := hspells.length_le
  have hfrom : readFrom limit bs.length ⟨[], .value⟩ bs = some (ts, rest) := by
    have h := hread (bs.length - ts.length)
    rw [Nat.add_sub_cancel' hlength] at h
    rw [h]
    show some (ts ++ [], rest) = _
    rw [List.append_nil]
  refine ⟨rest, ?_, ?_⟩
  · unfold decode
    rw [hfrom]
    dsimp only
    unfold ofTokens
    rw [hreads.build (by simp)]
    rfl
  · cases hrest with
    | nil h => exact List.all_eq_true.2 h

end Complete

/-! ## What is read is denoted -/

section Sound

variable {limit : Nat}

theorem spells_of_readFrom : ∀ {n : Nat} {s : Scan} {bs rest : Bytes} {ts : List Token}, readFrom limit n s bs = some (ts, rest) →
    (rest.all isSpace = true → Spells bs ts) ∧ Scan.run limit s ts = some ⟨[], .more⟩
  | 0, _, _, _, _, h => by cases h
  | n + 1, s, bs, rest, ts, h => by
    rw [readFrom] at h
    split at h
    · cases h
    next t after hlex =>
      obtain ⟨spaces, hspaces, hbs, ht⟩ := lexOne_proper hlex
      split at h
      · cases h
      next s' hstep =>
        split at h
        next hend =>
          cases h
          refine ⟨fun hrest => hbs ▸ .cons hspaces ht (.nil (List.all_eq_true.1 hrest)), ?_⟩
          rw [Scan.run, hstep, hend]
          rfl
        · obtain ⟨⟨ts', rest'⟩, hmore, heq⟩ := Option.map_eq_some_iff.1 h
          cases heq
          obtain ⟨hspells, hrun⟩ := spells_of_readFrom hmore
          refine ⟨fun hrest => hbs ▸ .cons hspaces ht (hspells hrest), ?_⟩
          rw [Scan.run, hstep]
          exact hrun

theorem run_cons {s s' : Scan} {ts : List Token} (h : Scan.run limit s ts = some s') (hne : s ≠ s') :
    ∃ t rest s₁, ts = t :: rest ∧ s.step limit t = some s₁ ∧ Scan.run limit s₁ rest = some s' := by
  cases ts with
  | nil => exact absurd (Option.some.inj h) hne
  | cons t rest =>
    obtain ⟨s₁, hstep, hrun⟩ := Option.bind_eq_some_iff.1 h
    exact ⟨t, rest, s₁, rfl, hstep, hrun⟩

/-- What follows a value inside of brackets: a comma, or the bracket that closes them. -/
theorem step_more {b : Bool} {stack : List Bool} {t : Token} {s : Scan} (h : (⟨b :: stack, .more⟩ : Scan).step limit t = some s) :
    (t = .punct 0x2C ∧ s = ⟨b :: stack, if b then .member else .value⟩) ∨
      (t = .punct (if b then 0x7D else 0x5D) ∧ s = ⟨stack, .more⟩) := by
  cases t with
  | literal | string => cases h
  | punct c =>
    have h' : (if c = 0x2C then (⟨b :: stack, .more⟩ : Scan).comma else (⟨b :: stack, .more⟩ : Scan).close c) = some s := h
    split at h'
    next hc =>
      subst hc
      cases b <;> cases h' <;> exact .inl ⟨rfl, rfl⟩
    · cases b with
      | true =>
        rw [Scan.close] at h'
        dsimp only at h'
        split at h'
        next hc =>
          cases h'
          exact .inr ⟨by rw [hc]; rfl, rfl⟩
        · cases h'
      | false =>
        rw [Scan.close] at h'
        dsimp only at h'
        split at h'
        next hc =>
          cases h'
          exact .inr ⟨by rw [hc]; rfl, rfl⟩
        · cases h'

/-- From each state in which a value, an item or a member is due, an accepted run reads one. -/
def RunsRead (limit : Nat) (ts : List Token) : Prop :=
  (∀ {stack : List Bool}, Scan.run limit ⟨stack, .value⟩ ts = some ⟨[], .more⟩ →
    ∃ tree more, Reads (limit - stack.length) ts tree more ∧ Scan.run limit ⟨stack, .more⟩ more = some ⟨[], .more⟩) ∧
  (∀ {stack : List Bool}, Scan.run limit ⟨false :: stack, .value⟩ ts = some ⟨[], .more⟩ →
    ∃ items more, ReadsItems (limit - (stack.length + 1)) ts items more ∧
      Scan.run limit ⟨stack, .more⟩ more = some ⟨[], .more⟩) ∧
  (∀ {stack : List Bool}, Scan.run limit ⟨true :: stack, .member⟩ ts = some ⟨[], .more⟩ →
    ∃ members more, ReadsMembers (limit - (stack.length + 1)) ts members more ∧
      Scan.run limit ⟨stack, .more⟩ more = some ⟨[], .more⟩)

theorem reads_value {ts : List Token} (ih : ∀ ts' : List Token, ts'.length < ts.length → RunsRead limit ts') {stack : List Bool}
    (h : Scan.run limit ⟨stack, .value⟩ ts = some ⟨[], .more⟩) :
    ∃ tree more, Reads (limit - stack.length) ts tree more ∧ Scan.run limit ⟨stack, .more⟩ more = some ⟨[], .more⟩ := by
  obtain ⟨t, rest, s₁, rfl, hstep, hrun⟩ := run_cons h (fun h => by cases h)
  have hbegin : (⟨stack, .value⟩ : Scan).begin limit t = some s₁ := hstep
  cases t with
  | literal text =>
    rw [Scan.begin] at hbegin
    split at hbegin
    next hliteral =>
      cases hbegin
      exact ⟨_, rest, .literal hliteral, hrun⟩
    · cases hbegin
  | string body =>
    cases hbegin
    exact ⟨_, rest, .string, hrun⟩
  | punct b =>
    rw [Scan.begin] at hbegin
    split at hbegin
    next hlimit =>
      have hdepth : limit - stack.length = limit - (stack.length + 1) + 1 := by
        have : stack.length < limit := hlimit
        omega
      rw [hdepth]
      split at hbegin
      next hb =>
        subst hb
        cases hbegin
        obtain ⟨u, rest', s₂, rfl, hstep', hrun'⟩ := run_cons hrun (fun h => by cases h)
        cases u with
        | literal text => cases hstep'
        | string name =>
          have hmember : Scan.run limit ⟨true :: stack, .member⟩ (.string name :: rest') = some ⟨[], .more⟩ := hrun
          obtain ⟨members, more, hreads, hmore⟩ := (ih (.string name :: rest') (Nat.lt_succ_self _)).2.2 hmember
          exact ⟨_, more, .object hreads, hmore⟩
        | punct c =>
          have hclose : (if c = 0x7D then some (⟨stack, .more⟩ : Scan) else none) = some s₂ := hstep'
          split at hclose
          next hc =>
            subst hc
            cases hclose
            exact ⟨_, rest', .emptyObject, hrun'⟩
          · cases hclose
      · split at hbegin
        next hb =>
          subst hb
          cases hbegin
          obtain ⟨u, rest', s₂, rfl, hstep', hrun'⟩ := run_cons hrun (fun h => by cases h)
          by_cases hu : u = .punct 0x5D
          · subst hu
            cases hstep'
            exact ⟨_, rest', .emptyArray, hrun'⟩
          · have hvalue : Scan.run limit ⟨false :: stack, .value⟩ (u :: rest') = some ⟨[], .more⟩ := by
              rw [Scan.run, ← step_item hu]
              exact hrun
            obtain ⟨items, more, hreads, hmore⟩ := (ih (u :: rest') (Nat.lt_succ_self _)).2.1 hvalue
            exact ⟨_, more, .array hreads, hmore⟩
        · cases hbegin
    · cases hbegin

theorem runsRead : ∀ (length : Nat) (ts : List Token), ts.length ≤ length → RunsRead limit ts := by
  intro length
  induction length with
  | zero =>
    intro ts hts
    cases List.length_eq_zero_iff.1 (Nat.le_zero.1 hts)
    exact ⟨fun h => (by cases h), fun h => (by cases h), fun h => (by cases h)⟩
  | succ length ih =>
    intro ts hts
    have hshorter : ∀ ts' : List Token, ts'.length < ts.length → RunsRead limit ts' := fun ts' h =>
      ih ts' (Nat.le_of_lt_succ (Nat.lt_of_lt_of_le h hts))
    refine ⟨reads_value hshorter, fun {stack} h => ?_, fun {stack} h => ?_⟩
    · obtain ⟨item, more, hreads, hmore⟩ := reads_value hshorter h
      obtain ⟨t, rest, s₁, rfl, hstep, hrun⟩ := run_cons hmore (fun h => by cases h)
      rcases step_more hstep with ⟨rfl, rfl⟩ | ⟨rfl, rfl⟩
      · obtain ⟨items, more', hitems, hmore'⟩ := (hshorter rest (Nat.lt_of_succ_lt hreads.progress)).2.1 hrun
        exact ⟨_, more', .more hreads hitems, hmore'⟩
      · exact ⟨_, rest, .last hreads, hrun⟩
    · obtain ⟨t, ts₁, s₁, rfl, hstep, hrun⟩ := run_cons h (fun h => by cases h)
      cases t with
      | literal | punct => cases hstep
      | string name =>
        cases hstep
        obtain ⟨t, ts₂, s₂, rfl, hstep', hrun'⟩ := run_cons hrun (fun h => by cases h)
        cases t with
        | literal | string => cases hstep'
        | punct c =>
          have hcolon : (if c = 0x3A then some (⟨true :: stack, .value⟩ : Scan) else none) = some s₂ := hstep'
          split at hcolon
          next hc =>
            subst hc
            cases hcolon
            obtain ⟨value, more, hreads, hmore⟩ := (hshorter ts₂ (Nat.lt_succ_of_lt (Nat.lt_succ_self _))).1 hrun'
            obtain ⟨t, rest, s₃, rfl, hstep'', hrun''⟩ := run_cons hmore (fun h => by cases h)
            rcases step_more hstep'' with ⟨rfl, rfl⟩ | ⟨rfl, rfl⟩
            · have hlength : rest.length < ts₂.length := Nat.lt_of_succ_lt hreads.progress
              obtain ⟨members, more', hmembers, hmore'⟩ :=
                (hshorter rest (Nat.lt_succ_of_lt (Nat.lt_succ_of_lt hlength))).2.2 hrun''
              exact ⟨_, more', .more hreads hmembers, hmore'⟩
            · exact ⟨_, rest, .last hreads, hrun''⟩
          · cases hcolon

theorem run_end {more : List Token} (h : Scan.run limit ⟨[], .more⟩ more = some ⟨[], .more⟩) : more = [] := by
  cases more with
  | nil => rfl
  | cons t rest =>
    obtain ⟨s₁, hstep, -⟩ := Option.bind_eq_some_iff.1 h
    cases t with
    | literal | string => cases hstep
    | punct b =>
      have hnone : (if b = 0x2C then (none : Option Scan) else none) = some s₁ := hstep
      rw [ite_self] at hnone
      cases hnone

/-- What `decode` finds is read from tokens. -/
theorem reads_of_decode {bs rest : Bytes} {tree : Tree} (h : decode limit bs = some (tree, rest)) :
    ∃ ts, (rest.all isSpace = true → Spells bs ts) ∧ Reads limit ts tree [] := by
  unfold decode at h
  split at h
  · cases h
  next ts rest' hread =>
    obtain ⟨⟨tree', more'⟩, hbuild, heq⟩ := Option.map_eq_some_iff.1 h
    cases heq
    obtain ⟨hspells, hrun⟩ := spells_of_readFrom hread
    obtain ⟨tree, more, hreads, hmore⟩ := (runsRead ts.length ts (Nat.le_refl _)).1 hrun
    cases run_end hmore
    have hbuilt : ofTokens ts = some (tree, []) := hreads.build (by simp)
    rw [hbuilt] at hbuild
    cases hbuild
    exact ⟨ts, hspells, hreads⟩

/-- **`decode` finds a value and then nothing but spaces** exactly when the text denotes that value. -/
theorem decode_iff {bs : Bytes} {tree : Tree} :
    (∃ rest, decode limit bs = some (tree, rest) ∧ rest.all isSpace = true) ↔ Denotes limit bs tree := by
  constructor
  · rintro ⟨rest, h, hrest⟩
    obtain ⟨ts, hspells, hreads⟩ := reads_of_decode h
    exact ⟨ts, hspells hrest, hreads⟩
  · exact decode_of_denotes (Nat.le_refl _)

/-- **A text denotes one value.** -/
theorem Denotes.unique {n : Nat} {bs : Bytes} {tree tree' : Tree} (h : Denotes n bs tree) (h' : Denotes n bs tree') : tree = tree' := by
  obtain ⟨rest, hdecode, -⟩ := decode_iff.2 h
  obtain ⟨rest', hdecode', -⟩ := decode_iff.2 h'
  rw [hdecode] at hdecode'
  exact congrArg Prod.fst (Option.some.inj hdecode')

end Sound

/-! ## Decoded values -/

theorem numeric_ofLiteral {text : Bytes} (h : isLiteral text = true) : Numeric (ofLiteral text) := by
  unfold ofLiteral
  unfold isLiteral at h
  rw [Bool.or_eq_true, Bool.or_eq_true, Bool.or_eq_true, beq_iff_eq, beq_iff_eq, beq_iff_eq] at h
  split
  · exact .bool true
  split
  · exact .bool false
  split
  · exact .null
  next h₁ h₂ h₃ => exact .number (h.resolve_left (fun h => h.elim (fun h => h.elim h₁ h₂) h₃))

mutual

theorem Reads.numeric : ∀ {n : Nat} {ts more : List Token} {tree : Tree}, Reads n ts tree more → Numeric tree
  | _, _, _, _, .literal h => numeric_ofLiteral h
  | _, _, _, _, .string => .string _
  | _, _, _, _, .emptyArray => .array (fun _ h => by cases h)
  | _, _, _, _, .array h => .array h.numeric
  | _, _, _, _, .emptyObject => .object (fun _ h => by cases h)
  | _, _, _, _, .object h => .object h.numeric

theorem ReadsItems.numeric : ∀ {n : Nat} {ts more : List Token} {items : List Tree}, ReadsItems n ts items more →
    ∀ item ∈ items, Numeric item
  | _, _, _, _, .last h => List.forall_mem_singleton.2 h.numeric
  | _, _, _, _, .more h hmore => List.forall_mem_cons.2 ⟨h.numeric, hmore.numeric⟩

theorem ReadsMembers.numeric : ∀ {n : Nat} {ts more : List Token} {members : Members}, ReadsMembers n ts members more →
    ∀ m ∈ members, Numeric m.2
  | _, _, _, _, .last h => List.forall_mem_singleton.2 h.numeric
  | _, _, _, _, .more h hmore => List.forall_mem_cons.2 ⟨h.numeric, hmore.numeric⟩

end

/-- A token whose string has no escapes. -/
def Token.isPlain : Token → Bool
  | .punct b => isPunct b
  | .literal text => isLiteral text
  | .string body => body.all (fun b => b != 0x22 && b != 0x5C && !decide (b < 0x20))

theorem body_of_plain : ∀ {bs : Bytes}, bs.all (fun b => b != 0x22 && b != 0x5C && !decide (b < 0x20)) = true → Body bs
  | [], _ => .nil
  | b :: bs, h => by
    rw [List.all_cons, Bool.and_eq_true, Bool.and_eq_true, Bool.and_eq_true, bne_iff_ne, bne_iff_ne, Bool.not_eq_true',
      decide_eq_false_iff_not] at h
    exact .plain h.1.1.1 h.1.1.2 h.1.2 (body_of_plain h.2)

theorem body_of_not_ascii {bs : Bytes} (h : ∀ b ∈ bs, ¬ b < 0x80) : Body bs := by
  refine body_of_plain (List.all_eq_true.2 fun b hb => ?_)
  exact Utf8.forall_byte (P := fun b => ¬ b < 0x80 → (b != 0x22 && b != 0x5C && !decide (b < 0x20)) = true) (by decide) b (h b hb)

theorem body_quoteByte {b : UInt8} (h : b < 0x80) : Body (quoteByte b) := by
  have hscan := Utf8.forall_byte (P := fun b => b < 0x80 → scanString (quoteByte b ++ [0x22]) = some (quoteByte b, []))
    (by decide) b h
  exact (body_of_scanString hscan).2

theorem body_quoteSeq {seq : Bytes} (h : Utf8.Seq seq) : Body (quoteSeq seq) := by
  by_cases hl : isLineSeparator seq = true
  · have hsep := isLineSeparator_seq h (show isLineSeparator (seq ++ []) = true by rwa [List.append_nil])
    rcases hsep with rfl | rfl
    · exact .unicode (w := 0x32) (x := 0x30) (y := 0x32) (z := 0x38) (by decide) .nil
    · exact .unicode (w := 0x32) (x := 0x30) (y := 0x32) (z := 0x39) (by decide) .nil
  · have hplain : ∀ {a b : UInt8} {tail : Bytes}, ¬ a < 0x80 → Utf8.Seq (a :: b :: tail) → quoteSeq (a :: b :: tail) = a :: b :: tail →
        Body (quoteSeq (a :: b :: tail)) := by
      intro a b tail ha hseq hself
      rw [hself]
      exact body_of_not_ascii (List.forall_mem_cons.2 ⟨ha, hseq.tail_not_ascii⟩)
    have hself : ∀ {a b : UInt8} {tail : Bytes}, seq = a :: b :: tail → quoteSeq (a :: b :: tail) = a :: b :: tail := by
      rintro a b tail rfl
      exact if_neg hl
    cases h with
    | one ha => exact body_quoteByte ha
    | two ha h2 => exact hplain ha (.two ha h2) (hself rfl)
    | three ha h2 h3 => exact hplain ha (.three ha h2 h3) (hself rfl)
    | four ha h2 h3 h4 => exact hplain ha (.four ha h2 h3 h4) (hself rfl)

/-- **What is quoted is the body of a string.** -/
theorem body_quote (bs : Bytes) : Body (quote bs) := by
  induction bs using Utf8.seqInduction with
  | nil => exact .nil
  | bad b rest h ih =>
    rw [quote_bad h]
    exact .unicode (w := 0x66) (x := 0x66) (y := 0x66) (z := 0x64) (by decide) ih
  | good seq rest h ih =>
    rw [quote_seq h]
    exact (body_quoteSeq h).append ih

theorem Token.proper_of_isPlain {t : Token} (h : t.isPlain = true) : t.Proper := by
  cases t with
  | punct b => exact h
  | literal text => exact h
  | string body => exact body_of_plain h

theorem spells_render : ∀ {ts : List Token}, (∀ t ∈ ts, t.Proper) → Spells (render ts) ts
  | [], _ => .nil (fun _ h => by cases h)
  | t :: ts, h => by
    rw [List.forall_mem_cons] at h
    exact @Spells.cons [] _ _ _ (fun _ h => by cases h) h.1 (spells_render h.2)

theorem numeric_of_decode {limit : Nat} {bs rest : Bytes} {tree : Tree} (h : decode limit bs = some (tree, rest)) :
    Numeric tree := by
  obtain ⟨_, -, hreads⟩ := reads_of_decode h
  exact hreads.numeric

end Json
end Lib
