import DexConnectors.JwtDepth
/-!
# JwtDepthBounds — what the guard of `_read_jwt_expiry_seconds` bounds (`sdkpython/.../oauthtoken/manifest_refresh.py`)

A byte of a sequence beyond ASCII says nothing to the guard, and neither does its code point, so that over UTF-8 the guard counts
what the reader nests.  In the wider encodings a character may hold the byte of a quote, after which the guard takes brackets for
text.
-/
namespace Dex
namespace JwtDepth

open Lib Lib.Utf8 Lib.PythonJson

/-! ## UTF-8 -/

/-- What is neither ASCII nor structure only ends an escape. -/
theorem step_high {code : Nat} (h : 0x80 ≤ code) (s : Scan) : s.step code = some { s with escaped := s.escaped && !s.inString } := by
  have hne : code ≠ 0x22 ∧ code ≠ 0x5C ∧ code ≠ 0x7B ∧ code ≠ 0x5B ∧ code ≠ 0x7D ∧ code ≠ 0x5D := by omega
  obtain ⟨h1, h2, h3, h4, h5, h6⟩ := hne
  obtain ⟨depth, inString, escaped⟩ := s
  cases inString <;> cases escaped <;> simp [Scan.step, h1, h2, h3, h4, h5, h6]

theorem run_high : ∀ {codes rest : Codes} {s : Scan}, (∀ c ∈ codes, 0x80 ≤ c) → (s.escaped && s.inString) = false →
    s.run (codes ++ rest) = s.run rest
  | [], _, _, _, _ => rfl
  | code :: codes, rest, s, h, hs => by
    have hsame : ({ s with escaped := s.escaped && !s.inString } : Scan) = s := by
      obtain ⟨depth, inString, escaped⟩ := s
      cases inString <;> cases escaped <;> first | rfl | cases hs
    rw [List.cons_append, Scan.run, step_high (h code List.mem_cons_self), hsame]
    exact run_high (fun c hc => h c (List.mem_cons_of_mem code hc)) hs

/-- The bytes of a code point, and the code point, leave the scan in one state. -/
theorem run_sequence {codes rest : Codes} {code : Nat} (hne : codes ≠ []) (hbytes : ∀ c ∈ codes, 0x80 ≤ c) (hcode : 0x80 ≤ code) (s : Scan) :
    s.run (codes ++ rest) = s.run (code :: rest) := by
  cases codes with
  | nil => exact absurd rfl hne
  | cons first codes =>
    rw [List.cons_append, Scan.run, Scan.run, step_high hcode, step_high (hbytes first List.mem_cons_self)]
    refine run_high (fun c hc => hbytes c (List.mem_cons_of_mem first hc)) ?_
    obtain ⟨depth, inString, escaped⟩ := s
    cases inString <;> cases escaped <;> rfl

/-- What is beyond ASCII, as bytes and as a code point. -/
def IsHighSequence (seq : Bytes) : Prop := (∀ b ∈ seq, 0x80 ≤ b.toNat) ∧ 0x80 ≤ Unicode.runeOf seq

theorem not_lt_toNat {b : UInt8} (h : ¬ b < 0x80) : 0x80 ≤ b.toNat := Nat.le_of_not_lt h

/-- **A sequence is one ASCII byte, or all of it is beyond ASCII.** -/
theorem sequence_cases {seq : Bytes} (h : Seq seq) : (∃ b, seq = [b]) ∨ IsHighSequence seq := by
  have htail := fun b tail (hseq : seq = b :: tail) => Seq.tail_not_ascii (hseq ▸ h)
  cases h with
  | one => exact .inl ⟨_, rfl⟩
  | @two a b ha hb =>
    refine .inr ⟨List.forall_mem_cons.2 ⟨not_lt_toNat ha, fun x hx => not_lt_toNat (htail a [b] rfl x hx)⟩, ?_⟩
    simp only [Bool.and_eq_true, decide_eq_true_eq, UInt8.le_iff_toNat_le] at hb
    have hlow : 0xC2 ≤ a.toNat := hb.1.1
    show 0x80 ≤ (a.toNat - 0xC0) * 64 + (b.toNat - 0x80)
    omega
  | @three a b c ha h2 hc =>
    refine .inr ⟨List.forall_mem_cons.2 ⟨not_lt_toNat ha, fun x hx => not_lt_toNat (htail a [b, c] rfl x hx)⟩, ?_⟩
    show 0x80 ≤ ((a.toNat - 0xE0) * 64 + (b.toNat - 0x80)) * 64 + (c.toNat - 0x80)
    have hstarts := (Bool.and_eq_true_iff.1 hc).1
    simp only [startsThree, Bool.or_eq_true, Bool.and_eq_true, decide_eq_true_eq, beq_iff_eq, UInt8.le_iff_toNat_le] at hstarts
    rcases hstarts with ((⟨-, hb⟩ | ⟨⟨hlow, -⟩, -⟩) | ⟨hlow, -⟩) | ⟨⟨hlow, -⟩, -⟩
    · have hb : 0xA0 ≤ b.toNat := hb.1
      omega
    · have hlow : 0xE1 ≤ a.toNat := hlow
      omega
    · have hlow : a.toNat = 0xED := congrArg UInt8.toNat hlow
      omega
    · have hlow : 0xEE ≤ a.toNat := hlow
      omega
  | @four a b c d ha h2 h3 hd =>
    refine .inr ⟨List.forall_mem_cons.2 ⟨not_lt_toNat ha, fun x hx => not_lt_toNat (htail a [b, c, d] rfl x hx)⟩, ?_⟩
    show 0x80 ≤ (((a.toNat - 0xF0) * 64 + (b.toNat - 0x80)) * 64 + (c.toNat - 0x80)) * 64 + (d.toNat - 0x80)
    have hstarts := (Bool.and_eq_true_iff.1 (Bool.and_eq_true_iff.1 hd).1).1
    simp only [startsFour, Bool.or_eq_true, Bool.and_eq_true, decide_eq_true_eq, beq_iff_eq, UInt8.le_iff_toNat_le] at hstarts
    rcases hstarts with (⟨-, hb⟩ | ⟨⟨hlow, -⟩, -⟩) | ⟨hlow, -⟩
    · have hb : 0x90 ≤ b.toNat := hb.1
      omega
    · have hlow : 0xF1 ≤ a.toNat := hlow
      omega
    · have hlow : a.toNat = 0xF4 := congrArg UInt8.toNat hlow
      omega

/-- The head of what decodes. -/
theorem head_cases {bs : Bytes} {n : Nat} (h : codeLen bs = n + 1) :
    n + 1 ≤ bs.length ∧ ((∃ b, bs.take (n + 1) = [b]) ∨ IsHighSequence (bs.take (n + 1))) := by
  unfold codeLen at h
  by_cases hzero : seqLen bs = 0
  · rw [if_pos hzero] at h
    unfold surrogateLen at h
    split at h
    next a b c rest =>
      split at h
      next hsurrogate =>
        obtain ⟨rfl, hlow, hhigh, htail⟩ := hsurrogate
        obtain rfl : n = 2 := by omega
        refine ⟨by simp, .inr ⟨?_, ?_⟩⟩
        · have hb : 0xA0 ≤ b.toNat := hlow
          have hc := not_lt_toNat (not_ascii_of_isTail c htail)
          intro x hx
          simp only [List.take_succ_cons, List.take_zero, List.mem_cons, List.not_mem_nil, or_false] at hx
          rcases hx with rfl | rfl | rfl
          · decide
          · omega
          · exact hc
        · have hb : 0xA0 ≤ b.toNat := hlow
          show 0x80 ≤ ((UInt8.toNat 0xED - 0xE0) * 64 + (b.toNat - 0x80)) * 64 + (c.toNat - 0x80)
          have hed : UInt8.toNat 0xED = 0xED := rfl
          omega
      · cases h
    · cases h
  · rw [if_neg hzero] at h
    obtain ⟨seq, rest, rfl, hseq⟩ := seq_of_seqLen hzero
    rw [seqLen_append hseq rest] at h
    rw [← h, List.take_left]
    exact ⟨by simp, sequence_cases hseq⟩

theorem run_decodeUtf8From : ∀ (bs : Bytes) {skipped : Nat} {text : Codes}, decodeUtf8From skipped bs = some text →
    ∀ s : Scan, s.run ((bs.drop skipped).map UInt8.toNat) = s.run text
  | [], skipped, text, h, s => by
    unfold decodeUtf8From at h
    cases h
    rw [List.drop_nil]
    rfl
  | b :: rest, skipped + 1, text, h, s => @run_decodeUtf8From rest skipped text h s
  | b :: rest, 0, text, h, s => by
    unfold decodeUtf8From at h
    split at h
    · cases h
    next n hlen =>
      obtain ⟨more, hmore, heq⟩ := Option.map_eq_some_iff.1 h
      have ih := run_decodeUtf8From rest hmore
      obtain ⟨-, hhead⟩ := head_cases hlen
      have hsplit : (b :: rest).map UInt8.toNat =
          ((b :: rest).take (n + 1)).map UInt8.toNat ++ (rest.drop n).map UInt8.toNat := by
        rw [← List.map_append]
        exact congrArg _ (List.take_append_drop (n + 1) (b :: rest)).symm
      have hnext : ∀ code, s.run (code :: (rest.drop n).map UInt8.toNat) = s.run (code :: more) := by
        intro code
        rw [Scan.run, Scan.run]
        cases s.step code with
        | none => rfl
        | some s' => exact ih s'
      rw [List.drop_zero, hsplit, ← heq]
      rcases hhead with ⟨c, hc⟩ | ⟨hbytes, hcode⟩
      · rw [hc]
        exact hnext c.toNat
      · rw [run_sequence (by simp) (fun c hc => ?_) hcode]
        · exact hnext _
        · obtain ⟨x, hx, rfl⟩ := List.mem_map.1 hc
          exact hbytes x hx

/-- **Over UTF-8 the guard sees what the reader sees.** -/
theorem isBounded_decodeUtf8 {bs : Bytes} {text : Codes} (h : decodeUtf8 bs = some text) :
    isBounded (bs.map UInt8.toNat) = isBounded text := by
  unfold isBounded
  rw [← run_decodeUtf8From bs h]
  rfl

theorem isBounded_bom (bs : Bytes) : isBounded ((0xEF :: 0xBB :: 0xBF :: bs).map UInt8.toNat) = isBounded (bs.map UInt8.toNat) := by
  have hrun : Scan.run ⟨0, false, false⟩ ([0xEF, 0xBB, 0xBF] ++ bs.map UInt8.toNat) = Scan.run ⟨0, false, false⟩ (bs.map UInt8.toNat) :=
    run_high (by decide) rfl
  have hbytes : (0xEF :: 0xBB :: 0xBF :: bs : Bytes).map UInt8.toNat = [0xEF, 0xBB, 0xBF] ++ bs.map UInt8.toNat := rfl
  unfold isBounded
  rw [hbytes, hrun]

theorem bom_of_utf8Sig {payload : Bytes} (h : detectEncoding payload = .utf8Sig) :
    ∃ bs, payload = 0xEF :: 0xBB :: 0xBF :: bs := by
  have hprefix : [0xEF, 0xBB, 0xBF].isPrefixOf payload = true := by
    by_contra hnot
    unfold detectEncoding at h
    rw [if_neg hnot] at h
    revert h
    repeat' split
    all_goals exact fun h => by cases h
  obtain ⟨bs, rfl⟩ := List.isPrefixOf_iff_prefix.1 hprefix
  exact ⟨bs, rfl⟩

theorem isBounded_encoding {payload : Bytes} {text : Codes} (hutf8 : (detectEncoding payload).isUtf8 = true)
    (h : (detectEncoding payload).decode payload = some text) : isBounded (payload.map UInt8.toNat) = isBounded text := by
  cases hencoding : detectEncoding payload with
  | utf8 =>
    rw [hencoding] at h
    exact isBounded_decodeUtf8 h
  | utf8Sig =>
    rw [hencoding] at h
    obtain ⟨bs, rfl⟩ := bom_of_utf8Sig hencoding
    rw [isBounded_bom]
    exact isBounded_decodeUtf8 h
  | utf16 bigEndian bom =>
    rw [hencoding] at hutf8
    cases hutf8
  | utf32 bigEndian bom =>
    rw [hencoding] at hutf8
    cases hutf8

theorem decodeUtf8From_skip (seq rest : Bytes) : decodeUtf8From seq.length (seq ++ rest) = decodeUtf8From 0 rest := by
  induction seq with
  | nil => rfl
  | cons b seq ih => simp only [List.length_cons, List.cons_append, decodeUtf8From, ih]

theorem decodeUtf8_utf8 : ∀ text : List Char, decodeUtf8 (Unicode.utf8 text) = some (Unicode.codePoints text)
  | [] => rfl
  | c :: text => by
    have ih := decodeUtf8_utf8 text
    have hseq := Unicode.seq_encodeRune (Unicode.toNat_scalar c)
    have hlen := seqLen_append hseq (Unicode.utf8 text)
    have hrune := Unicode.runeOf_encodeRune (Unicode.toNat_scalar c)
    show decodeUtf8From 0 (Json.encodeRune c.toNat ++ Unicode.utf8 text) = some (c.toNat :: Unicode.codePoints text)
    generalize Json.encodeRune c.toNat = seq at hseq hlen hrune ⊢
    cases seq with
    | nil => cases hseq
    | cons b tail =>
      have hcode : codeLen (b :: tail ++ Unicode.utf8 text) = tail.length + 1 := by
        unfold codeLen
        rw [hlen, if_neg (by simp)]
        rfl
      have htake : (b :: (tail ++ Unicode.utf8 text)).take (tail.length + 1) = b :: tail := by
        rw [List.take_succ_cons, List.take_left]
      rw [List.cons_append] at hcode ⊢
      unfold decodeUtf8From
      rw [hcode]
      dsimp only
      rw [decodeUtf8From_skip, htake, hrune, show decodeUtf8From 0 (Unicode.utf8 text) = some (Unicode.codePoints text) from ih]
      rfl

/-! ## What the guard bounds -/

/-- A document in UTF-8, with a byte order mark or without. -/
def IsUtf8 (text : List Char) (payload : Bytes) : Prop :=
  payload = Unicode.utf8 text ∨ payload = 0xEF :: 0xBB :: 0xBF :: Unicode.utf8 text

/-- **The guard bounds what is read of a payload**, and of every token that carries it; it refuses no document in UTF-8 that is small
and nested little enough. -/
structure Bounds (limits : Limits) (payload : Bytes) : Prop where
  reads    : payload.length ≤ maxPayloadBytes → hasBoundedJsonDepth payload = true → ∀ doc, loads limits payload = some doc →
    doc.nesting ≤ maxDepth
  accepts  : payload.length ≤ maxPayloadBytes → ∀ (digits : Nat) (text : List Char) (doc : Doc), IsUtf8 text payload →
    PythonJson.read digits (Unicode.codePoints text) = some doc → doc.nesting ≤ maxDepth → hasBoundedJsonDepth payload = true
  tokens   : ∀ token doc, payloadOf token = some payload → readClaims limits token = some doc → doc.nesting ≤ maxDepth

/-- **Brackets that the guard takes for text**: a document in a wider encoding whose bytes, one by one, are balanced, and whose
characters are not. -/
structure Hides (limits : Limits) (payload : Bytes) : Prop where
  wider    : (detectEncoding payload).isUtf8 = false
  small    : payload.length ≤ maxPayloadBytes
  bytes    : Balanced (payload.map UInt8.toNat)
  document : (loads limits payload).isSome = true
  text     : ∃ text, (detectEncoding payload).decode payload = some text ∧ ¬ Balanced text

theorem guard_iff {payload : Bytes} : hasBoundedJsonDepth payload = true ↔
    payload.length ≤ maxPayloadBytes ∧ Balanced (payload.map UInt8.toNat) := by
  unfold hasBoundedJsonDepth
  rw [Bool.and_eq_true, decide_eq_true_iff, isBounded_iff]

theorem balanced_read {digits : Nat} {text : Codes} {doc : Doc} (h : PythonJson.read digits text = some doc) :
    Balanced text ↔ doc.nesting ≤ maxDepth := by
  rw [← isBounded_iff, isBounded_read h, decide_eq_true_iff]

theorem loads_some {limits : Limits} {payload : Bytes} {doc : Doc} (h : loads limits payload = some doc) :
    ∃ text, (detectEncoding payload).decode payload = some text ∧ PythonJson.read limits.digits text = some doc := by
  unfold loads at h
  split at h
  · cases h
  next text htext =>
    split at h
    · cases h
    next doc' hread =>
      split at h
      · cases h
        exact ⟨text, htext, hread⟩
      · cases h

theorem accepts_utf8 {payload : Bytes} (hlength : payload.length ≤ maxPayloadBytes) {digits : Nat} {text : List Char} {doc : Doc}
    (hutf8 : IsUtf8 text payload) (hread : PythonJson.read digits (Unicode.codePoints text) = some doc)
    (hnesting : doc.nesting ≤ maxDepth) : hasBoundedJsonDepth payload = true := by
  have hbytes := isBounded_decodeUtf8 (decodeUtf8_utf8 text)
  have hscan : isBounded (payload.map UInt8.toNat) = true := by
    rcases hutf8 with rfl | rfl
    · rw [hbytes, isBounded_read hread, decide_eq_true hnesting]
    · rw [isBounded_bom, hbytes, isBounded_read hread, decide_eq_true hnesting]
  unfold hasBoundedJsonDepth
  rw [hscan, decide_eq_true hlength]
  rfl

theorem reads_bounded {limits : Limits} {payload : Bytes} (hhides : ¬ Hides limits payload)
    (hguard : hasBoundedJsonDepth payload = true) {doc : Doc} (hdoc : loads limits payload = some doc) : doc.nesting ≤ maxDepth := by
  obtain ⟨text, htext, hread⟩ := loads_some hdoc
  obtain ⟨hsmall, hbytes⟩ := guard_iff.1 hguard
  rw [← balanced_read hread]
  by_cases hutf8 : (detectEncoding payload).isUtf8 = true
  · rw [← isBounded_iff, ← isBounded_encoding hutf8 htext, isBounded_iff]
    exact hbytes
  · by_contra hdeep
    exact hhides ⟨Bool.eq_false_iff.2 hutf8, hsmall, hbytes, Option.isSome_iff_exists.2 ⟨doc, hdoc⟩, text, htext, hdeep⟩

/-- What is read of a token is what is read of its payload. -/
theorem readClaims_bounded {limits : Limits} {payload : Bytes} (hhides : ¬ Hides limits payload) {token : Codes} {doc : Doc}
    (hpayload : payloadOf token = some payload) (h : readClaims limits token = some doc) : doc.nesting ≤ maxDepth := by
  unfold readClaims at h
  rw [hpayload] at h
  dsimp only at h
  split at h
  next hguard => exact reads_bounded hhides hguard h
  · cases h

/-- **The guard bounds what is read exactly when no brackets hide from it.** -/
theorem bounds_iff (limits : Limits) (payload : Bytes) : Bounds limits payload ↔ ¬ Hides limits payload := by
  constructor
  · rintro ⟨hreads, -, -⟩ ⟨-, hsmall, hbytes, hdocument, text, htext, hdeep⟩
    obtain ⟨doc, hdoc⟩ := Option.isSome_iff_exists.1 hdocument
    have hnesting := hreads hsmall (guard_iff.2 ⟨hsmall, hbytes⟩) doc hdoc
    obtain ⟨text', htext', hread⟩ := loads_some hdoc
    rw [htext] at htext'
    cases htext'
    exact hdeep ((balanced_read hread).2 hnesting)
  · intro hhides
    exact ⟨fun _ hguard doc hdoc => reads_bounded hhides hguard hdoc,
      fun hlength digits text doc hutf8 hread hnesting => accepts_utf8 hlength hutf8 hread hnesting,
      fun token doc hpayload hclaims => readClaims_bounded hhides hpayload hclaims⟩

/-! ## Brackets that hide -/

/-- Arrays in arrays. -/
def nested : Nat → Doc
  | 0 => .array []
  | n + 1 => .array [nested n]

theorem nesting_nested : ∀ n, (nested n).nesting = n + 1
  | 0 => rfl
  | n + 1 => by
    rw [nested, Doc.nesting, nestingItems, nestingItems, nesting_nested n]
    omega

/-- The brackets of `nested n`. -/
def brackets (n : Nat) : Codes := List.replicate (n + 1) 0x5B ++ List.replicate (n + 1) 0x5D

theorem brackets_succ (n : Nat) (rest : Codes) : brackets (n + 1) ++ rest = 0x5B :: (brackets n ++ 0x5D :: rest) := by
  unfold brackets
  rw [List.replicate_succ (n := n + 1) (a := 0x5B), List.replicate_succ' (n := n + 1) (a := 0x5D)]
  simp

theorem scanOnce_nested {digits : Nat} : ∀ (n fuel : Nat) (rest : Codes),
    scanOnce digits (2 * n + 1 + fuel) (brackets n ++ rest) = some (nested n, rest)
  | 0, fuel, rest => by
    rw [show 2 * 0 + 1 + fuel = fuel + 1 from by omega]
    rfl
  | n + 1, fuel, rest => by
    have ih := @scanOnce_nested digits n fuel (0x5D :: rest)
    rw [show 2 * (n + 1) + 1 + fuel = 2 * n + 1 + fuel + 1 + 1 from by omega, brackets_succ]
    have hskip : ∃ tail, skip (brackets n ++ 0x5D :: rest) = 0x5B :: tail ∧ brackets n ++ 0x5D :: rest = 0x5B :: tail := ⟨_, rfl, rfl⟩
    obtain ⟨tail, hskip, htail⟩ := hskip
    have hitems : scanItems digits (2 * n + 1 + fuel + 1) (0x5B :: tail) = some ([nested n], rest) := by
      unfold scanItems
      rw [← htail, ih]
      rfl
    unfold scanOnce
    rw [if_neg (by decide), if_neg (by decide), if_pos rfl, hskip]
    show (scanItems digits (2 * n + 1 + fuel + 1) (0x5B :: tail)).map (fun r => (Doc.array r.1, r.2)) = _
    rw [hitems]
    rfl

/-- An array of two texts, with nested arrays between them. -/
def hiddenDoc (n : Nat) : Doc := .array [.string [0x2200], nested n, .string [0x2200]]

/-- As it is written: the character of the texts holds the byte of a quote. -/
def hiddenText (n : Nat) : Codes :=
  [0x5B, 0x22, 0x2200, 0x22, 0x2C] ++ (brackets n ++ [0x2C, 0x22, 0x2200, 0x22, 0x5D])

def littleEndian (codes : Codes) : Bytes := codes.flatMap (fun code => [code.toUInt8, (code / 256).toUInt8])

theorem scanOnce_hidden {digits : Nat} (n fuel : Nat) :
    scanOnce digits (2 * n + 1 + fuel + 5) (hiddenText n) = some (hiddenDoc n, []) := by
  have hinner := @scanOnce_nested digits n (fuel + 2) [0x2C, 0x22, 0x2200, 0x22, 0x5D]
  have hskip : skip (brackets n ++ [0x2C, 0x22, 0x2200, 0x22, 0x5D]) = brackets n ++ [0x2C, 0x22, 0x2200, 0x22, 0x5D] := rfl
  have hquoted : ∀ (fuel : Nat) (rest : Codes), scanOnce digits (fuel + 1) (0x22 :: 0x2200 :: 0x22 :: rest) =
      some (.string [0x2200], rest) := by
    intro fuel rest
    have hquote : scanItemsOfString (0x22 :: rest) = some ([], rest) := by
      unfold scanItemsOfString
      exact if_pos rfl
    have hchars : scanItemsOfString (0x2200 :: 0x22 :: rest) = some ([(0x2200, false)], rest) := by
      unfold scanItemsOfString
      rw [if_neg (by decide), if_neg (by decide), if_neg (by decide), hquote]
      rfl
    unfold scanOnce scanString
    rw [if_pos rfl, hchars]
    rfl
  have hlast : scanItems digits (2 * n + 1 + fuel + 2) [0x22, 0x2200, 0x22, 0x5D] = some ([.string [0x2200]], []) := by
    unfold scanItems
    rw [hquoted]
    rfl
  have hmiddle : scanItems digits (2 * n + 1 + fuel + 3) (brackets n ++ [0x2C, 0x22, 0x2200, 0x22, 0x5D]) =
      some ([nested n, .string [0x2200]], []) := by
    unfold scanItems
    rw [show 2 * n + 1 + fuel + 2 = 2 * n + 1 + (fuel + 2) from by omega, hinner]
    show (scanItems digits (2 * n + 1 + (fuel + 2)) [0x22, 0x2200, 0x22, 0x5D]).map _ = _
    rw [show 2 * n + 1 + (fuel + 2) = 2 * n + 1 + fuel + 2 from by omega, hlast]
    rfl
  have hitems : scanItems digits (2 * n + 1 + fuel + 4)
      (0x22 :: 0x2200 :: 0x22 :: 0x2C :: (brackets n ++ [0x2C, 0x22, 0x2200, 0x22, 0x5D])) =
      some ([.string [0x2200], nested n, .string [0x2200]], []) := by
    unfold scanItems
    rw [hquoted]
    show (scanItems digits (2 * n + 1 + fuel + 3) (skip (brackets n ++ [0x2C, 0x22, 0x2200, 0x22, 0x5D]))).map _ = _
    rw [hskip, hmiddle]
    rfl
  unfold hiddenText scanOnce
  show (scanItems digits (2 * n + 1 + fuel + 4)
    (0x22 :: 0x2200 :: 0x22 :: 0x2C :: (brackets n ++ [0x2C, 0x22, 0x2200, 0x22, 0x5D]))).map _ = _
  rw [hitems]
  rfl

theorem length_brackets (n : Nat) : (brackets n).length = 2 * n + 2 := by
  unfold brackets
  rw [List.length_append, List.length_replicate, List.length_replicate]
  omega

theorem read_hidden (digits n : Nat) : PythonJson.read digits (hiddenText n) = some (hiddenDoc n) := by
  have hlength : (hiddenText n).length = 2 * n + 12 := by
    unfold hiddenText
    rw [List.length_append, List.length_append, length_brackets]
    simp
    omega
  have hscan := @scanOnce_hidden digits n (2 * n + 20)
  unfold PythonJson.read
  rw [hlength, show 2 * (2 * n + 12) + 2 = 2 * n + 1 + (2 * n + 20) + 5 from by omega,
    show skip (hiddenText n) = hiddenText n from rfl, hscan]
  rfl

/-- The units of a text within two bytes. -/
theorem units16_littleEndian : ∀ {codes : Codes}, (∀ c ∈ codes, c < 65536) → units16 false (littleEndian codes) = some codes
  | [], _ => rfl
  | code :: codes, h => by
    have hcode := h code List.mem_cons_self
    have ih := units16_littleEndian (fun c hc => h c (List.mem_cons_of_mem code hc))
    have hlow : code.toUInt8.toNat = code % 256 := rfl
    have hhigh : (code / 256).toUInt8.toNat = code / 256 % 256 := rfl
    show (units16 false (littleEndian codes)).map (fun more => ((code / 256).toUInt8.toNat * 256 + code.toUInt8.toNat) :: more) = _
    rw [ih, hlow, hhigh, show code / 256 % 256 * 256 + code % 256 = code from by omega]
    rfl

theorem joinUnits_plain : ∀ {codes : Codes}, (∀ c ∈ codes, isHigh c = false) → joinUnits codes = codes
  | [], _ => rfl
  | [_], _ => rfl
  | high :: low :: codes, h => by
    rw [joinUnits, h high List.mem_cons_self, Bool.false_and, if_neg Bool.false_ne_true,
      joinUnits_plain (fun c hc => h c (List.mem_cons_of_mem high hc))]

theorem hiddenText_mem {n : Nat} : ∀ c ∈ hiddenText n, c < 0xD800 := by
  intro c hc
  unfold hiddenText brackets at hc
  simp only [List.mem_append, List.mem_cons, List.not_mem_nil, or_false, List.mem_replicate] at hc
  omega

/-- A payload that hides its brackets. -/
def hiddenPayload (n : Nat) : Bytes := littleEndian (hiddenText n)

theorem decode_hidden (n : Nat) : detectEncoding (hiddenPayload n) = .utf16 false false ∧
    Encoding.decode (.utf16 false false) (hiddenPayload n) = some (hiddenText n) := by
  refine ⟨rfl, ?_⟩
  show (units16 false (littleEndian (hiddenText n))).map joinUnits = _
  rw [units16_littleEndian fun c hc => Nat.lt_trans (hiddenText_mem c hc) (by decide), Option.map_some,
    joinUnits_plain fun c hc => ?_]
  have hlow := hiddenText_mem c hc
  simp only [isHigh, Bool.and_eq_false_iff, decide_eq_false_iff_not]
  omega

/-- Between the quotes that the guard sees. -/
theorem run_text : ∀ {codes rest : Codes} (k : Nat), (∀ c ∈ codes, c ≠ 0x22 ∧ c ≠ 0x5C) →
    Scan.run ⟨k, true, false⟩ (codes ++ rest) = Scan.run ⟨k, true, false⟩ rest
  | [], _, _, _ => rfl
  | c :: codes, rest, k, h => by
    obtain ⟨hquote, hback⟩ := h c List.mem_cons_self
    rw [List.cons_append, Scan.run, step_text hquote hback]
    exact run_text k (fun d hd => h d (List.mem_cons_of_mem c hd))

theorem guard_hidden {n : Nat} (hlength : 4 * n + 24 ≤ maxPayloadBytes) : hasBoundedJsonDepth (hiddenPayload n) = true := by
  have hsplit : (hiddenPayload n).map UInt8.toNat = [0x5B, 0, 0x22, 0, 0, 0x22, 0x22, 0, 0x2C, 0] ++
      ((littleEndian (brackets n)).map UInt8.toNat ++ [0x2C, 0, 0x22, 0, 0, 0x22, 0x22, 0, 0x5D, 0]) := by
    unfold hiddenPayload hiddenText littleEndian
    rw [List.flatMap_append, List.flatMap_append, List.map_append, List.map_append]
    rfl
  have hbrackets : ∀ c ∈ (littleEndian (brackets n)).map UInt8.toNat, c ≠ 0x22 ∧ c ≠ 0x5C := by
    intro c hc
    obtain ⟨b, hb, rfl⟩ := List.mem_map.1 hc
    obtain ⟨code, hcode, hb⟩ := List.mem_flatMap.1 hb
    unfold brackets at hcode
    rw [List.mem_append, List.mem_replicate, List.mem_replicate] at hcode
    rcases hcode with ⟨-, rfl⟩ | ⟨-, rfl⟩
    · rcases List.mem_cons.1 hb with rfl | hb
      · decide
      · rw [List.mem_singleton.1 hb]
        decide
    · rcases List.mem_cons.1 hb with rfl | hb
      · decide
      · rw [List.mem_singleton.1 hb]
        decide
  have hfront : Scan.run ⟨0, false, false⟩ [0x5B, 0, 0x22, 0, 0, 0x22, 0x22, 0, 0x2C, 0] = some ⟨1, true, false⟩ := by decide
  have hback : Scan.run ⟨1, true, false⟩ [0x2C, 0, 0x22, 0, 0, 0x22, 0x22, 0, 0x5D, 0] = some ⟨0, false, false⟩ := by decide
  have hcount : (hiddenPayload n).length = 4 * n + 24 := by
    have hmap := congrArg List.length hsplit
    have hpairs : (littleEndian (brackets n)).length = 2 * (brackets n).length := by
      unfold littleEndian
      rw [List.length_flatMap]
      simp [Nat.mul_comm]
    rw [List.length_map, List.length_append, List.length_append, List.length_map, hpairs, length_brackets] at hmap
    simp at hmap
    omega
  unfold hasBoundedJsonDepth isBounded
  rw [hsplit, run_append, hfront, Option.bind_some, run_text 1 hbrackets, hback, hcount, decide_eq_true hlength]
  rfl

/-- **Two hundred arrays that the guard does not see**, and a reader that recurses nine hundred levels. -/
theorem hidden_brackets : hasBoundedJsonDepth (hiddenPayload 200) = true ∧
    (∃ doc, loads ⟨4300, 900⟩ (hiddenPayload 200) = some doc ∧ doc.nesting = 202) ∧ ¬ Bounds ⟨4300, 900⟩ (hiddenPayload 200) := by
  have hguard : hasBoundedJsonDepth (hiddenPayload 200) = true := guard_hidden (by decide)
  have hnesting : (hiddenDoc 200).nesting = 202 := by
    unfold hiddenDoc
    rw [Doc.nesting, nestingItems, nestingItems, nestingItems, nestingItems, nesting_nested]
    rfl
  have hloads : loads ⟨4300, 900⟩ (hiddenPayload 200) = some (hiddenDoc 200) := by
    unfold loads
    rw [(decode_hidden 200).1, (decode_hidden 200).2]
    dsimp only
    rw [read_hidden]
    exact if_pos (by rw [hnesting]; decide)
  refine ⟨hguard, ⟨hiddenDoc 200, hloads, hnesting⟩, fun hbounds => ?_⟩
  have hlength : (hiddenPayload 200).length ≤ maxPayloadBytes := of_decide_eq_true (Bool.and_eq_true_iff.1 hguard).1
  have hdeep := hbounds.reads hlength hguard (hiddenDoc 200) hloads
  rw [hnesting] at hdeep
  exact absurd hdeep (by decide)

end JwtDepth
end Dex
