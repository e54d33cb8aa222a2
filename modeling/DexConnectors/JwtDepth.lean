import Mathlib.Data.List.TakeWhile
import DexConnectors.LibPythonJson
/-!
# JwtDepth — the claims of a JWT (`sdkpython/.../oauthtoken/manifest_refresh.py`)

`_has_bounded_json_depth` counts the brackets of a payload, outside the strings it sees, before the payload is read by recursion.
It looks at bytes and `json.loads` at code points: over UTF-8 they see the same, over UTF-16 and UTF-32 they do not.
-/
namespace Dex
namespace JwtDepth

open Lib Lib.Utf8 Lib.PythonJson

def maxPayloadBytes : Nat := 16 * 2 ^ 10

def maxDepth : Nat := 128

/-! ## `_has_bounded_json_depth` -/

structure Scan where
  depth    : Nat
  inString : Bool
  escaped  : Bool
  deriving DecidableEq, Repr

/-- One turn of the loop, over a byte or a code point. -/
def Scan.step (s : Scan) (code : Nat) : Option Scan :=
  if s.inString then
    if s.escaped then some { s with escaped := false }
    else if code = 0x5C then some { s with escaped := true }
    else if code = 0x22 then some { s with inString := false }
    else some s
  else if code = 0x22 then some { s with inString := true }
  else if code = 0x7B ∨ code = 0x5B then
    if maxDepth < s.depth + 1 then none else some { s with depth := s.depth + 1 }
  else if code = 0x7D ∨ code = 0x5D then
    if s.depth = 0 then none else some { s with depth := s.depth - 1 }
  else some s

def Scan.run : Scan → Codes → Option Scan
  | s, [] => some s
  | s, code :: rest =>
    match s.step code with
    | none => none
    | some s' => s'.run rest

/-- The loop and the check after it. -/
def isBounded (codes : Codes) : Bool :=
  match Scan.run ⟨0, false, false⟩ codes with
  | none => false
  | some s => s.depth == 0 && !s.inString

def hasBoundedJsonDepth (payload : Bytes) : Bool := payload.length ≤ maxPayloadBytes && isBounded (payload.map UInt8.toNat)

/-! ## `_read_jwt_expiry_seconds` -/

def splitAtDot : Codes → List Codes
  | [] => [[]]
  | c :: rest =>
    if c = 0x2E then [] :: splitAtDot rest
    else
      match splitAtDot rest with
      | [] => [[c]]
      | segment :: more => (c :: segment) :: more

/-- The value of a digit of `urlsafe_b64decode`. -/
def base64Digit (c : Nat) : Option Nat :=
  if 0x41 ≤ c ∧ c ≤ 0x5A then some (c - 0x41)
  else if 0x61 ≤ c ∧ c ≤ 0x7A then some (c - 0x61 + 26)
  else if 0x30 ≤ c ∧ c ≤ 0x39 then some (c - 0x30 + 52)
  else if c = 0x2D then some 62
  else if c = 0x5F then some 63
  else none

/-- `[A-Za-z0-9_\-\r\n]*=*`, the whole of it. -/
def isBase64Segment (segment : Codes) : Bool :=
  (segment.dropWhile (fun c => (base64Digit c).isSome || c == 0x0D || c == 0x0A)).all (· == 0x3D)

/-- `base64.urlsafe_b64decode` of padded digits; a lone digit at the end is refused. -/
def decodeDigits : List Nat → Option Bytes
  | a :: b :: c :: d :: rest =>
    (decodeDigits rest).map fun more =>
      (a * 4 + b / 16).toUInt8 :: (b % 16 * 16 + c / 4).toUInt8 :: (c % 4 * 64 + d).toUInt8 :: more
  | [a, b, c] => some [(a * 4 + b / 16).toUInt8, (b % 16 * 16 + c / 4).toUInt8]
  | [a, b] => some [(a * 4 + b / 16).toUInt8]
  | [_] => none
  | [] => some []

/-- The bytes of the second segment of a token. -/
def payloadOf (token : Codes) : Option Bytes :=
  match Unicode.encodeCodePoints token with
  | none => none
  | some encoded =>
    if encoded = [] ∨ maxPayloadBytes < encoded.length then none
    else
      match splitAtDot token with
      | [_, segment, _] =>
        if isBase64Segment segment then decodeDigits (segment.filterMap base64Digit) else none
      | _ => none

/-- The claims that an expiry is read from. -/
def readClaims (limits : Limits) (token : Codes) : Option Doc :=
  match payloadOf token with
  | none => none
  | some payload => if hasBoundedJsonDepth payload then loads limits payload else none

/-! ## Brackets outside strings -/

/-- Where a text is, as far as its quotes tell. -/
inductive Place where
  | outside
  | quoted
  | escaped
  deriving DecidableEq, Repr

def Place.next : Place → Nat → Place
  | .outside, c => if c = 0x22 then .quoted else .outside
  | .quoted, c => if c = 0x5C then .escaped else if c = 0x22 then .outside else .quoted
  | .escaped, _ => .quoted

def isOpening (c : Nat) : Bool := c == 0x7B || c == 0x5B

def isClosing (c : Nat) : Bool := c == 0x7D || c == 0x5D

/-- The brackets outside the quotes. -/
def visible : Place → Codes → Codes
  | _, [] => []
  | place, c :: rest =>
    if place = .outside ∧ (isOpening c || isClosing c) = true then c :: visible (place.next c) rest
    else visible (place.next c) rest

/-- At every point, no more closed than opened, and no more open than is allowed. -/
def Within (depth : Nat) (brackets : Codes) : Prop :=
  ∀ front, front <+: brackets →
    front.countP isClosing ≤ depth + front.countP isOpening ∧ depth + front.countP isOpening ≤ front.countP isClosing + maxDepth

/-- **Brackets that match by number**, the last string closed. -/
structure Balanced (codes : Codes) : Prop where
  closed : codes.foldl Place.next .outside = .outside
  equal  : (visible .outside codes).countP isOpening = (visible .outside codes).countP isClosing
  within : Within 0 (visible .outside codes)

theorem within_nil {depth : Nat} : Within depth [] ↔ depth ≤ maxDepth := by
  constructor
  · intro h
    simpa using (h [] List.nil_prefix).2
  · intro h front hfront
    rw [List.prefix_nil.1 hfront]
    simpa using h

theorem Within.depth_le {depth : Nat} {brackets : Codes} (h : Within depth brackets) : depth ≤ maxDepth := by
  simpa using (h [] List.nil_prefix).2

theorem within_opening {depth c : Nat} {brackets : Codes} (hc : isOpening c = true) (hclosing : isClosing c = false)
    (hdepth : depth ≤ maxDepth) : Within depth (c :: brackets) ↔ Within (depth + 1) brackets := by
  constructor
  · intro h front hfront
    have hcons := h (c :: front) ((List.prefix_cons_inj c).2 hfront)
    rw [List.countP_cons_of_neg (by simp [hclosing]), List.countP_cons_of_pos hc] at hcons
    omega
  · intro h front hfront
    cases front with
    | nil => simpa using hdepth
    | cons d front =>
      obtain ⟨heq, htail⟩ := List.cons_prefix_cons.1 hfront
      have hrest := h front htail
      subst heq
      rw [List.countP_cons_of_neg (by simp [hclosing]), List.countP_cons_of_pos hc]
      omega

theorem within_closing {depth c : Nat} {brackets : Codes} (hc : isClosing c = true) (hopening : isOpening c = false)
    (hdepth : depth + 1 ≤ maxDepth) : Within (depth + 1) (c :: brackets) ↔ Within depth brackets := by
  constructor
  · intro h front hfront
    have hcons := h (c :: front) ((List.prefix_cons_inj c).2 hfront)
    rw [List.countP_cons_of_pos hc, List.countP_cons_of_neg (by simp [hopening])] at hcons
    omega
  · intro h front hfront
    cases front with
    | nil => simpa using hdepth
    | cons d front =>
      obtain ⟨heq, htail⟩ := List.cons_prefix_cons.1 hfront
      have hrest := h front htail
      subst heq
      rw [List.countP_cons_of_pos hc, List.countP_cons_of_neg (by simp [hopening])]
      omega

theorem not_within_closing {c : Nat} {brackets : Codes} (hc : isClosing c = true) (hopening : isOpening c = false) :
    ¬ Within 0 (c :: brackets) := by
  intro h
  have hone := (h [c] ((List.prefix_cons_inj c).2 List.nil_prefix)).1
  rw [List.countP_cons_of_pos hc, List.countP_cons_of_neg (by simp [hopening])] at hone
  simp at hone

/-- The scan at a place. -/
def Scan.at (depth : Nat) (place : Place) : Scan := ⟨depth, place != .outside, place == .escaped⟩

theorem step_visible {depth : Nat} {place : Place} {c : Nat} (h : ¬ (place = .outside ∧ (isOpening c || isClosing c) = true)) :
    (Scan.at depth place).step c = some (Scan.at depth (place.next c)) := by
  cases place with
  | outside =>
    have hnone : isOpening c = false ∧ isClosing c = false := by simpa using h
    simp only [isOpening, isClosing, Bool.or_eq_false_iff, beq_eq_false_iff_ne, ne_eq] at hnone
    by_cases hquote : c = 0x22
    · rw [hquote]
      rfl
    · simp [Scan.at, Scan.step, Place.next, hquote, hnone]
  | quoted =>
    by_cases hback : c = 0x5C
    · rw [hback]
      rfl
    · by_cases hquote : c = 0x22
      · rw [hquote]
        rfl
      · simp [Scan.at, Scan.step, Place.next, hquote, hback]
  | escaped => rfl

/-- **A run of the scan** counts the brackets outside strings. -/
theorem run_iff : ∀ {codes : Codes} {depth : Nat} {place : Place} {s : Scan}, depth ≤ maxDepth →
    ((Scan.at depth place).run codes = some s ↔ Within depth (visible place codes) ∧
      s = Scan.at (depth + (visible place codes).countP isOpening - (visible place codes).countP isClosing)
        (codes.foldl Place.next place))
  | [], depth, place, s, hdepth => by
    rw [Scan.run, visible, within_nil]
    simp [hdepth, eq_comm]
  | c :: codes, depth, place, s, hdepth => by
    rw [Scan.run, visible, List.foldl_cons]
    by_cases hvisible : place = .outside ∧ (isOpening c || isClosing c) = true
    · rw [if_pos hvisible]
      obtain ⟨rfl, hbracket⟩ := hvisible
      by_cases hopening : isOpening c = true
      · have hcode : c = 0x7B ∨ c = 0x5B := by simpa [isOpening] using hopening
        have hclosing : isClosing c = false := by rcases hcode with rfl | rfl <;> rfl
        have hnext : Place.next .outside c = .outside := by rcases hcode with rfl | rfl <;> rfl
        have hstep : (Scan.at depth .outside).step c =
            if maxDepth < depth + 1 then none else some (Scan.at (depth + 1) .outside) := by
          rcases hcode with rfl | rfl <;> rfl
        rw [hnext, hstep, within_opening hopening hclosing hdepth, List.countP_cons_of_pos hopening,
          List.countP_cons_of_neg (by simp [hclosing])]
        by_cases hroom : maxDepth < depth + 1
        · rw [if_pos hroom]
          exact ⟨fun h => (by cases h), fun h => absurd h.1.depth_le (by omega)⟩
        · rw [if_neg hroom]
          dsimp only
          rw [run_iff (by omega), show depth + 1 + (visible .outside codes).countP isOpening =
            depth + ((visible .outside codes).countP isOpening + 1) from by omega]
      · have hopening : isOpening c = false := Bool.eq_false_iff.2 hopening
        have hclosing : isClosing c = true := by rw [hopening, Bool.false_or] at hbracket; exact hbracket
        have hcode : c = 0x7D ∨ c = 0x5D := by simpa [isClosing] using hclosing
        have hnext : Place.next .outside c = .outside := by rcases hcode with rfl | rfl <;> rfl
        have hstep : (Scan.at depth .outside).step c =
            if depth = 0 then none else some (Scan.at (depth - 1) .outside) := by
          rcases hcode with rfl | rfl <;> rfl
        rw [hnext, hstep, List.countP_cons_of_pos hclosing, List.countP_cons_of_neg (by simp [hopening])]
        cases depth with
        | zero =>
          rw [if_pos rfl]
          exact ⟨fun h => (by cases h), fun h => absurd h.1 (not_within_closing hclosing hopening)⟩
        | succ depth =>
          rw [if_neg (Nat.succ_ne_zero depth), within_closing hclosing hopening hdepth]
          dsimp only
          rw [Nat.add_sub_cancel, run_iff (by omega), show depth + 1 + (visible .outside codes).countP isOpening -
            ((visible .outside codes).countP isClosing + 1) = depth + (visible .outside codes).countP isOpening -
            (visible .outside codes).countP isClosing from by omega]
    · rw [if_neg hvisible, step_visible hvisible]
      exact run_iff hdepth

/-- **The guard's loop** asks for balanced brackets. -/
theorem isBounded_iff {codes : Codes} : isBounded codes = true ↔ Balanced codes := by
  have hrun := fun s => @run_iff codes 0 .outside s (Nat.zero_le maxDepth)
  have hstart : Scan.at 0 .outside = ⟨0, false, false⟩ := rfl
  rw [hstart] at hrun
  unfold isBounded
  constructor
  · intro h
    split at h
    · cases h
    next s hs =>
      obtain ⟨hwithin, rfl⟩ := (hrun s).1 hs
      have hall := (hwithin _ List.prefix_rfl).1
      simp only [Scan.at, Bool.and_eq_true, beq_iff_eq, Bool.not_eq_true', bne_eq_false_iff_eq] at h
      exact ⟨h.2, by omega, hwithin⟩
  · intro h
    rw [(hrun _).2 ⟨h.within, rfl⟩, h.closed, h.equal]
    simp [Scan.at]

instance {codes : Codes} : Decidable (Balanced codes) := decidable_of_iff _ isBounded_iff

/-! ## Brackets -/

theorem run_append : ∀ (a : Codes) {b : Codes} {s : Scan}, s.run (a ++ b) = (s.run a).bind (fun s' => s'.run b)
  | [], _, _ => rfl
  | code :: a, b, s => by
    rw [List.cons_append, Scan.run, Scan.run]
    cases s.step code with
    | none => rfl
    | some s' => exact run_append a

/-- **Code points with brackets nested so deep**: the scan comes back to the depth it had, or stops. -/
def Nests (n : Nat) (codes : Codes) : Prop :=
  ∀ k, k ≤ maxDepth → Scan.run ⟨k, false, false⟩ codes = if k + n ≤ maxDepth then some ⟨k, false, false⟩ else none

theorem Nests.append {m n : Nat} {a b : Codes} (ha : Nests m a) (hb : Nests n b) : Nests (max m n) (a ++ b) := by
  intro k hk
  rw [run_append, ha k hk]
  by_cases hm : k + m ≤ maxDepth
  · rw [if_pos hm, Option.bind_some, hb k hk]
    by_cases hn : k + n ≤ maxDepth
    · rw [if_pos hn, if_pos (by omega)]
    · rw [if_neg hn, if_neg (by omega)]
  · rw [if_neg hm, if_neg (by omega)]
    rfl

/-- Neither a quote nor a bracket. -/
def isPlain (code : Nat) : Bool := code != 0x22 && code != 0x7B && code != 0x5B && code != 0x7D && code != 0x5D

theorem step_plain {code : Nat} (h : isPlain code = true) (k : Nat) :
    Scan.step ⟨k, false, false⟩ code = some ⟨k, false, false⟩ := by
  simp only [isPlain, Bool.and_eq_true, bne_iff_ne, ne_eq] at h
  obtain ⟨⟨⟨⟨h1, h2⟩, h3⟩, h4⟩, h5⟩ := h
  simp [Scan.step, h1, h2, h3, h4, h5]

theorem nests_plain : ∀ {codes : Codes}, (∀ c ∈ codes, isPlain c = true) → Nests 0 codes
  | [], _ => fun k hk => by rw [Nat.add_zero, if_pos hk]; rfl
  | code :: codes, h => fun k hk => by
    rw [Scan.run, step_plain (h code List.mem_cons_self)]
    exact nests_plain (fun c hc => h c (List.mem_cons_of_mem code hc)) k hk

theorem Nests.bracket {n : Nat} {codes : Codes} (h : Nests n codes) {opening closing : Nat} (hopen : opening = 0x7B ∨ opening = 0x5B)
    (hclose : closing = 0x7D ∨ closing = 0x5D) : Nests (1 + n) (opening :: (codes ++ [closing])) := by
  have hstep : ∀ k, Scan.step ⟨k, false, false⟩ opening = if maxDepth < k + 1 then none else some ⟨k + 1, false, false⟩ := by
    intro k
    rcases hopen with rfl | rfl <;> rfl
  have hback : ∀ k, Scan.run ⟨k + 1, false, false⟩ [closing] = some ⟨k, false, false⟩ := by
    intro k
    rcases hclose with rfl | rfl <;> rfl
  intro k hk
  rw [Scan.run, hstep]
  by_cases hroom : maxDepth < k + 1
  · rw [if_pos hroom, if_neg (by omega)]
  · rw [if_neg hroom]
    dsimp only
    rw [run_append, h (k + 1) (by omega)]
    by_cases hn : k + 1 + n ≤ maxDepth
    · rw [if_pos hn, if_pos (by omega), Option.bind_some, hback]
    · rw [if_neg hn, if_neg (by omega)]
      rfl

/-! ## What the reader consumes -/

/-- Inside a string, and not after a backslash. -/
theorem step_text {c : Nat} (hquote : c ≠ 0x22) (hback : c ≠ 0x5C) (k : Nat) :
    Scan.step ⟨k, true, false⟩ c = some ⟨k, true, false⟩ := by
  simp [Scan.step, hquote, hback]

theorem hexDigit_text {c v : Nat} (h : hexDigit c = some v) : c ≠ 0x22 ∧ c ≠ 0x5C := by
  constructor
  · rintro rfl
    cases h
  · rintro rfl
    cases h

theorem run_hex4 {x y z w code : Nat} (h : hex4 x y z w = some code) (k : Nat) :
    Scan.run ⟨k, true, false⟩ [0x5C, 0x75, x, y, z, w] = some ⟨k, true, false⟩ := by
  unfold hex4 at h
  obtain ⟨_, hx, h⟩ := Option.bind_eq_some_iff.1 h
  obtain ⟨_, hy, h⟩ := Option.bind_eq_some_iff.1 h
  obtain ⟨_, hz, h⟩ := Option.bind_eq_some_iff.1 h
  obtain ⟨_, hw, -⟩ := Option.bind_eq_some_iff.1 h
  have hx := hexDigit_text hx
  have hy := hexDigit_text hy
  have hz := hexDigit_text hz
  have hw := hexDigit_text hw
  have hescape : Scan.run ⟨k, true, false⟩ [0x5C, 0x75] = some ⟨k, true, false⟩ := rfl
  rw [show [0x5C, 0x75, x, y, z, w] = [0x5C, 0x75] ++ [x, y, z, w] from rfl, run_append, hescape, Option.bind_some]
  simp only [Scan.run, step_text hx.1 hx.2, step_text hy.1 hy.2, step_text hz.1 hz.2, step_text hw.1 hw.2]

/-- The scan of the rest of a string ends outside it. -/
def EndsString (text rest : Codes) : Prop :=
  ∃ consumed, text = consumed ++ rest ∧ ∀ k, Scan.run ⟨k, true, false⟩ consumed = some ⟨k, false, false⟩

theorem EndsString.append {front text rest : Codes} (h : EndsString text rest)
    (hfront : ∀ k, Scan.run ⟨k, true, false⟩ front = some ⟨k, true, false⟩) : EndsString (front ++ text) rest := by
  obtain ⟨consumed, rfl, hrun⟩ := h
  refine ⟨front ++ consumed, (List.append_assoc front consumed rest).symm, fun k => ?_⟩
  rw [run_append, hfront, Option.bind_some, hrun]

/-- **The rest of a string**: the scan leaves it where the reader does. -/
theorem endsString : ∀ {text rest : Codes} {items : List (Nat × Bool)}, scanItemsOfString text = some (items, rest) →
    EndsString text rest := by
  have hmap : ∀ (front : Codes) {text rest : Codes} {item : Nat × Bool} {items : List (Nat × Bool)},
      (∀ {rest : Codes} {items : List (Nat × Bool)}, scanItemsOfString text = some (items, rest) → EndsString text rest) →
      (∀ k, Scan.run ⟨k, true, false⟩ front = some ⟨k, true, false⟩) →
      (scanItemsOfString text).map (fun r => (item :: r.1, r.2)) = some (items, rest) → EndsString (front ++ text) rest := by
    intro front text rest item items ih hfront h
    obtain ⟨⟨items', rest'⟩, hscan, heq⟩ := Option.map_eq_some_iff.1 h
    cases heq
    exact (ih hscan).append hfront
  intro text
  fun_induction scanItemsOfString text with
  | case1 => exact fun h => by cases h
  | case2 tail =>
    intro rest items h
    cases h
    exact ⟨[0x22], rfl, fun k => rfl⟩
  | case3 => exact fun h => by cases h
  | case4 => exact fun h => by cases h
  | case5 x y z w tail code hhex _ ih => exact hmap [0x5C, 0x75, x, y, z, w] ih (run_hex4 hhex)
  | case6 => exact fun h => by cases h
  | case7 => exact fun h => by cases h
  | case8 e tail _ code _ _ ih => exact hmap [0x5C, e] ih (fun k => rfl)
  | case9 => exact fun h => by cases h
  | case10 c tail hquote hback _ ih =>
    exact hmap [c] ih (fun k => by rw [Scan.run, step_text hquote hback]; rfl)

theorem nests_string {text rest name : Codes} (h : scanString text = some (name, rest)) :
    ∃ consumed, 0x22 :: text = consumed ++ rest ∧ Nests 0 consumed := by
  obtain ⟨⟨items, rest'⟩, hscan, heq⟩ := Option.map_eq_some_iff.1 h
  cases heq
  obtain ⟨consumed, rfl, hrun⟩ := endsString hscan
  refine ⟨0x22 :: consumed, rfl, fun k hk => ?_⟩
  rw [Nat.add_zero, if_pos hk]
  exact hrun k

/-! ## Words and numbers -/

theorem skip_split (text : Codes) : ∃ spaces, text = spaces ++ skip text ∧ Nests 0 spaces := by
  refine ⟨text.takeWhile isSpace, (List.takeWhile_append_dropWhile).symm, nests_plain fun c hc => ?_⟩
  have hspace := List.mem_takeWhile_imp hc
  simp only [isSpace, Bool.or_eq_true, beq_iff_eq] at hspace
  rcases hspace with ((rfl | rfl) | rfl) | rfl <;> rfl

theorem plain_digit {c : Nat} (h : isDigit c = true) : isPlain c = true := by
  simp only [PythonJson.isDigit, Bool.and_eq_true, decide_eq_true_eq] at h
  simp only [isPlain, Bool.and_eq_true, bne_iff_ne, ne_eq]
  omega

/-- A start of a text without quotes and brackets. -/
def PlainPrefix (front text : Codes) : Prop := front <+: text ∧ ∀ c ∈ front, isPlain c = true

theorem PlainPrefix.append {a b text : Codes} (ha : PlainPrefix a text) (hb : PlainPrefix b (text.drop a.length)) :
    PlainPrefix (a ++ b) text := by
  obtain ⟨rest, rfl⟩ := ha.1
  rw [List.drop_left] at hb
  refine ⟨(List.prefix_append_right_inj a).2 hb.1, fun c hc => ?_⟩
  rcases List.mem_append.1 hc with hc | hc
  · exact ha.2 c hc
  · exact hb.2 c hc

theorem plainPrefix_nil (text : Codes) : PlainPrefix [] text := ⟨List.nil_prefix, fun _ hc => absurd hc List.not_mem_nil⟩

theorem PlainPrefix.cons {c : Nat} {front text : Codes} (h : PlainPrefix front text) (hc : isPlain c = true) :
    PlainPrefix (c :: front) (c :: text) :=
  ⟨(List.prefix_cons_inj c).2 h.1, List.forall_mem_cons.2 ⟨hc, h.2⟩⟩

theorem plainPrefix_digits (text : Codes) : PlainPrefix (text.takeWhile PythonJson.isDigit) text :=
  ⟨List.takeWhile_prefix _, fun _ hc => plain_digit (List.mem_takeWhile_imp hc)⟩

theorem plainPrefix_minus (text : Codes) : PlainPrefix (minusOf text) text := by
  unfold minusOf
  split
  · exact (plainPrefix_nil _).cons rfl
  · exact plainPrefix_nil _

theorem plainPrefix_integer (text : Codes) : PlainPrefix (integerOf text) text := by
  unfold integerOf
  split
  · split
    next hc => exact (plainPrefix_nil _).cons (by rw [hc]; rfl)
    · split
      next hdigit => exact (plainPrefix_digits _).cons (plain_digit hdigit)
      · exact plainPrefix_nil _
  · exact plainPrefix_nil _

theorem plainPrefix_fraction (text : Codes) : PlainPrefix (fractionOf text) text := by
  unfold fractionOf
  split
  · split
    · exact plainPrefix_nil _
    · exact (plainPrefix_digits _).cons rfl
  · exact plainPrefix_nil _

theorem plainPrefix_sign (text : Codes) : PlainPrefix (signOf text) text := by
  unfold signOf
  split
  · split
    next hc => exact (plainPrefix_nil _).cons (by rcases hc with rfl | rfl <;> rfl)
    · exact plainPrefix_nil _
  · exact plainPrefix_nil _

theorem plainPrefix_exponent (text : Codes) : PlainPrefix (exponentOf text) text := by
  unfold exponentOf
  split
  next c rest =>
    split
    next hc =>
      dsimp only
      split
      · exact plainPrefix_nil _
      · exact ((plainPrefix_sign rest).append (plainPrefix_digits _)).cons (by rcases hc with rfl | rfl <;> rfl)
    · exact plainPrefix_nil _
  · exact plainPrefix_nil _

theorem plain_number {digits : Nat} {text number rest : Codes} (h : scanNumber digits text = some (number, rest)) :
    text = number ++ rest ∧ ∀ c ∈ number, isPlain c = true := by
  have hinteger := (plainPrefix_minus text).append (plainPrefix_integer _)
  have hfraction := hinteger.append (plainPrefix_fraction _)
  have hexponent := hfraction.append (plainPrefix_exponent _)
  unfold scanNumber at h
  simp only [← List.length_append] at h
  split at h
  · cases h
  · split at h
    · cases h
    · cases h
      exact ⟨(List.prefix_iff_eq_append.1 hexponent.1).symm, hexponent.2⟩

theorem plain_after {word : String} (hword : (Unicode.codePoints word.toList).all isPlain = true) {text rest : Codes}
    (h : after word text = some rest) : ∃ consumed, text = consumed ++ rest ∧ ∀ c ∈ consumed, isPlain c = true := by
  unfold after at h
  split at h
  next hstart =>
    cases h
    refine ⟨Unicode.codePoints word.toList, ?_, List.all_eq_true.1 hword⟩
    obtain ⟨rest, rfl⟩ := List.isPrefixOf_iff_prefix.1 hstart
    rw [List.drop_left' (by simp [Unicode.codePoints])]
  · cases h

theorem nests_constant {digits : Nat} {text rest : Codes} {doc : Doc} (h : scanConstant digits text = some (doc, rest)) :
    ∃ consumed, text = consumed ++ rest ∧ Nests doc.nesting consumed := by
  have hword : ∀ {word : String} {rest : Codes}, (Unicode.codePoints word.toList).all isPlain = true →
      after word text = some rest → ∃ consumed, text = consumed ++ rest ∧ Nests 0 consumed := by
    intro word rest hplain hafter
    obtain ⟨consumed, htext, hconsumed⟩ := plain_after hplain hafter
    exact ⟨consumed, htext, nests_plain hconsumed⟩
  unfold scanConstant at h
  split at h
  next hafter => cases h; exact hword (by decide) hafter
  split at h
  next hafter => cases h; exact hword (by decide) hafter
  split at h
  next hafter => cases h; exact hword (by decide) hafter
  split at h
  next hafter => cases h; exact hword (by decide) hafter
  split at h
  next hafter => cases h; exact hword (by decide) hafter
  split at h
  next hafter => cases h; exact hword (by decide) hafter
  obtain ⟨⟨number, rest'⟩, hnumber, heq⟩ := Option.map_eq_some_iff.1 h
  cases heq
  obtain ⟨htext, hplain⟩ := plain_number hnumber
  exact ⟨number, htext, nests_plain hplain⟩

/-! ## The reader -/

theorem Nests.mono_eq {m n : Nat} {codes : Codes} (h : Nests m codes) (hmn : m = n) : Nests n codes := hmn ▸ h

/-- What a run of the reader consumes: a value, the items up to a bracket, the members up to a brace. -/
structure Consumes (digits fuel : Nat) : Prop where
  value   : ∀ {text rest : Codes} {doc : Doc}, scanOnce digits fuel text = some (doc, rest) →
    ∃ consumed, text = consumed ++ rest ∧ Nests doc.nesting consumed
  items   : ∀ {text rest : Codes} {items : List Doc}, scanItems digits fuel text = some (items, rest) →
    ∃ consumed, text = consumed ++ 0x5D :: rest ∧ Nests (nestingItems items) consumed
  members : ∀ {text rest : Codes} {members : List (Codes × Doc)}, scanMembers digits fuel text = some (members, rest) →
    ∃ consumed, text = consumed ++ 0x7D :: rest ∧ Nests (nestingMembers members) consumed

/-- A plain code point and the spaces after it. -/
theorem nests_skip {c : Nat} (hc : isPlain c = true) (text : Codes) :
    ∃ front, c :: text = front ++ skip text ∧ Nests 0 front := by
  obtain ⟨spaces, hspaces, hnests⟩ := skip_split text
  have hfront : Nests 0 [c] := nests_plain fun d hd => by rw [List.mem_singleton.1 hd]; exact hc
  refine ⟨[c] ++ spaces, ?_, hfront.append hnests⟩
  conv => lhs; rw [hspaces]
  rfl

theorem Consumes.nextItems {digits fuel : Nat} (h : Consumes digits fuel) {text rest : Codes} {items : List Doc}
    (hitems : scanItems digits (fuel + 1) text = some (items, rest)) :
    ∃ consumed, text = consumed ++ 0x5D :: rest ∧ Nests (nestingItems items) consumed := by
  unfold scanItems at hitems
  split at hitems
  · cases hitems
  next item middle hitem =>
    obtain ⟨front, rfl, hfront⟩ := h.value hitem
    obtain ⟨spaces, hspaces, hnests⟩ := skip_split middle
    split at hitems
    next tail hskip =>
      cases hitems
      rw [hskip] at hspaces
      refine ⟨front ++ spaces, by rw [hspaces, List.append_assoc], ?_⟩
      exact (hfront.append hnests).mono_eq (by rw [nestingItems, nestingItems])
    next tail hskip =>
      obtain ⟨⟨more, rest'⟩, hmore, heq⟩ := Option.map_eq_some_iff.1 hitems
      cases heq
      rw [hskip] at hspaces
      obtain ⟨comma, hcomma, hplain⟩ := nests_skip (c := 0x2C) rfl tail
      obtain ⟨back, hback, hnested⟩ := h.items hmore
      refine ⟨front ++ spaces ++ (comma ++ back), ?_, ((hfront.append hnests).append (hplain.append hnested)).mono_eq ?_⟩
      · rw [hspaces, hcomma, hback]
        simp only [List.append_assoc]
      · rw [nestingItems]
        dsimp only
        omega
    · cases hitems

theorem Consumes.nextMembers {digits fuel : Nat} (h : Consumes digits fuel) {text rest : Codes} {members : List (Codes × Doc)}
    (hmembers : scanMembers digits (fuel + 1) text = some (members, rest)) :
    ∃ consumed, text = consumed ++ 0x7D :: rest ∧ Nests (nestingMembers members) consumed := by
  unfold scanMembers at hmembers
  split at hmembers
  next quoted =>
    split at hmembers
    · cases hmembers
    next name afterName hname =>
      obtain ⟨front, hfront, hnests⟩ := nests_string hname
      obtain ⟨spaces, hspaces, hplain⟩ := skip_split afterName
      split at hmembers
      next tail hcolon =>
        rw [hcolon] at hspaces
        obtain ⟨colon, hcolon, hcolonPlain⟩ := nests_skip (c := 0x3A) rfl tail
        split at hmembers
        · cases hmembers
        next value middle hvalue =>
          obtain ⟨inner, hinner, hinnerNests⟩ := h.value hvalue
          obtain ⟨gap, hgap, hgapPlain⟩ := skip_split middle
          have hmember := ((hnests.append hplain).append (hcolonPlain.append hinnerNests)).append hgapPlain
          split at hmembers
          next tail' hskip =>
            cases hmembers
            rw [hskip] at hgap
            refine ⟨front ++ spaces ++ (colon ++ inner) ++ gap, ?_, hmember.mono_eq ?_⟩
            · rw [hfront, hspaces, hcolon, hinner, hgap]
              simp only [List.append_assoc]
            · rw [nestingMembers, nestingMembers]
              omega
          next tail' hskip =>
            obtain ⟨⟨more, rest'⟩, hmore, heq⟩ := Option.map_eq_some_iff.1 hmembers
            cases heq
            rw [hskip] at hgap
            obtain ⟨comma, hcomma, hcommaPlain⟩ := nests_skip (c := 0x2C) rfl tail'
            obtain ⟨back, hback, hbackNests⟩ := h.members hmore
            refine ⟨front ++ spaces ++ (colon ++ inner) ++ gap ++ (comma ++ back), ?_,
              (hmember.append (hcommaPlain.append hbackNests)).mono_eq ?_⟩
            · rw [hfront, hspaces, hcolon, hinner, hgap, hcomma, hback]
              simp only [List.append_assoc]
            · rw [nestingMembers]
              dsimp only
              omega
          · cases hmembers
      · cases hmembers
  · cases hmembers

theorem Consumes.nextValue {digits fuel : Nat} (h : Consumes digits fuel) {text rest : Codes} {doc : Doc}
    (hvalue : scanOnce digits (fuel + 1) text = some (doc, rest)) :
    ∃ consumed, text = consumed ++ rest ∧ Nests doc.nesting consumed := by
  cases text with
  | nil =>
    unfold scanOnce at hvalue
    cases hvalue
  | cons c text =>
    unfold scanOnce at hvalue
    split at hvalue
    next hc =>
      obtain ⟨⟨name, rest'⟩, hname, heq⟩ := Option.map_eq_some_iff.1 hvalue
      cases heq
      rw [hc]
      exact nests_string hname
    · obtain ⟨spaces, hspaces, hplain⟩ := skip_split text
      split at hvalue
      next hc =>
        split at hvalue
        next tail hskip =>
          cases hvalue
          rw [hskip] at hspaces
          refine ⟨0x7B :: (spaces ++ [0x7D]), by rw [hc, hspaces]; simp, ?_⟩
          exact (hplain.bracket (.inl rfl) (.inl rfl)).mono_eq (by rw [Doc.nesting, nestingMembers])
        · obtain ⟨⟨members, rest'⟩, hmembers, heq⟩ := Option.map_eq_some_iff.1 hvalue
          cases heq
          obtain ⟨inner, hinner, hnests⟩ := h.members hmembers
          refine ⟨0x7B :: (spaces ++ inner ++ [0x7D]), by rw [hc, hspaces, hinner]; simp, ?_⟩
          exact ((hplain.append hnests).bracket (.inl rfl) (.inl rfl)).mono_eq (by rw [Doc.nesting]; dsimp only; omega)
      · split at hvalue
        next hc =>
          split at hvalue
          next tail hskip =>
            cases hvalue
            rw [hskip] at hspaces
            refine ⟨0x5B :: (spaces ++ [0x5D]), by rw [hc, hspaces]; simp, ?_⟩
            exact (hplain.bracket (.inr rfl) (.inr rfl)).mono_eq (by rw [Doc.nesting, nestingItems])
          · obtain ⟨⟨items, rest'⟩, hitems, heq⟩ := Option.map_eq_some_iff.1 hvalue
            cases heq
            obtain ⟨inner, hinner, hnests⟩ := h.items hitems
            refine ⟨0x5B :: (spaces ++ inner ++ [0x5D]), by rw [hc, hspaces, hinner]; simp, ?_⟩
            exact ((hplain.append hnests).bracket (.inr rfl) (.inr rfl)).mono_eq (by rw [Doc.nesting]; dsimp only; omega)
        · exact nests_constant hvalue

theorem consumes (digits : Nat) : ∀ fuel, Consumes digits fuel
  | 0 => ⟨fun h => (by unfold scanOnce at h; cases h), fun h => (by unfold scanItems at h; cases h),
      fun h => (by unfold scanMembers at h; cases h)⟩
  | fuel + 1 =>
    have h := consumes digits fuel
    ⟨h.nextValue, h.nextItems, h.nextMembers⟩

/-- **The scan of a document** tells whether it is nested too deep. -/
theorem isBounded_read {digits : Nat} {text : Codes} {doc : Doc} (h : PythonJson.read digits text = some doc) :
    isBounded text = decide (doc.nesting ≤ maxDepth) := by
  unfold PythonJson.read at h
  split at h
  · cases h
  next doc' rest hscan =>
    split at h
    next hend =>
      cases h
      obtain ⟨spaces, hspaces, hplain⟩ := skip_split text
      obtain ⟨consumed, hconsumed, hnests⟩ := (consumes digits _).value hscan
      obtain ⟨gap, hgap, hgapPlain⟩ := skip_split rest
      have htext : text = spaces ++ consumed ++ gap := by
        rw [hspaces, hconsumed, hgap, List.isEmpty_iff.1 hend, List.append_nil, List.append_assoc]
      have hrun := ((hplain.append hnests).append hgapPlain) 0 (Nat.zero_le maxDepth)
      unfold isBounded
      rw [htext, hrun]
      by_cases hdeep : doc.nesting ≤ maxDepth
      · rw [if_pos (by omega), decide_eq_true hdeep]
        rfl
      · rw [if_neg (by omega), decide_eq_false hdeep]
    · cases h

end JwtDepth
end Dex
