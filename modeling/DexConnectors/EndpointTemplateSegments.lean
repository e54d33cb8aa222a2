import DexConnectors.EndpointTemplate
import Mathlib.Data.List.Forall2
/-!
# EndpointTemplateSegments — a value in its segment

The two SDKs fill a template alike: every placeholder by its escaped value (`Python.resolveSource_iff`,
`TypeScript.resolveSource_iff`).  An escaped value has no character that ends a segment, so the URL has the template's parts.
What the escape leaves is the full stop: a value that is a dot segment is removed as one (`values_contained_iff`).
-/
namespace Dex
namespace EndpointTemplate

open Lib Lib.Unicode

/-! ## Scanning -/

def BraceFree (text : Text) : Prop := ∀ c ∈ text, isBrace c = false

theorem braceFree_of_all {text : Text} (h : text.all (fun c => !isBrace c) = true) : BraceFree text := by
  intro c hc
  have hc := List.all_eq_true.1 h c hc
  rwa [Bool.not_eq_true'] at hc

/-- The name of a placeholder. -/
structure IsName (name : Text) : Prop where
  nonempty  : name ≠ []
  braceFree : BraceFree name

theorem scanFrom_skip : ∀ (skipped rest : Text), scanFrom skipped.length (skipped ++ rest) = scan rest
  | [], rest => rfl
  | c :: skipped, rest => by
    rw [List.length_cons, List.cons_append, scanFrom]
    exact scanFrom_skip skipped rest

theorem scan_append : ∀ {text : Text}, BraceFree text → ∀ rest, scan (text ++ rest) = text.map Token.char ++ scan rest
  | [], _, rest => rfl
  | c :: text, h, rest => by
    have hc : c ≠ '{' := fun heq => by
      have := h c List.mem_cons_self
      rw [heq] at this
      cases this
    have ih := scan_append (fun d hd => h d (List.mem_cons_of_mem c hd)) rest
    rw [List.cons_append, List.map_cons, List.cons_append, ← ih]
    unfold scan
    rw [scanFrom, if_neg hc]

theorem nameAt_name {name : Text} (h : IsName name) (rest : Text) : nameAt (name ++ '}' :: rest) = some name := by
  have hsplit := Utf8.takeWhile_append_stop (p := fun c => !isBrace c) (a := name) (b := '}' :: rest)
    (fun c hc => by rw [h.braceFree c hc]; rfl) (fun c hc => by cases hc; rfl)
  unfold nameAt
  rw [hsplit.1, hsplit.2]
  exact if_neg h.nonempty

theorem scan_braced {name : Text} (h : IsName name) (rest : Text) :
    scan (braced name ++ rest) = .placeholder name :: scan rest := by
  have htext : braced name ++ rest = '{' :: (name ++ '}' :: rest) := by
    show '{' :: (name ++ ['}'] ++ rest) = _
    rw [List.append_assoc]
    rfl
  have hskip := scanFrom_skip (name ++ ['}']) rest
  rw [List.length_append, List.append_assoc] at hskip
  rw [htext]
  unfold scan at hskip ⊢
  rw [scanFrom, if_pos rfl, nameAt_name h]
  exact congrArg _ hskip

/-! ## Templates whose placeholders are segments -/

/-- Every placeholder is a whole segment of the path. -/
structure Fills (u : URL.Parts) : Prop where
  authority : BraceFree u.authority
  segments  : ∀ segment ∈ u.segments, BraceFree segment ∨ ∃ name, IsName name ∧ segment = braced name
  suffix    : BraceFree u.suffix

/-- The name of a segment that is a placeholder. -/
def nameOf (segment : Text) : Option Text := if segment.head? = some '{' then some segment.tail.dropLast else none

theorem nameOf_braced (name : Text) : nameOf (braced name) = some name := by
  show some (name ++ ['}']).dropLast = some name
  rw [List.dropLast_concat]

theorem nameOf_of_braceFree {segment : Text} (h : BraceFree segment) : nameOf segment = none := by
  refine if_neg (fun hhead => ?_)
  have := h _ (List.mem_of_mem_head? hhead)
  cases this

def tokensOf (segment : Text) : List Token :=
  match nameOf segment with
  | some name => [.placeholder name]
  | none => segment.map .char

/-- A segment with its value. -/
def fillSegment (encoded : Text → Text) (segment : Text) : Text :=
  match nameOf segment with
  | some name => encoded name
  | none => segment

def fill (encoded : Text → Text) : Token → Text
  | .char c => [c]
  | .placeholder name => encoded name

def filledParts (encoded : Text → Text) (u : URL.Parts) : URL.Parts :=
  { u with segments := u.segments.map (fillSegment encoded) }

theorem flatMap_char (encoded : Text → Text) (text : Text) : (text.map Token.char).flatMap (fill encoded) = text := by
  rw [List.flatMap_map]
  exact List.flatMap_singleton' text

theorem scan_segments : ∀ {segments : List Text},
    (∀ segment ∈ segments, BraceFree segment ∨ ∃ name, IsName name ∧ segment = braced name) → ∀ rest,
    scan (segments.flatMap ('/' :: ·) ++ rest) = segments.flatMap (fun segment => .char '/' :: tokensOf segment) ++ scan rest
  | [], _, _ => rfl
  | segment :: segments, h, rest => by
    have ih := scan_segments (fun s hs => h s (List.mem_cons_of_mem segment hs)) rest
    have hslash : ∀ text, scan ('/' :: text) = .char '/' :: scan text :=
      fun text => @scan_append ['/'] (fun c hc => by cases List.mem_singleton.1 hc; rfl) text
    have hsegment : ∀ text, scan (segment ++ text) = tokensOf segment ++ scan text := by
      intro text
      unfold tokensOf
      rcases h segment List.mem_cons_self with hfree | ⟨name, hname, rfl⟩
      · rw [nameOf_of_braceFree hfree]
        exact scan_append hfree text
      · rw [nameOf_braced]
        exact scan_braced hname text
    rw [List.flatMap_cons, List.flatMap_cons, List.append_assoc, List.cons_append, hslash, hsegment, ih, List.append_assoc]
    rfl

/-- **What a template is scanned into.** -/
theorem scan_text {u : URL.Parts} (hscheme : BraceFree u.scheme) (h : Fills u) :
    scan u.text = (u.scheme ++ "://".toList ++ u.authority).map .char ++
      (u.segments.flatMap (fun segment => .char '/' :: tokensOf segment) ++ u.suffix.map .char) := by
  have hfirst : BraceFree (u.scheme ++ "://".toList ++ u.authority) := by
    intro c hc
    rcases List.mem_append.1 hc with hc | hc
    · rcases List.mem_append.1 hc with hc | hc
      · exact hscheme c hc
      · exact @braceFree_of_all "://".toList (by decide) c hc
    · exact h.authority c hc
  have hsuffix := scan_append h.suffix []
  rw [List.append_nil] at hsuffix
  unfold URL.Parts.text URL.Parts.path
  rw [List.append_assoc _ (u.segments.flatMap _), scan_append hfirst, scan_segments h.segments, hsuffix]
  exact congrArg _ (congrArg _ (List.append_nil _))

theorem flatMap_tokensOf (encoded : Text → Text) (segment : Text) :
    (tokensOf segment).flatMap (fill encoded) = fillSegment encoded segment := by
  unfold tokensOf fillSegment
  cases nameOf segment with
  | none => exact flatMap_char encoded segment
  | some name => exact List.append_nil _

/-- **A template with its values in it.** -/
theorem flatMap_fill (encoded : Text → Text) {u : URL.Parts} (hscheme : BraceFree u.scheme) (h : Fills u) :
    (scan u.text).flatMap (fill encoded) = (filledParts encoded u).text := by
  rw [scan_text hscheme h, List.flatMap_append, List.flatMap_append, flatMap_char, flatMap_char]
  unfold filledParts URL.Parts.text URL.Parts.path
  rw [List.append_assoc (u.scheme ++ "://".toList ++ u.authority), List.flatMap_assoc, List.flatMap_map]
  have hsegment : ∀ segment : Text, (Token.char '/' :: tokensOf segment).flatMap (fill encoded) =
      '/' :: fillSegment encoded segment := fun segment => by
    rw [List.flatMap_cons, flatMap_tokensOf]
    rfl
  simp only [hsegment]

/-! ## Python: one placeholder after the other -/

/-- The tokens that come from a template. -/
def Clean : Token → Prop
  | .char c => isBrace c = false
  | .placeholder name => IsName name

/-- A template some of whose placeholders are filled. -/
def fillSome (filled : Text → Bool) (encoded : Text → Text) : Token → Text
  | .char c => [c]
  | .placeholder name => if filled name then encoded name else braced name

namespace Python

theorem replaceFrom_skip (old new : Text) : ∀ (skipped rest : Text),
    replaceFrom old new skipped.length (skipped ++ rest) = replace old new rest
  | [], rest => rfl
  | c :: skipped, rest => by
    rw [List.length_cons, List.cons_append, replaceFrom]
    exact replaceFrom_skip old new skipped rest

theorem replace_char {name new : Text} {c : Char} (h : c ≠ '{') (rest : Text) :
    replace (braced name) new (c :: rest) = c :: replace (braced name) new rest := by
  unfold replace
  rw [replaceFrom, if_neg]
  intro hstart
  have hhead := List.isPrefixOf_iff_prefix.1 hstart
  exact h (List.cons_prefix_cons.1 hhead).1.symm

theorem replace_braceFree {name new : Text} : ∀ {text : Text}, BraceFree text → ∀ rest,
    replace (braced name) new (text ++ rest) = text ++ replace (braced name) new rest
  | [], _, _ => rfl
  | c :: text, h, rest => by
    have hc : c ≠ '{' := fun heq => by
      have := h c List.mem_cons_self
      rw [heq] at this
      cases this
    rw [List.cons_append, replace_char hc, replace_braceFree (fun d hd => h d (List.mem_cons_of_mem c hd))]
    rfl

theorem replace_same (name new rest : Text) :
    replace (braced name) new (braced name ++ rest) = new ++ replace (braced name) new rest := by
  have hskip := replaceFrom_skip (braced name) new (name ++ ['}']) rest
  have hstart : (braced name).isPrefixOf ('{' :: (name ++ ['}'] ++ rest)) = true :=
    List.isPrefixOf_iff_prefix.2 (List.prefix_append (braced name) rest)
  show replaceFrom (braced name) new 0 ('{' :: (name ++ ['}'] ++ rest)) = _
  rw [replaceFrom, if_pos hstart]
  exact congrArg _ hskip

theorem replace_other {name other : Text} (hname : IsName name) (hother : IsName other) (hne : name ≠ other) (new rest : Text) :
    replace (braced name) new (braced other ++ rest) = braced other ++ replace (braced name) new rest := by
  have hstop : ∀ {text : Text}, IsName text → ∀ tail, (text ++ '}' :: tail).takeWhile (fun c => !isBrace c) = text :=
    fun h tail => (Utf8.takeWhile_append_stop (fun c hc => by rw [h.braceFree c hc]; rfl) (fun c hc => by cases hc; rfl)).1
  have hstart : ¬(braced name).isPrefixOf ('{' :: (other ++ ['}'] ++ rest)) = true := by
    intro hstart
    obtain ⟨tail, htail⟩ := List.isPrefixOf_iff_prefix.1 hstart
    have hinner : name ++ '}' :: tail = other ++ '}' :: rest := by
      have htails : (name ++ ['}']) ++ tail = (other ++ ['}']) ++ rest := List.tail_eq_of_cons_eq htail
      rw [List.append_assoc, List.append_assoc] at htails
      exact htails
    have htake := congrArg (List.takeWhile (fun c => !isBrace c)) hinner
    rw [hstop hname, hstop hother] at htake
    exact hne htake
  show replaceFrom (braced name) new 0 ('{' :: (other ++ ['}'] ++ rest)) = _
  rw [replaceFrom, if_neg hstart, List.append_assoc]
  show '{' :: replace (braced name) new (other ++ ('}' :: rest)) = _
  rw [replace_braceFree hother.braceFree, replace_char (by decide)]
  show _ = '{' :: (other ++ ['}'] ++ replace (braced name) new rest)
  rw [List.append_assoc]
  rfl

/-- **Replacing one placeholder fills it everywhere**, and touches nothing else. -/
theorem replace_fillSome {filled : Text → Bool} {encoded : Text → Text} {name : Text} (hname : IsName name)
    (hfilled : ∀ n, filled n = true → BraceFree (encoded n)) : ∀ {tokens : List Token}, (∀ token ∈ tokens, Clean token) →
    replace (braced name) (encoded name) (tokens.flatMap (fillSome filled encoded)) =
      tokens.flatMap (fillSome (fun n => filled n || n == name) encoded)
  | [], _ => rfl
  | token :: tokens, h => by
    have ih := replace_fillSome hname hfilled (fun t ht => h t (List.mem_cons_of_mem token ht))
    have htoken := h token List.mem_cons_self
    rw [List.flatMap_cons, List.flatMap_cons, ← ih]
    generalize tokens.flatMap (fillSome filled encoded) = rest
    cases token with
    | char c => exact @replace_braceFree name (encoded name) [c] (fun d hd => List.mem_singleton.1 hd ▸ htoken) _
    | placeholder other =>
      show replace _ _ ((if filled other = true then encoded other else braced other) ++ rest) =
        (if (filled other || other == name) = true then encoded other else braced other) ++ _
      by_cases hother : filled other = true
      · have hboth : (filled other || other == name) = true := by rw [hother]; rfl
        rw [if_pos hother, if_pos hboth]
        exact replace_braceFree (hfilled other hother) _
      · rw [if_neg hother]
        by_cases heq : other = name
        · rw [heq, if_pos (by rw [beq_self_eq_true, Bool.or_true])]
          exact replace_same name _ _
        · rw [if_neg (by simp [hother, heq])]
          exact replace_other hname htoken (fun h => heq h.symm) _ _

/-- The loop of `_resolve_source`, on a template that is filled in part. -/
theorem foldlM_fillSome {quoted : Text → Option Text} (hquoted : ∀ name value, quoted name = some value → BraceFree value)
    {tokens : List Token} (htokens : ∀ token ∈ tokens, Clean token) :
    ∀ (names : List Text) (filled : Text → Bool) {url : Text}, (∀ name ∈ names, IsName name) →
      (∀ name, filled name = true → ∃ value, quoted name = some value) →
      names.foldlM (fun template name => do
          let value ← quoted name
          return replace (braced name) value template)
        (tokens.flatMap (fillSome filled (fun name => (quoted name).getD []))) = some url →
      (∀ name ∈ names, ∃ value, quoted name = some value) ∧
        url = tokens.flatMap (fillSome (fun n => filled n || names.contains n) (fun name => (quoted name).getD []))
  | [], filled, url, _, _, h => by
    refine ⟨fun name hname => absurd hname List.not_mem_nil, ?_⟩
    simp only [List.contains_nil, Bool.or_false]
    exact (Option.some.inj h).symm
  | name :: names, filled, url, hnames, hfilled, h => by
    rw [List.foldlM_cons] at h
    obtain ⟨template, htemplate, h⟩ := Option.bind_eq_some_iff.1 h
    obtain ⟨value, hvalue, htemplate⟩ := Option.bind_eq_some_iff.1 htemplate
    have hencoded : ∀ n, filled n = true → BraceFree ((quoted n).getD []) := by
      intro n hn
      obtain ⟨v, hv⟩ := hfilled n hn
      rw [hv]
      exact hquoted n v hv
    have hstep := @replace_fillSome filled (fun name => (quoted name).getD []) name (hnames name List.mem_cons_self) hencoded tokens htokens
    rw [hvalue, Option.getD_some, Option.some.inj htemplate] at hstep
    rw [hstep] at h
    obtain ⟨hsome, hurl⟩ := foldlM_fillSome hquoted htokens names _ (fun n hn => hnames n (List.mem_cons_of_mem name hn))
      (fun n hn => by
        rcases Bool.or_eq_true_iff.1 hn with hn | hn
        · exact hfilled n hn
        · exact ⟨value, eq_of_beq hn ▸ hvalue⟩) h
    refine ⟨fun n hn => ?_, ?_⟩
    · rcases List.mem_cons.1 hn with rfl | hn
      · exact ⟨value, hvalue⟩
      · exact hsome n hn
    · rw [hurl]
      simp only [List.contains_cons, Bool.or_assoc]

end Python

/-! ## Escaped values -/

theorem isSafe_ascii : ∀ b : UInt8, isSafe b = true → b < 0x80 ∧ b ≠ 0x25 := Utf8.forall_byte (by decide)

/-- An escaped value has no character that ends a segment, and no brace. -/
theorem escape_chars {bs : Bytes} : ∀ c ∈ URL.escape isSafe bs, isBrace c = false ∧ URL.endsAuthority c = false := by
  intro c hc
  have hsafe : ∀ b : UInt8, isSafe b = true → isBrace (URL.charOf b) = false ∧ URL.endsAuthority (URL.charOf b) = false :=
    Utf8.forall_byte (by decide)
  have hpercent : ∀ b : UInt8, (URL.percentByte b).all (fun c => !isBrace c && !URL.endsAuthority c) = true :=
    Utf8.forall_byte (by decide)
  obtain ⟨b, ⟨hb, rfl⟩ | hb⟩ := URL.mem_escape hc
  · exact hsafe b hb
  · have hc' := List.all_eq_true.1 (hpercent b) c hb
    rw [Bool.and_eq_true, Bool.not_eq_true', Bool.not_eq_true'] at hc'
    exact hc'

namespace TypeScript

theorem restore_char {c : Char} (h : c ≠ '%') (rest : Text) : restore (c :: rest) = c :: restore rest := by
  rw [restore.eq_def]
  split
  · rename_i heq
    cases heq
    exact absurd rfl h
  · rename_i heq
    cases heq
    rfl
  · rename_i heq
    cases heq

/-- What the two replacements make of a byte that `encodeURIComponent` wrote. -/
theorem restore_byte (b : UInt8) (rest : Text) :
    restore (escapeMarks (if isComponentSafe b then [URL.charOf b] else URL.percentByte b) ++ rest) =
      (if isSafe b then [URL.charOf b] else URL.percentByte b) ++ restore rest := by
  have hcases : ∀ b : UInt8,
      (URL.charOf b ≠ '%' ∧ escapeMarks (if isComponentSafe b then [URL.charOf b] else URL.percentByte b) = [URL.charOf b] ∧
          (if isSafe b then [URL.charOf b] else URL.percentByte b) = [URL.charOf b]) ∨
        escapeMarks (if isComponentSafe b then [URL.charOf b] else URL.percentByte b) = URL.percentByte b ∧
          ((isSafe b = true ∧ restored (URL.upperHex (b.toNat / 16)) (URL.upperHex (b.toNat % 16)) = some (URL.charOf b)) ∨
            (isSafe b = false ∧ restored (URL.upperHex (b.toNat / 16)) (URL.upperHex (b.toNat % 16)) = none ∧
              URL.upperHex (b.toNat / 16) ≠ '%' ∧ URL.upperHex (b.toNat % 16) ≠ '%')) :=
    Utf8.forall_byte (by decide)
  rcases hcases b with ⟨hc, hleft, hright⟩ | ⟨hleft, ⟨hsafe, hrestored⟩ | ⟨hsafe, hrestored, hhi, hlo⟩⟩
  · rw [hleft, hright]
    exact restore_char hc rest
  · rw [hleft, if_pos hsafe]
    show restore ('%' :: _ :: _ :: rest) = _
    rw [restore, hrestored]
    rfl
  · rw [hleft, if_neg (by rw [hsafe]; decide)]
    show restore ('%' :: _ :: _ :: rest) = _
    rw [restore, hrestored]
    show '%' :: restore (URL.upperHex _ :: URL.upperHex _ :: rest) = _
    rw [restore_char hhi, restore_char hlo]
    rfl

theorem restore_escape : ∀ bs : Bytes, restore (escapeMarks (URL.escape isComponentSafe bs)) = URL.escape isSafe bs
  | [] => rfl
  | b :: bs => by
    have ih := restore_escape bs
    unfold URL.escape escapeMarks at ih ⊢
    rw [List.flatMap_cons, List.flatMap_cons, List.flatMap_append, ← ih]
    exact restore_byte b _

/-- **`pathEscape` escapes as `quote` does.** -/
theorem pathEscape_eq (value : List UInt16) : pathEscape value = (strictUtf8 value).map (URL.escape isSafe) := by
  unfold pathEscape encodeURIComponent
  rw [Option.map_map]
  congr 1
  funext bs
  exact restore_escape bs

end TypeScript

/-- The bytes of the value that Python inserts for a name. -/
def Python.insertedBytes (engine : Engine (List Nat)) (source : TemplateSource (List Nat)) (values : Values (List Nat))
    (name : Text) : Option Bytes :=
  (inserted engine source values name).bind encodeCodePoints

/-- The bytes of the value that TypeScript inserts for a name. -/
def TypeScript.insertedBytes (engine : Engine (List UInt16)) (source : TemplateSource (List UInt16))
    (values : Values (List UInt16)) (name : Text) : Option Bytes :=
  (inserted engine source values name).bind strictUtf8

/-- What stands in the place of a name. -/
def encodedOf (bytes : Text → Option Bytes) (name : Text) : Text := ((bytes name).map (URL.escape isSafe)).getD []

theorem fill_of_fillSome {encoded : Text → Text} {filled : Text → Bool} {tokens : List Token}
    (h : ∀ name ∈ tokens.filterMap Token.name?, filled name = true) :
    tokens.flatMap (fillSome filled encoded) = tokens.flatMap (fill encoded) := by
  induction tokens with
  | nil => rfl
  | cons token tokens ih =>
    rw [List.flatMap_cons, List.flatMap_cons]
    cases token with
    | char c => exact congrArg _ (ih h)
    | placeholder name =>
      rw [ih (fun n hn => h n (List.mem_cons_of_mem name hn))]
      show (if filled name = true then encoded name else braced name) ++ _ = encoded name ++ _
      rw [if_pos (h name List.mem_cons_self)]

theorem clean_scan {u : URL.Parts} (hscheme : BraceFree u.scheme) (h : Fills u) : ∀ token ∈ scan u.text, Clean token := by
  have hchars : ∀ {text : Text}, BraceFree text → ∀ token ∈ text.map Token.char, Clean token := by
    intro text htext token htoken
    obtain ⟨c, hc, rfl⟩ := List.mem_map.1 htoken
    exact htext c hc
  have hfirst : BraceFree (u.scheme ++ "://".toList ++ u.authority) := by
    intro c hc
    rcases List.mem_append.1 hc with hc | hc
    · rcases List.mem_append.1 hc with hc | hc
      · exact hscheme c hc
      · exact @braceFree_of_all "://".toList (by decide) c hc
    · exact h.authority c hc
  intro token htoken
  rw [scan_text hscheme h] at htoken
  rcases List.mem_append.1 htoken with htoken | htoken
  · exact hchars hfirst token htoken
  rcases List.mem_append.1 htoken with htoken | htoken
  · obtain ⟨segment, hsegment, htoken⟩ := List.mem_flatMap.1 htoken
    rcases List.mem_cons.1 htoken with rfl | htoken
    · rfl
    · unfold tokensOf at htoken
      rcases h.segments segment hsegment with hfree | ⟨name, hname, rfl⟩
      · rw [nameOf_of_braceFree hfree] at htoken
        exact hchars hfree token htoken
      · rw [nameOf_braced] at htoken
        cases List.mem_singleton.1 htoken
        exact hname
  · exact hchars h.suffix token htoken

theorem fillSome_none (encoded : Text → Text) (tokens : List Token) :
    tokens.flatMap (fillSome (fun _ => false) encoded) = tokens.flatMap (fill braced) := by
  have hfill : fillSome (fun _ => false) encoded = fill braced := by
    funext token
    cases token <;> rfl
  rw [hfill]

/-- A template is itself with its placeholders in it. -/
theorem text_eq_fill {u : URL.Parts} (hscheme : BraceFree u.scheme) (h : Fills u) : u.text = (scan u.text).flatMap (fill braced) := by
  have hsegments : u.segments.map (fillSegment braced) = u.segments := by
    refine List.map_congr_left (g := id) (fun segment hsegment => ?_) |>.trans (List.map_id _)
    unfold fillSegment
    rcases h.segments segment hsegment with hfree | ⟨name, _, rfl⟩
    · rw [nameOf_of_braceFree hfree]
      rfl
    · rw [nameOf_braced]
      rfl
  rw [flatMap_fill braced hscheme h]
  unfold filledParts
  rw [hsegments]

/-- **The URL that Python makes** is the template with every value escaped in its place. -/
theorem Python.resolveSource_eq {engine : Engine (List Nat)} {source : TemplateSource (List Nat)} {values : Values (List Nat)}
    {u : URL.Parts} (htemplate : u.text = source.template) (hscheme : BraceFree u.scheme) (h : Fills u) {url : Text}
    (hurl : resolveSource engine source values = some url) :
    (∀ name ∈ placeholders source.template, ∃ bytes, insertedBytes engine source values name = some bytes) ∧
      url = (filledParts (encodedOf (insertedBytes engine source values)) u).text := by
  have hquoted : ∀ name, (inserted engine source values name).bind quote =
      (insertedBytes engine source values name).map (URL.escape isSafe) := fun name => by
    unfold insertedBytes
    cases inserted engine source values name <;> rfl
  have hfree : ∀ name value, (inserted engine source values name).bind quote = some value → BraceFree value := by
    intro name value hvalue c hc
    rw [hquoted] at hvalue
    obtain ⟨bytes, _, rfl⟩ := Option.map_eq_some_iff.1 hvalue
    exact (escape_chars c hc).1
  have hclean : ∀ token ∈ scan source.template, Clean token := by
    rw [← htemplate]
    exact clean_scan hscheme h
  have hnames : ∀ name ∈ placeholders source.template, IsName name := by
    intro name hname
    obtain ⟨token, htoken, hname⟩ := List.mem_filterMap.1 hname
    have htokenClean := hclean token htoken
    cases token with
    | char c => cases hname
    | placeholder n =>
      cases hname
      exact htokenClean
  have hrender : source.template = (scan source.template).flatMap (fillSome (fun _ => false)
      (fun name => ((inserted engine source values name).bind quote).getD [])) := by
    rw [fillSome_none, ← htemplate]
    exact text_eq_fill hscheme h
  have hloop : (placeholders source.template).foldlM (fun template name => do
      let value ← (inserted engine source values name).bind quote
      return replace (braced name) value template) ((scan source.template).flatMap (fillSome (fun _ => false)
        (fun name => ((inserted engine source values name).bind quote).getD []))) = some url := by
    rw [← hrender, ← hurl]
    unfold resolveSource
    congr 1
    funext template name
    cases inserted engine source values name <;> rfl
  obtain ⟨hall, htext⟩ := foldlM_fillSome hfree hclean (placeholders source.template) (fun _ => false) hnames
    (fun _ hfalse => by cases hfalse) hloop
  refine ⟨fun name hname => ?_, ?_⟩
  · obtain ⟨value, hvalue⟩ := hall name hname
    rw [hquoted] at hvalue
    obtain ⟨bytes, hbytes, _⟩ := Option.map_eq_some_iff.1 hvalue
    exact ⟨bytes, hbytes⟩
  · rw [htext, fill_of_fillSome (fun name hname => by
      rw [Bool.false_or]
      exact List.contains_iff_mem.2 hname)]
    simp only [hquoted]
    rw [← htemplate]
    exact flatMap_fill _ hscheme h

theorem mapM_fill {quoted : Text → Option Text} : ∀ {tokens : List Token} {pieces : List Text},
    tokens.mapM (fun (token : Token) =>
      match token with
      | .char c => some [c]
      | .placeholder name => quoted name) = some pieces →
      (∀ name ∈ tokens.filterMap Token.name?, ∃ value, quoted name = some value) ∧
        pieces.flatten = tokens.flatMap (fill (fun name => (quoted name).getD []))
  | [], pieces, h => by
    cases h
    exact ⟨fun name hname => absurd hname List.not_mem_nil, rfl⟩
  | token :: tokens, pieces, h => by
    rw [List.mapM_cons] at h
    obtain ⟨piece, hpiece, h⟩ := Option.bind_eq_some_iff.1 h
    obtain ⟨rest, hrest, h⟩ := Option.bind_eq_some_iff.1 h
    cases h
    obtain ⟨hall, hflat⟩ := mapM_fill hrest
    rw [List.flatten_cons, List.flatMap_cons, hflat]
    cases token with
    | char c =>
      cases hpiece
      exact ⟨hall, rfl⟩
    | placeholder name =>
      refine ⟨fun n hn => ?_, ?_⟩
      · rcases List.mem_cons.1 (show n ∈ name :: tokens.filterMap Token.name? from hn) with rfl | hn
        · exact ⟨piece, hpiece⟩
        · exact hall n hn
      · show _ = (quoted name).getD [] ++ _
        rw [show quoted name = some piece from hpiece]
        rfl

/-- **The URL that TypeScript makes** is the template with every value escaped in its place. -/
theorem TypeScript.resolveSource_eq {engine : Engine (List UInt16)} {source : TemplateSource (List UInt16)}
    {values : Values (List UInt16)} {u : URL.Parts} (htemplate : u.text = source.template) (hscheme : BraceFree u.scheme)
    (h : Fills u) {url : Text} (hurl : resolveSource engine source values = some url) :
    (∀ name ∈ placeholders source.template, ∃ bytes, insertedBytes engine source values name = some bytes) ∧
      url = (filledParts (encodedOf (insertedBytes engine source values)) u).text := by
  have hquoted : ∀ name, ((inserted engine source values name).bind pathEscape) =
      (insertedBytes engine source values name).map (URL.escape isSafe) := fun name => by
    unfold insertedBytes
    cases inserted engine source values name with
    | none => rfl
    | some value => exact pathEscape_eq value
  unfold resolveSource at hurl
  obtain ⟨pieces, hpieces, rfl⟩ := Option.map_eq_some_iff.1 hurl
  obtain ⟨hall, hflat⟩ := @mapM_fill (fun name => (inserted engine source values name).bind pathEscape) _ _ hpieces
  refine ⟨fun name hname => ?_, ?_⟩
  · obtain ⟨value, hvalue⟩ := hall name hname
    rw [hquoted] at hvalue
    obtain ⟨bytes, hbytes, _⟩ := Option.map_eq_some_iff.1 hvalue
    exact ⟨bytes, hbytes⟩
  · rw [hflat]
    simp only [hquoted]
    rw [← htemplate]
    exact flatMap_fill _ hscheme h

/-! ## A value in its segment -/

/-- The bytes of a character of a URL. -/
def encodeChar (c : Char) : Bytes := utf8 [c]

theorem encodesAscii_encodeChar : URL.EncodesAscii encodeChar := Utf8.forall_byte (by decide)

/-- A segment of the URL and the segment of the template that it comes from. -/
def SegmentIs (bytes : Text → Option Bytes) (segment result : Text) : Prop :=
  match nameOf segment with
  | some name => bytes name = some (URL.percentDecode encodeChar result)
  | none => result = segment

/-- **A URL is contained in its template**: scheme and authority are the template's, and once dot segments are removed its
segments are the template's, each placeholder decoding to the value inserted for it. -/
def Contained (template : Text) (bytes : Text → Option Bytes) (url : Text) : Prop :=
  ∃ u v, URL.parse template = some u ∧ URL.parse url = some v ∧ u.scheme = "https".toList ∧ v.scheme = u.scheme ∧
    v.authority = u.authority ∧ List.Forall₂ (SegmentIs bytes) u.segments (URL.removeDots v.segments)

/-- The full stops that are a dot segment. -/
def dotBytes : List Bytes := [ascii ".", ascii ".."]

/-- **No dot segments**: neither in the template nor as a value. -/
def NoDots (template : Text) (bytes : Text → Option Bytes) : Prop :=
  ∀ u, URL.parse template = some u → ∀ segment ∈ u.segments,
    match nameOf segment with
    | some name => ∀ value ∈ bytes name, value ∉ dotBytes
    | none => ¬URL.IsDot segment

/-- Every placeholder of a template is a whole segment of its path. -/
def FillsSegments (template : Text) : Prop := ∀ u, URL.parse template = some u → Fills u

theorem isDot_escape (bs : Bytes) : URL.IsDot (URL.escape isSafe bs) ↔ bs ∈ dotBytes := by
  have hdecode := URL.percentDecode_escape encodesAscii_encodeChar isSafe_ascii bs
  constructor
  · rintro (h | h)
    · rw [h] at hdecode
      rw [← hdecode]
      decide
    · rw [h] at hdecode
      rw [← hdecode]
      decide
  · intro h
    simp only [dotBytes, List.mem_cons, List.not_mem_nil, or_false] at h
    rcases h with rfl | rfl
    · exact .inl (by decide)
    · exact .inr (by decide)

/-- A segment with its value, and what it decodes to. -/
theorem segmentIs_fillSegment {bytes : Text → Option Bytes} {segment : Text}
    (h : ∀ name, nameOf segment = some name → ∃ value, bytes name = some value) :
    SegmentIs bytes segment (fillSegment (encodedOf bytes) segment) := by
  unfold SegmentIs fillSegment
  cases hname : nameOf segment with
  | none => rfl
  | some name =>
    obtain ⟨value, hvalue⟩ := h name hname
    dsimp only
    unfold encodedOf
    rw [hvalue]
    exact congrArg some (URL.percentDecode_escape encodesAscii_encodeChar isSafe_ascii value).symm

theorem isDot_fillSegment {bytes : Text → Option Bytes} {segment : Text}
    (h : ∀ name, nameOf segment = some name → ∃ value, bytes name = some value) :
    ¬URL.IsDot (fillSegment (encodedOf bytes) segment) ↔
      match nameOf segment with
      | some name => ∀ value ∈ bytes name, value ∉ dotBytes
      | none => ¬URL.IsDot segment := by
  unfold fillSegment
  cases hname : nameOf segment with
  | none => exact Iff.rfl
  | some name =>
    obtain ⟨value, hvalue⟩ := h name hname
    dsimp only
    unfold encodedOf
    rw [hvalue, Option.map_some, Option.getD_some, isDot_escape]
    exact ⟨fun hnot v hv => Option.some.inj hv ▸ hnot, fun hall => hall value rfl⟩

theorem wellFormed_filledParts {bytes : Text → Option Bytes} {u : URL.Parts} (h : u.WellFormed) :
    (filledParts (encodedOf bytes) u).WellFormed where
  scheme := h.scheme
  authority := h.authority
  segments := by
    intro result hresult c hc
    obtain ⟨segment, hsegment, rfl⟩ := List.mem_map.1 hresult
    unfold fillSegment at hc
    cases hname : nameOf segment with
    | none =>
      rw [hname] at hc
      exact h.segments segment hsegment c hc
    | some name =>
      rw [hname] at hc
      dsimp only [encodedOf] at hc
      cases hbytes : bytes name with
      | none =>
        rw [hbytes] at hc
        cases hc
      | some value =>
        rw [hbytes] at hc
        exact (escape_chars c hc).2
  suffix := h.suffix

theorem forall₂_getLast {R : Text → Text → Prop} {l₁ l₂ : List Text} (h : List.Forall₂ R l₁ l₂) :
    ∀ {a b : Text}, l₁.getLast? = some a → l₂.getLast? = some b → R a b := by
  induction h with
  | nil => exact fun ha => by cases ha
  | cons hab hrest ih =>
    intro x y hx hy
    cases hrest with
    | nil =>
      cases hx
      cases hy
      exact hab
    | cons hab' hrest' => exact ih (by rwa [List.getLast?_cons_cons] at hx) (by rwa [List.getLast?_cons_cons] at hy)

/-- **The filled template is contained just when nothing in it is a dot segment.** -/
theorem contained_iff {template url : Text} {bytes : Text → Option Bytes} {u : URL.Parts} (hparse : URL.parse template = some u)
    (hscheme : u.scheme = "https".toList)
    (hbytes : ∀ segment ∈ u.segments, ∀ name, nameOf segment = some name → ∃ value, bytes name = some value)
    (hurl : url = (filledParts (encodedOf bytes) u).text) : Contained template bytes url ↔ NoDots template bytes := by
  have hwell := (URL.text_of_parse hparse).2
  have hresult : URL.parse url = some (filledParts (encodedOf bytes) u) := by
    rw [hurl]
    exact URL.parse_text (wellFormed_filledParts hwell)
  constructor
  · rintro ⟨u', v, hu, hv, _, _, _, hsegments⟩ u'' hu'' segment hsegment
    rw [hparse] at hu hu''
    cases hu
    cases hu''
    rw [hresult] at hv
    cases hv
    rw [← isDot_fillSegment (hbytes segment hsegment)]
    intro hdot
    rcases URL.removeDots_dot ⟨_, List.mem_map_of_mem hsegment, hdot⟩ with hlength | ⟨hempty, last, hlast, hlastDot⟩
    · have heq : u.segments.length = (URL.removeDots (u.segments.map (fillSegment (encodedOf bytes)))).length := hsegments.length_eq
      rw [List.length_map] at hlength
      omega
    · rw [List.getLast?_map] at hlast
      obtain ⟨final, hfinal, rfl⟩ := Option.map_eq_some_iff.1 hlast
      have his := forall₂_getLast hsegments hfinal hempty
      unfold SegmentIs at his
      unfold fillSegment at hlastDot
      cases hname : nameOf final with
      | none =>
        rw [hname] at his hlastDot
        dsimp only at his hlastDot
        rw [← his] at hlastDot
        rcases hlastDot with h | h <;> cases h
      | some name =>
        rw [hname] at his hlastDot
        dsimp only [encodedOf] at his hlastDot
        rw [his] at hlastDot
        rcases hlastDot with h | h <;> cases h
  · intro hdots
    refine ⟨u, _, hparse, hresult, hscheme, rfl, rfl, ?_⟩
    have hnone : ∀ result ∈ (filledParts (encodedOf bytes) u).segments, ¬URL.IsDot result := by
      intro result hmem
      obtain ⟨segment, hsegment, rfl⟩ := List.mem_map.1 hmem
      exact (isDot_fillSegment (hbytes segment hsegment)).2 (hdots u hparse segment hsegment)
    rw [URL.removeDots_eq hnone]
    unfold filledParts
    rw [List.forall₂_map_right_iff, List.forall₂_same]
    exact fun segment hsegment => segmentIs_fillSegment (hbytes segment hsegment)

theorem parse_valid {isHTTPSURL : Text → Bool} {template : Text} (h : isValidTemplate isHTTPSURL template = true) :
    ∃ u, URL.parse template = some u ∧ u.scheme = "https".toList := by
  unfold isValidTemplate hasFixedHTTPSOrigin at h
  simp only [Bool.and_eq_true] at h
  obtain ⟨rest, hrest⟩ := List.isPrefixOf_iff_prefix.1 h.2.1.1.1
  have hbefore := List.takeWhile_append_dropWhile (p := fun (c : Char) => decide (c ≠ '{')) (l := template)
  rw [← hrest, List.append_assoc] at hbefore
  generalize rest ++ template.dropWhile (fun (c : Char) => decide (c ≠ '{')) = tail at hbefore
  have hsplit := Utf8.takeWhile_append_stop (p := fun c => !(c == ':' || URL.endsAuthority c)) (a := "https".toList)
    (b := "://".toList ++ tail) (List.all_eq_true.1 (by decide)) (fun c hc => by cases hc; rfl)
  rw [← hbefore]
  unfold URL.parse
  rw [show "https://".toList ++ tail = "https".toList ++ ("://".toList ++ tail) from rfl, hsplit.1, hsplit.2]
  exact ⟨_, rfl, rfl⟩

/-- The placeholders of the segments are those of the template. -/
theorem mem_placeholders {u : URL.Parts} (hscheme : BraceFree u.scheme) (h : Fills u) {segment name : Text}
    (hsegment : segment ∈ u.segments) (hname : nameOf segment = some name) : name ∈ placeholders u.text := by
  unfold placeholders
  refine List.mem_filterMap.2 ⟨.placeholder name, ?_, rfl⟩
  rw [scan_text hscheme h]
  refine List.mem_append_right _ (List.mem_append_left _ (List.mem_flatMap.2 ⟨segment, hsegment, List.mem_cons_of_mem _ ?_⟩))
  unfold tokensOf
  rw [hname]
  exact List.mem_cons_self

/-- **A value stays in its segment just when it is no dot segment**, in both SDKs. -/
theorem values_contained_iff (isHTTPSURL : Text → Bool) (template : Text) (hvalid : isValidTemplate isHTTPSURL template = true)
    (hfills : FillsSegments template) (python : Engine (List Nat)) (typeScript : Engine (List UInt16))
    (pythonRules : Text → TemplateValueRule (List Nat)) (typeScriptRules : Text → TemplateValueRule (List UInt16))
    (pythonValues : Values (List Nat)) (typeScriptValues : Values (List UInt16)) :
    (∀ url, Python.resolveSource python ⟨template, pythonRules⟩ pythonValues = some url →
        (Contained template (Python.insertedBytes python ⟨template, pythonRules⟩ pythonValues) url ↔
          NoDots template (Python.insertedBytes python ⟨template, pythonRules⟩ pythonValues))) ∧
      ∀ url, TypeScript.resolveSource typeScript ⟨template, typeScriptRules⟩ typeScriptValues = some url →
        (Contained template (TypeScript.insertedBytes typeScript ⟨template, typeScriptRules⟩ typeScriptValues) url ↔
          NoDots template (TypeScript.insertedBytes typeScript ⟨template, typeScriptRules⟩ typeScriptValues)) := by
  obtain ⟨u, hparse, hscheme⟩ := parse_valid hvalid
  have hfill := hfills u hparse
  have htext := (URL.text_of_parse hparse).1
  have hfree : BraceFree u.scheme := by
    rw [hscheme]
    exact braceFree_of_all (by decide)
  have hmem : ∀ segment ∈ u.segments, ∀ name, nameOf segment = some name → name ∈ placeholders template := by
    intro segment hsegment name hname
    rw [← htext]
    exact mem_placeholders hfree hfill hsegment hname
  constructor
  · intro url hurl
    obtain ⟨hall, hurl⟩ := @Python.resolveSource_eq python ⟨template, pythonRules⟩ pythonValues u htext hfree hfill url hurl
    exact contained_iff hparse hscheme (fun segment hsegment name hname => hall name (hmem segment hsegment name hname)) hurl
  · intro url hurl
    obtain ⟨hall, hurl⟩ := @TypeScript.resolveSource_eq typeScript ⟨template, typeScriptRules⟩ typeScriptValues u htext hfree hfill url hurl
    exact contained_iff hparse hscheme (fun segment hsegment name hname => hall name (hmem segment hsegment name hname)) hurl

/-- An endpoint with a tenant in its path. -/
def tenantTemplate : Text := "https://login.example/{tenant}/token".toList

def tenantParts : URL.Parts := ⟨"https".toList, "login.example".toList, ["{tenant}".toList, "token".toList], []⟩

theorem parse_tenantTemplate : URL.parse tenantTemplate = some tenantParts := by decide

theorem fills_tenantTemplate : FillsSegments tenantTemplate := by
  intro u hu
  rw [parse_tenantTemplate] at hu
  cases hu
  refine ⟨braceFree_of_all (by decide), ?_, fun c hc => by cases hc⟩
  intro segment hsegment
  simp only [tenantParts, List.mem_cons, List.not_mem_nil, or_false] at hsegment
  rcases hsegment with rfl | rfl
  · exact .inr ⟨"tenant".toList, ⟨by decide, braceFree_of_all (by decide)⟩, rfl⟩
  · exact .inl (braceFree_of_all (by decide))

/-- No rule for a value. -/
def noRule (T : Type) : TemplateValueRule T := ⟨false, none, [], [], false⟩

def plainEngine (T : Type) : Engine T := ⟨fun _ => true, fun _ _ => true, id⟩

def tenantValues {T : Type} (value : T) : Values T := ⟨fun _ => some value, fun _ => value⟩

/-- The two SDKs on a tenant of ordinary characters. -/
theorem values_contained_tenant :
    (∀ url, Python.resolveSource (plainEngine _) ⟨tenantTemplate, fun _ => noRule _⟩ (tenantValues [0x61, 0x2F]) = some url →
        (Contained tenantTemplate
            (Python.insertedBytes (plainEngine _) ⟨tenantTemplate, fun _ => noRule _⟩ (tenantValues [0x61, 0x2F])) url ↔
          NoDots tenantTemplate
            (Python.insertedBytes (plainEngine _) ⟨tenantTemplate, fun _ => noRule _⟩ (tenantValues [0x61, 0x2F])))) ∧
      ∀ url, TypeScript.resolveSource (plainEngine _) ⟨tenantTemplate, fun _ => noRule _⟩ (tenantValues [0x61, 0x2F]) = some url →
        (Contained tenantTemplate
            (TypeScript.insertedBytes (plainEngine _) ⟨tenantTemplate, fun _ => noRule _⟩ (tenantValues [0x61, 0x2F])) url ↔
          NoDots tenantTemplate
            (TypeScript.insertedBytes (plainEngine _) ⟨tenantTemplate, fun _ => noRule _⟩ (tenantValues [0x61, 0x2F]))) :=
  values_contained_iff (fun _ => true) tenantTemplate (by decide) fills_tenantTemplate (plainEngine _) (plainEngine _)
    (fun _ => noRule _) (fun _ => noRule _) (tenantValues [0x61, 0x2F]) (tenantValues [0x61, 0x2F])

/-- A tenant `..` leaves its segment, and takes it along. -/
theorem dot_tenant_leaves :
    isValidTemplate (fun _ => true) tenantTemplate = true ∧ FillsSegments tenantTemplate ∧
      ∃ url, Python.resolveSource (plainEngine _) ⟨tenantTemplate, fun _ => noRule _⟩ (tenantValues [0x2E, 0x2E]) = some url ∧
        TypeScript.resolveSource (plainEngine _) ⟨tenantTemplate, fun _ => noRule _⟩ (tenantValues [0x2E, 0x2E]) = some url ∧
        ∀ bytes, ¬Contained tenantTemplate bytes url := by
  refine ⟨by decide, fills_tenantTemplate, "https://login.example/../token".toList, by decide, by decide, ?_⟩
  rintro bytes ⟨u, v, hu, hv, _, _, _, hsegments⟩
  have hurl : URL.parse "https://login.example/../token".toList =
      some ⟨"https".toList, "login.example".toList, ["..".toList, "token".toList], []⟩ := by decide
  rw [parse_tenantTemplate] at hu
  rw [hurl] at hv
  cases hu
  cases hv
  exact absurd hsegments.length_eq (by decide)

end EndpointTemplate
end Dex
