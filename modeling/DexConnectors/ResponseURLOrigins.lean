import DexConnectors.ResponseURL
import DexConnectors.AddressPolicyAgree
/-!
# ResponseURLOrigins — what an accepted origin is

Python's tests on the raw authority mean what they should when the authority is a host and a port: then TypeScript's URL has
that host too (`TypeScript.accepts_iff`).  For other authorities they do not (`backslash_accepted`).
-/
namespace Dex
namespace ResponseURL

open Lib Lib.Address

/-! ## Authorities -/

/-- The characters of a registered name that mean nothing else. -/
def isUnreserved (c : Char) : Bool := c.isAlphanum || c == '-' || c == '.' || c == '_' || c == '~'

/-- An authority that is a host of unreserved characters, and perhaps a port. -/
structure IsAuthority (netloc host port : Text) : Prop where
  eq : netloc = host ++ port
  nonempty : host ≠ []
  host : ∀ c ∈ host, isUnreserved c = true
  port : port = [] ∨ ∃ digits, port = ':' :: digits ∧ digits.all Char.isDigit = true

/-- The characters that end or divide an authority. -/
def isDelimiter (c : Char) : Bool := c == ':' || c == '/' || c == '\\' || c == '@' || c == '[' || c == '%'

theorem not_isDelimiter {c : Char} (h : isUnreserved c = true) : isDelimiter c = false := by
  rw [Bool.eq_false_iff]
  intro hdelimiter
  simp only [isDelimiter, Bool.or_eq_true, beq_iff_eq] at hdelimiter
  rcases hdelimiter with ((((rfl | rfl) | rfl) | rfl) | rfl) | rfl <;> exact absurd h (by decide)

theorem not_mem_host {netloc host port : Text} (h : IsAuthority netloc host port) {c : Char} (hc : isDelimiter c = true) :
    c ∉ host := by
  intro hmem
  rw [not_isDelimiter (h.host c hmem)] at hc
  cases hc

theorem not_mem_netloc {netloc host port : Text} (h : IsAuthority netloc host port) {c : Char} (hc : isDelimiter c = true)
    (hcolon : c ≠ ':') : c ∉ netloc := by
  rw [h.eq, List.mem_append, not_or]
  refine ⟨not_mem_host h hc, ?_⟩
  rcases h.port with hport | ⟨digits, hport, hdigits⟩
  · rw [hport]
    exact List.not_mem_nil
  · rw [hport, List.mem_cons, not_or]
    refine ⟨hcolon, fun hmem => ?_⟩
    have hdigit := List.all_eq_true.1 hdigits c hmem
    have hunreserved : isUnreserved c = true := by
      unfold isUnreserved Char.isAlphanum
      rw [hdigit, Bool.or_true, Bool.true_or, Bool.true_or, Bool.true_or, Bool.true_or]
    rw [not_isDelimiter hunreserved] at hc
    cases hc

theorem before_of_not_mem {c : Char} {text : Text} (h : c ∉ text) (rest : Text) : before c (text ++ c :: rest) = text ∧
    after c (text ++ c :: rest) = rest := by
  have hsplit := Utf8.takeWhile_append_stop (p := fun d => d != c) (a := text) (b := c :: rest)
    (fun d hd => by
      rw [bne_iff_ne]
      exact fun heq => h (heq ▸ hd))
    (fun d hd => by
      cases hd
      exact bne_self_eq_false c)
  unfold before after
  rw [hsplit.1, hsplit.2]
  exact ⟨rfl, rfl⟩

theorem before_all {c : Char} {text : Text} (h : c ∉ text) : before c text = text ∧ after c text = [] := by
  have hsplit := Utf8.takeWhile_append_stop (p := fun d => d != c) (a := text) (b := [])
    (fun d hd => by
      rw [bne_iff_ne]
      exact fun heq => h (heq ▸ hd)) (fun d hd => by cases hd)
  rw [List.append_nil] at hsplit
  unfold before after
  rw [hsplit.1, hsplit.2]
  exact ⟨rfl, rfl⟩

theorem afterLast_all {c : Char} {text : Text} (h : c ∉ text) : afterLast c text = text := by
  have := (@before_all c text.reverse (by rwa [List.mem_reverse])).1
  unfold before at this
  unfold afterLast
  rw [this, List.reverse_reverse]

/-- The host and the port of such an authority. -/
theorem IsAuthority.cut {netloc host port : Text} (h : IsAuthority netloc host port) :
    before ':' netloc = host ∧ after ':' netloc = port.tail := by
  have hcolon := not_mem_host h (c := ':') (by decide)
  rw [h.eq]
  rcases h.port with hport | ⟨digits, hport, _⟩
  · rw [hport, List.append_nil]
    exact before_all hcolon
  · rw [hport]
    exact before_of_not_mem hcolon digits

/-! ## URLs -/

/-- The schemes that are accepted at all. -/
def IsScheme (scheme : Text) : Prop := scheme = "https".toList ∨ scheme = "http".toList

/-- A URL from its scheme, its authority and what comes after it. -/
def origin (scheme netloc : Text) : Text := scheme ++ "://".toList ++ netloc

theorem cut_scheme {scheme : Text} (h : IsScheme scheme) (rest : Text) :
    before ':' (scheme ++ ("://".toList ++ rest)) = scheme ∧
      ((scheme ++ ("://".toList ++ rest)).dropWhile (· != ':')).drop 3 = rest ∧
      after ':' (scheme ++ ("://".toList ++ rest)) = '/' :: '/' :: rest := by
  rcases h with rfl | rfl <;> exact ⟨rfl, rfl, rfl⟩

theorem scheme_of_startsWithHTTP {value : Text} (h : startsWithHTTP value = true) :
    ∃ scheme rest, IsScheme scheme ∧ value = scheme ++ ("://".toList ++ rest) := by
  unfold startsWithHTTP at h
  rcases Bool.or_eq_true_iff.1 h with h | h
  · obtain ⟨rest, rfl⟩ := List.isPrefixOf_iff_prefix.1 h
    exact ⟨"https".toList, rest, .inl rfl, rfl⟩
  · obtain ⟨rest, rfl⟩ := List.isPrefixOf_iff_prefix.1 h
    exact ⟨"http".toList, rest, .inr rfl, rfl⟩

theorem startsWithHTTP_scheme {scheme : Text} (h : IsScheme scheme) (rest : Text) :
    startsWithHTTP (scheme ++ ("://".toList ++ rest)) = true := by
  unfold startsWithHTTP
  rcases h with rfl | rfl
  · exact Bool.or_eq_true_iff.2 (.inl (List.isPrefixOf_iff_prefix.2 ⟨rest, rfl⟩))
  · exact Bool.or_eq_true_iff.2 (.inr (List.isPrefixOf_iff_prefix.2 ⟨rest, rfl⟩))

theorem stripSlashes_eq {value tail : Text} (hlast : value.getLast? ≠ some '/') (htail : tail = [] ∨ tail = ['/']) :
    stripSlashes (value ++ tail) = value := by
  have hstop : (value.reverse).dropWhile (· == '/') = value.reverse := by
    cases hreverse : value.reverse with
    | nil => rfl
    | cons c rest =>
      rw [List.dropWhile_cons_of_neg]
      intro heq
      rw [← List.head?_reverse, hreverse, List.head?_cons] at hlast
      exact hlast (congrArg some (eq_of_beq heq))
  unfold stripSlashes
  rcases htail with rfl | rfl
  · rw [List.append_nil, hstop, List.reverse_reverse]
  · rw [List.reverse_append]
    show (('/' :: value.reverse).dropWhile (· == '/')).reverse = value
    rw [List.dropWhile_cons_of_pos (by decide), hstop, List.reverse_reverse]

/-! ## Python -/

/-- **What Python accepts**: a scheme, an authority up to a `/` that its tests allow, and at most that `/`. -/
theorem Python.accepts {rule : Rule} {value returned : Text} (h : Python.validateResponseURL rule value = some returned) :
    ∃ scheme netloc tail parsed, IsScheme scheme ∧ value = scheme ++ ("://".toList ++ (netloc ++ tail)) ∧ '/' ∉ netloc ∧
      (tail = [] ∨ tail = ['/']) ∧ Python.urlsplit value = some parsed ∧ parsed = ⟨scheme, netloc, tail⟩ ∧
      value.all isPlain = true ∧ returned = stripSlashes value ∧
      ∃ port, portOf parsed.hostinfo.2 = some port ∧ parsed.hostname ≠ [] ∧ '@' ∉ netloc ∧
        (scheme = "https".toList ∨ rule.allowLoopback = true ∧ Python.isLoopback parsed.hostname = true) ∧
        (rule.forbidPort = true → port = none) := by
  unfold Python.validateResponseURL at h
  split at h
  · cases h
  rename_i hplain
  simp only [Bool.or_eq_true, Bool.not_eq_true', not_or, Bool.not_eq_false] at hplain
  obtain ⟨scheme, rest, hscheme, rfl⟩ := scheme_of_startsWithHTTP hplain.1.1
  split at h
  · cases h
  rename_i parsed hsplit
  split at h
  · cases h
  rename_i port hport
  dsimp only at h
  split at h
  · cases h
  rename_i htests
  split at h
  · cases h
  rename_i hallowed
  obtain ⟨hbefore, hrest, _⟩ := cut_scheme hscheme rest
  have hparsed : parsed = ⟨scheme, before '/' rest, rest.dropWhile (· != '/')⟩ := by
    unfold Python.urlsplit at hsplit
    rw [hbefore, hrest] at hsplit
    dsimp only at hsplit
    split at hsplit
    · exact (Option.some.inj hsplit).symm
    · cases hsplit
  simp only [Bool.or_eq_true, not_or, Bool.not_eq_true, Bool.and_eq_false_iff, Bool.not_eq_false'] at htests
  obtain ⟨⟨⟨⟨hhost, husername⟩, hpath⟩, hproto⟩, hforbid⟩ := htests
  have hslash : '/' ∉ before '/' rest := fun hmem => absurd (List.mem_takeWhile_imp hmem) (by decide)
  refine ⟨scheme, before '/' rest, rest.dropWhile (· != '/'), parsed, hscheme, ?_, hslash, ?_, hsplit, hparsed, hplain.2,
    (Option.some.inj h).symm, port, hport, ?_, ?_, ?_, ?_⟩
  · unfold before
    rw [List.takeWhile_append_dropWhile]
  · rw [hparsed] at hpath
    simpa using hpath
  · simpa using hhost
  · rw [hparsed] at husername
    unfold Python.SplitResult.hasUsername at husername
    simpa using husername
  · rw [hparsed] at hproto
    rcases hscheme with rfl | rfl
    · exact .inl rfl
    · right
      rcases hproto with hproto | hproto
      · exact absurd hproto (show ¬("http".toList != "https".toList) = false by decide)
      · rw [hparsed]
        simp only [Bool.and_eq_true] at hproto
        exact hproto.1
  · intro hrule
    rcases hforbid with hforbid | hforbid
    · rw [hrule] at hforbid
      cases hforbid
    · simpa using hforbid

/-! ## TypeScript -/

namespace TypeScript

theorem head_netloc {netloc host port : Text} (h : IsAuthority netloc host port) {c : Char} (hc : isDelimiter c = true) :
    netloc.head? ≠ some c := by
  intro hhead
  rw [h.eq, List.head?_append_of_ne_nil _ h.nonempty] at hhead
  exact not_mem_host h hc (List.mem_of_mem_head? hhead)

/-- `new URL` of such an authority. -/
theorem parseURL_eq (hostParser : Text → Option Text) {scheme netloc host port tail : Text} (hscheme : IsScheme scheme)
    (h : IsAuthority netloc host port) (htail : tail = [] ∨ tail = ['/']) :
    parseURL hostParser (scheme ++ ("://".toList ++ (netloc ++ tail))) =
      match hostParser host, portOf port.tail with
      | some hostname, some _ => some ⟨scheme, false, hostname, ['/']⟩
      | _, _ => none := by
  obtain ⟨hbefore, _, hafter⟩ := cut_scheme hscheme (netloc ++ tail)
  have hslash : ∀ c ∈ netloc, isSlash c = false := by
    intro c hc
    rw [Bool.eq_false_iff]
    intro hslash
    rcases Bool.or_eq_true_iff.1 hslash with heq | heq
    · exact not_mem_netloc h (c := '/') (by decide) (by decide) (eq_of_beq heq ▸ hc)
    · exact not_mem_netloc h (c := '\\') (by decide) (by decide) (eq_of_beq heq ▸ hc)
  have hnetloc : netloc ≠ [] := by
    rw [h.eq]
    exact List.append_ne_nil_of_left_ne_nil h.nonempty port
  have hrest : ('/' :: '/' :: (netloc ++ tail)).dropWhile isSlash = netloc ++ tail := by
    obtain ⟨c, rest, hc⟩ := List.exists_cons_of_ne_nil hnetloc
    rw [hc, List.dropWhile_cons_of_pos (by decide), List.dropWhile_cons_of_pos (by decide), List.cons_append,
      List.dropWhile_cons_of_neg (by rw [hslash c (by rw [hc]; exact List.mem_cons_self)]; decide)]
  have hcut := Utf8.takeWhile_append_stop (p := fun c => !isSlash c) (a := netloc) (b := tail)
    (fun c hc => by rw [hslash c hc]; rfl) (fun c hc => by rcases htail with rfl | rfl <;> cases hc; rfl)
  have hat : '@' ∉ netloc := not_mem_netloc h (by decide) (by decide)
  have hbracket : (netloc.head? == some '[') = false := beq_eq_false_iff_ne.2 (head_netloc h (by decide))
  have hpath : pathOf tail = ['/'] := by
    rcases htail with rfl | rfl
    · decide
    · decide
  unfold parseURL
  rw [hbefore, hafter, hrest]
  dsimp only
  rw [hcut.1, hcut.2, afterLast_all hat, hbracket, h.cut.1, h.cut.2, hpath, Nat.sub_self, Nat.zero_sub, List.take_zero]
  have hne : host.isEmpty = false := by simpa using h.nonempty
  simp only [Bool.false_eq_true, if_false, hne]
  rfl

/-- **What TypeScript accepts** of such an authority. -/
theorem accepts_iff (hostParser : Text → Option Text) (rule : Rule) {scheme netloc host port tail : Text}
    (hscheme : IsScheme scheme) (h : IsAuthority netloc host port) (htail : tail = [] ∨ tail = ['/'])
    (hplain : (scheme ++ ("://".toList ++ (netloc ++ tail))).all isPlain = true) :
    validateResponseURL hostParser rule (scheme ++ ("://".toList ++ (netloc ++ tail))) ≠ none ↔
      portOf port.tail ≠ none ∧ ∃ hostname, hostParser host = some hostname ∧
        (scheme = "https".toList ∨ rule.allowLoopback = true ∧ isLoopback host = true) ∧ (rule.forbidPort = true → port = []) ∧
        ((rule.allowAnyHTTPS = true ∧ scheme = "https".toList) ∨ (rule.allowLoopback = true ∧ isLoopback host = true) ∨
          rule.allows (lower hostname) = true) := by
  obtain ⟨_, hrest, _⟩ := cut_scheme hscheme (netloc ++ tail)
  have hslash : '/' ∉ netloc := not_mem_netloc h (by decide) (by decide)
  have hauthority : before '/' (netloc ++ tail) = netloc := by
    rcases htail with rfl | rfl
    · rw [List.append_nil]
      exact (before_all hslash).1
    · exact (before_of_not_mem hslash []).1
  have hbracket : (netloc.head? == some '[') = false := beq_eq_false_iff_ne.2 (head_netloc h (by decide))
  have hexplicit : netloc.contains ':' = true ↔ port ≠ [] := by
    rw [List.contains_iff_mem, h.eq, List.mem_append, or_iff_right (not_mem_host h (by decide))]
    rcases h.port with hport | ⟨digits, hport, _⟩ <;> simp [hport]
  have hstart : (!startsWithHTTP (scheme ++ ("://".toList ++ (netloc ++ tail)))) = false := by
    rw [startsWithHTTP_scheme hscheme]
    rfl
  have hempty : (scheme ++ ("://".toList ++ (netloc ++ tail))).isEmpty = false := by
    rcases hscheme with rfl | rfl <;> rfl
  unfold validateResponseURL
  rw [hstart, hempty, hplain, parseURL_eq hostParser hscheme h htail]
  simp only [Bool.not_true, Bool.or_false, Bool.false_eq_true, if_false]
  cases hhost : hostParser host with
  | none => simp
  | some hostname =>
    cases hport : portOf port.tail with
    | none => simp
    | some number =>
      dsimp only
      rw [hrest, hauthority, hbracket]
      simp only [Bool.false_eq_true, if_false, h.cut.1, Bool.false_or]
      have hhttp : (scheme == "http".toList) = !(scheme == "https".toList) := by
        rcases hscheme with rfl | rfl <;> decide
      have hhttps : (scheme == "https".toList) = true ↔ scheme = "https".toList := beq_iff_eq
      rw [hhttp]
      generalize (scheme == "https".toList) = isHTTPS at hhttps ⊢
      rw [← hhttps]
      grind

end TypeScript

/-! ## Loopback hosts -/

theorem lower_lower (text : Text) : lower (lower text) = lower text := by
  have hchar : ∀ c : Char, c.toLower.toLower = c.toLower := by
    intro c
    rcases AddressPolicy.TypeScript.toLower_eq (c := c) rfl with heq | ⟨hletter, _⟩
    · exact congrArg Char.toLower heq.symm
    · refine dif_neg (fun hupper => ?_)
      exact absurd (Char.le_trans hletter (show c.toLower ≤ 'Z' from hupper.2)) (by decide)
  unfold lower
  rw [List.map_map]
  exact List.map_congr_left (fun c _ => hchar c)

/-- The parts that `urlsplit` makes of such an authority. -/
theorem hostinfo_eq {scheme netloc host port tail : Text} (h : IsAuthority netloc host port) :
    (Python.SplitResult.mk scheme netloc tail).hostinfo = (host, port.tail) := by
  have hat : '@' ∉ netloc := not_mem_netloc h (by decide) (by decide)
  have hbracket : '[' ∉ netloc := not_mem_netloc h (by decide) (by decide)
  unfold Python.SplitResult.hostinfo
  dsimp only
  rw [afterLast_all hat, if_neg (by simpa using hbracket), h.cut.1, h.cut.2]

theorem hostname_eq {scheme netloc host port tail : Text} (h : IsAuthority netloc host port) :
    (Python.SplitResult.mk scheme netloc tail).hostname = lower host := by
  have hpercent : '%' ∉ host := not_mem_host h (by decide)
  have hcut := Utf8.takeWhile_append_stop (p := fun (d : Char) => d != '%') (a := host) (b := [])
    (fun d hd => by
      rw [bne_iff_ne]
      exact fun heq => hpercent (heq ▸ hd)) (fun d hd => by cases hd)
  rw [List.append_nil] at hcut
  unfold Python.SplitResult.hostname before
  rw [hostinfo_eq h]
  dsimp only
  rw [hcut.1, hcut.2, List.append_nil]

theorem loopback_ruleMatches (bits : BitVec 32) (h : (IP.v4 bits).isLoopback = true) :
    TypeScript.loopback.any (AddressPolicy.TypeScript.ruleMatches · (.v4 bits)) = true := by
  have hfirst : AddressPolicy.TypeScript.ruleMatches (.v4 (ipv4 127 0 0 0) 8) (.v4 bits) = true := h
  unfold TypeScript.loopback
  rw [List.any_cons, hfirst, Bool.true_or]

/-- **A loopback host of Python is one of TypeScript.** -/
theorem isLoopback_of_python {netloc host port : Text} (h : IsAuthority netloc host port)
    (hloopback : Python.isLoopback (lower host) = true) : TypeScript.isLoopback host = true := by
  unfold Python.isLoopback at hloopback
  unfold TypeScript.isLoopback
  have hnot : ∀ {c : Char}, c.toLower = c → isDelimiter c = true → ¬ 'a' ≤ c → c ∉ lower host := by
    intro c _ hc hless hmem
    obtain ⟨d, hd, heq⟩ := List.mem_map.1 hmem
    rw [AddressPolicy.TypeScript.toLower_digit hless heq] at hd
    exact not_mem_host h hc hd
  split at hloopback
  · rename_i address haddress
    rcases parse_cases haddress with ⟨hip, _, _⟩ | ⟨body, _, _, _, htext, _⟩
    · unfold parseIP at hip
      split at hip
      · rename_i bits hbits
        have hself : lower host = host := by
          refine (List.map_congr_left (g := id) (fun c hc => ?_)).trans (List.map_id host)
          have hlower : c.toLower ∈ lower host := List.mem_map_of_mem hc
          have hless : ¬ 'a' ≤ c.toLower := by
            rcases isDigit_of_parseV4 hbits _ hlower with hdot | hdigit
            · rw [hdot]
              decide
            · have hrange : '0' ≤ c.toLower ∧ c.toLower ≤ '9' := by simpa [Char.isDigit, Char.le_def] using hdigit
              exact fun hle => absurd (Char.le_trans hle hrange.2) (by decide)
          exact (AddressPolicy.TypeScript.toLower_digit hless rfl).symm
        rw [hself] at hbits
        have hchars := isAddressChar_of_parseV4 hbits
        have hunbracket : AddressPolicy.TypeScript.unbracketHostname host = host :=
          AddressPolicy.TypeScript.unbracketHostname_eq
            (fun hopen => (AddressPolicy.TypeScript.not_bracket hchars).1 (List.mem_of_mem_head? hopen))
            (fun hclose => (AddressPolicy.TypeScript.not_bracket hchars).2 (List.mem_of_getLast? hclose))
        have hipOf : AddressPolicy.TypeScript.ipOf host = some (.v4 bits) := by
          unfold AddressPolicy.TypeScript.ipOf
          rcases cutZone_cases host with hcut | ⟨body, zone, htext, _⟩
          · rw [hcut]
            dsimp only
            unfold parseIP
            rw [hbits]
          · exact absurd (by rw [htext]; simp) (not_mem_host h (c := '%') (by decide))
        have hcontains : TypeScript.isLoopbackIPAddressLiteral host = true := by
          unfold TypeScript.isLoopbackIPAddressLiteral
          rw [@AddressPolicy.TypeScript.contains_eq _ _ (.v4 bits) (by rw [hunbracket, hipOf])]
          refine loopback_ruleMatches bits ?_
          rw [← Option.some.inj hip] at hloopback
          exact hloopback
        rw [hcontains, Bool.or_true]
      · obtain ⟨bits, hbits, _⟩ := Option.map_eq_some_iff.1 hip
        exact absurd (colon_of_parseV6 hbits) (hnot (by decide) (by decide) (by decide))
    · exact absurd (by rw [htext]; simp) (hnot (c := '%') (by decide) (by decide) (by decide))
  · rw [lower_lower] at hloopback
    rw [hloopback, Bool.true_or]

/-! ## Origins -/

/-- Whether Python accepts a value because of its host. -/
def AcceptedByHost (rule : Rule) (value : Text) : Prop :=
  Python.validateResponseURL rule value ≠ none ∧
    ∃ parsed, Python.urlsplit value = some parsed ∧ rule.allows parsed.netloc = true

/-- **What an accepted origin should be**: a scheme, an allowed host of unreserved characters, perhaps a port and a `/`; what is
returned names the same origin; and TypeScript accepts it. -/
structure IsAllowedOrigin (hostParser : Text → Option Text) (rule : Rule) (value : Text) : Prop where
  names : ∃ scheme netloc host port tail, IsScheme scheme ∧ IsAuthority netloc host port ∧ (tail = [] ∨ tail = ['/']) ∧
    value = scheme ++ ("://".toList ++ (netloc ++ tail)) ∧ rule.allows host = true ∧
    Python.validateResponseURL rule value = some (scheme ++ ("://".toList ++ netloc))
  typeScript : TypeScript.validateResponseURL hostParser rule value ≠ none

/-- **The authority is a host and a port whose host is allowed**: as it is written, and as the URL standard has it. -/
def HostAllowed (hostParser : Text → Option Text) (rule : Rule) (value : Text) : Prop :=
  ∃ parsed host port, Python.urlsplit value = some parsed ∧ IsAuthority parsed.netloc host port ∧ rule.allows host = true ∧
    (rule.forbidPort = true → port = []) ∧
    ∃ hostname, hostParser host = some hostname ∧
      ((rule.allowAnyHTTPS = true ∧ parsed.scheme = "https".toList) ∨
        (rule.allowLoopback = true ∧ TypeScript.isLoopback host = true) ∨ rule.allows (lower hostname) = true)

theorem urlsplit_eq {scheme netloc host port tail : Text} (hscheme : IsScheme scheme) (h : IsAuthority netloc host port)
    (htail : tail = [] ∨ tail = ['/']) {parsed : Python.SplitResult}
    (hparsed : Python.urlsplit (scheme ++ ("://".toList ++ (netloc ++ tail))) = some parsed) : parsed = ⟨scheme, netloc, tail⟩ := by
  obtain ⟨hbefore, hrest, _⟩ := cut_scheme hscheme (netloc ++ tail)
  have hslash : '/' ∉ netloc := not_mem_netloc h (by decide) (by decide)
  have hcut := Utf8.takeWhile_append_stop (p := fun (d : Char) => d != '/') (a := netloc) (b := tail)
    (fun d hd => by
      rw [bne_iff_ne]
      exact fun heq => hslash (heq ▸ hd)) (fun d hd => by rcases htail with rfl | rfl <;> cases hd; rfl)
  unfold Python.urlsplit before at hparsed
  unfold before at hbefore
  rw [hbefore, hrest] at hparsed
  dsimp only at hparsed
  split at hparsed
  · rw [hcut.1, hcut.2] at hparsed
    exact (Option.some.inj hparsed).symm
  · cases hparsed

theorem stripSlashes_origin {scheme netloc host port tail : Text} (h : IsAuthority netloc host port)
    (htail : tail = [] ∨ tail = ['/']) :
    stripSlashes (scheme ++ ("://".toList ++ (netloc ++ tail))) = scheme ++ ("://".toList ++ netloc) := by
  have hne : netloc ≠ [] := by
    rw [h.eq]
    exact List.append_ne_nil_of_left_ne_nil h.nonempty port
  rw [← List.append_assoc "://".toList, ← List.append_assoc scheme]
  refine stripSlashes_eq (fun hlast => ?_) htail
  rw [List.getLast?_append, List.getLast?_append, List.getLast?_eq_some_getLast hne] at hlast
  have hmem : '/' ∈ netloc := by
    rw [← Option.some.inj (show some _ = some '/' from hlast)]
    exact List.getLast_mem hne
  exact not_mem_netloc h (by decide) (by decide) hmem

/-- **An origin that Python accepts by its host is what it should be just when its host is allowed**, without its port and as
the URL standard has it. -/
theorem origins_agree_iff (hostParser : Text → Option Text) (rule : Rule) (value : Text) (haccepted : AcceptedByHost rule value) :
    IsAllowedOrigin hostParser rule value ↔ HostAllowed hostParser rule value := by
  obtain ⟨hpython, _⟩ := haccepted
  obtain ⟨returned, hreturned⟩ := Option.ne_none_iff_exists'.1 hpython
  obtain ⟨scheme, netloc, tail, parsed, hscheme, hvalue, hslash, htail, hsplit, hparsed, hplain, hresult, number, hnumber,
    _, _, hloopback, hforbid⟩ := Python.accepts hreturned
  constructor
  · rintro ⟨⟨scheme', netloc', host, port, tail', hscheme', hauthority, htail', hvalue', hallows, _⟩, htypeScript⟩
    rw [hvalue'] at hsplit htypeScript hplain
    have hparsed' := urlsplit_eq hscheme' hauthority htail' hsplit
    obtain ⟨_, hostname, hhost, _, hport, hadmits⟩ :=
      (TypeScript.accepts_iff hostParser rule hscheme' hauthority htail' hplain).1 htypeScript
    refine ⟨parsed, host, port, by rw [hvalue', hsplit], ?_, hallows, hport, hostname, hhost, ?_⟩
    · rw [hparsed']
      exact hauthority
    · rw [hparsed']
      exact hadmits
  · rintro ⟨parsed', host, port, hsplit', hauthority, hallows, hport, hostname, hhost, hadmits⟩
    rw [hsplit] at hsplit'
    cases hsplit'
    subst hparsed
    subst hvalue
    refine ⟨⟨scheme, netloc, host, port, tail, hscheme, hauthority, htail, rfl, hallows, ?_⟩, ?_⟩
    · rw [hreturned, hresult, stripSlashes_origin hauthority htail]
    · rw [TypeScript.accepts_iff hostParser rule hscheme hauthority htail hplain]
      rw [hostinfo_eq hauthority] at hnumber
      refine ⟨by rw [hnumber]; exact Option.some_ne_none _, hostname, hhost, ?_, hport, hadmits⟩
      rcases hloopback with hhttps | ⟨hrule, hloop⟩
      · exact .inl hhttps
      · rw [hostname_eq hauthority] at hloop
        exact .inr ⟨hrule, isLoopback_of_python hauthority hloop⟩

/-- A rule that allows the names below one host. -/
def suffixRule : Rule := ⟨false, false, false, [], "okta.com".toList⟩

/-- A host parser on names that are their own. -/
def plainHost (host : Text) : Option Text := if host.all isUnreserved then some (lower host) else none

theorem origins_agree_tenant :
    AcceptedByHost suffixRule "https://tenant.okta.com/".toList ∧
      (IsAllowedOrigin plainHost suffixRule "https://tenant.okta.com/".toList ↔
        HostAllowed plainHost suffixRule "https://tenant.okta.com/".toList) := by
  have haccepted : AcceptedByHost suffixRule "https://tenant.okta.com/".toList :=
    ⟨by decide, ⟨"https".toList, "tenant.okta.com".toList, ['/']⟩, by rfl, by decide⟩
  exact ⟨haccepted, origins_agree_iff plainHost suffixRule "https://tenant.okta.com/".toList haccepted⟩

/-- A backslash: Python sees a name below the allowed host, the URL standard the host before the backslash. -/
theorem backslash_accepted :
    AcceptedByHost suffixRule "https://evil.com\\.okta.com".toList ∧
      TypeScript.validateResponseURL plainHost suffixRule "https://evil.com\\.okta.com".toList = none ∧
      ∀ hostParser, ¬IsAllowedOrigin hostParser suffixRule "https://evil.com\\.okta.com".toList := by
  refine ⟨⟨by decide, ⟨"https".toList, "evil.com\\.okta.com".toList, []⟩, by rfl, by decide⟩, by decide, ?_⟩
  rintro hostParser ⟨⟨scheme, netloc, host, port, tail, hscheme, hauthority, htail, hvalue, _⟩, _⟩
  have hback : '\\' ∉ scheme ++ ("://".toList ++ (netloc ++ tail)) := by
    simp only [List.mem_append, not_or]
    refine ⟨?_, by decide, not_mem_netloc hauthority (by decide) (by decide), ?_⟩
    · rcases hscheme with rfl | rfl <;> decide
    · rcases htail with rfl | rfl <;> decide
  rw [← hvalue] at hback
  exact absurd hback (by decide)

end ResponseURL
end Dex
