import Mathlib.Algebra.Group.Int.Defs
import Mathlib.Algebra.GroupWithZero.Nat
import Mathlib.Data.List.Basic
/-!
# LibAddress — internet addresses, networks and address texts

An address is a word of 32 or 128 bits; `unmap` gives the IPv4 address of an IPv4-mapped one.  `parse` reads the textual
forms: four decimal octets, or hexadecimal groups with one `::` and with a dotted end, and a zone after `%`.

What the proofs use of a text is which characters it may have (`addressChar_of_parse`).
-/
namespace Lib
namespace Address

inductive IP where
  | v4 (bits : BitVec 32)
  | v6 (bits : BitVec 128)
  deriving DecidableEq

/-- An address with the zone of a scoped one, empty when it has none. -/
structure Zoned where
  ip   : IP
  zone : List Char
  deriving DecidableEq

/-- A network: the addresses of its family that begin with the bits of its own. -/
inductive Net where
  | v4 (bits : BitVec 32) (length : Nat)
  | v6 (bits : BitVec 128) (length : Nat)

def ipv4 (a b c d : BitVec 8) : BitVec 32 := a ++ b ++ c ++ d

def ipv6 (groups : List Nat) : BitVec 128 := groups.foldl (fun acc group => acc <<< 16 ||| BitVec.ofNat 128 group) 0

/-- Whether a word begins with the first bits of another. -/
def startsWith {w : Nat} (net : BitVec w) (length : Nat) (bits : BitVec w) : Bool :=
  bits >>> (w - length) == net >>> (w - length)

def Net.contains : Net → IP → Bool
  | .v4 net length, .v4 bits => startsWith net length bits
  | .v6 net length, .v6 bits => startsWith net length bits
  | _, _ => false

/-- The IPv6 form of an IPv4 address. -/
def mapped (bits : BitVec 32) : BitVec 128 := (0xFFFF : BitVec 96) ++ bits

def isMapped (bits : BitVec 128) : Bool := bits >>> 32 == 0xFFFF

def IP.unmap : IP → IP
  | .v4 bits => .v4 bits
  | .v6 bits => if isMapped bits then .v4 (bits.setWidth 32) else .v6 bits

/-! ## Kinds of address -/

def IP.isLoopback : IP → Bool
  | .v4 bits => startsWith (ipv4 127 0 0 0) 8 bits
  | .v6 bits => bits == ipv6 [0, 0, 0, 0, 0, 0, 0, 1]

def IP.isUnspecified : IP → Bool
  | .v4 bits => bits == 0
  | .v6 bits => bits == 0

def IP.isLinkLocal : IP → Bool
  | .v4 bits => startsWith (ipv4 169 254 0 0) 16 bits
  | .v6 bits => startsWith (ipv6 [0xFE80, 0, 0, 0, 0, 0, 0, 0]) 10 bits

def IP.isMulticast : IP → Bool
  | .v4 bits => startsWith (ipv4 224 0 0 0) 4 bits
  | .v6 bits => startsWith (ipv6 [0xFF00, 0, 0, 0, 0, 0, 0, 0]) 8 bits

def IP.isLinkLocalMulticast : IP → Bool
  | .v4 bits => startsWith (ipv4 224 0 0 0) 24 bits
  | .v6 bits => (bits >>> 112) &&& 0xFF0F == 0xFF02

/-! ## Texts -/

/-- An octet in decimal, without leading zeros. -/
def octet (text : List Char) : Option Nat :=
  if text ≠ [] ∧ text.length ≤ 3 ∧ text.all Char.isDigit ∧ (text.head? = some '0' → text.length = 1) then
    let value := text.foldl (fun acc c => acc * 10 + (c.toNat - '0'.toNat)) 0
    if value ≤ 255 then some value else none
  else none

def parseV4 (text : List Char) : Option (BitVec 32) :=
  match text.splitOn '.' with
  | [a, b, c, d] => do
    let a ← octet a
    let b ← octet b
    let c ← octet c
    let d ← octet d
    return ipv4 (BitVec.ofNat 8 a) (BitVec.ofNat 8 b) (BitVec.ofNat 8 c) (BitVec.ofNat 8 d)
  | _ => none

def hexDigit (c : Char) : Option Nat :=
  if '0' ≤ c ∧ c ≤ '9' then some (c.toNat - '0'.toNat)
  else if 'a' ≤ c ∧ c ≤ 'f' then some (c.toNat - 'a'.toNat + 10)
  else if 'A' ≤ c ∧ c ≤ 'F' then some (c.toNat - 'A'.toNat + 10)
  else none

/-- A group of one to four hexadecimal digits. -/
def group (text : List Char) : Option Nat :=
  if text ≠ [] ∧ text.length ≤ 4 then (text.mapM hexDigit).map (·.foldl (fun acc digit => acc * 16 + digit) 0) else none

def groups (text : List Char) : Option (List Nat) := if text = [] then some [] else (text.splitOn ':').mapM group

/-- The groups at the end of an address: the last may be an IPv4 address, which is two. -/
def lastGroups (text : List Char) : Option (List Nat) :=
  match groups text with
  | some values => some values
  | none => do
    let parts := text.splitOn ':'
    let init ← parts.dropLast.mapM group
    let last ← parseV4 (parts.getLast?.getD [])
    return init ++ [(last >>> 16).toNat, (last &&& 0xFFFF).toNat]

/-- What stands before and after the first `::`. -/
def cutColons : List Char → Option (List Char × List Char)
  | ':' :: ':' :: rest => some ([], rest)
  | c :: rest => (cutColons rest).map (fun p => (c :: p.1, p.2))
  | [] => none

def parseV6 (text : List Char) : Option (BitVec 128) :=
  match cutColons text with
  | none => do
    let all ← lastGroups text
    if all.length = 8 then return ipv6 all else none
  | some (hi, lo) => do
    let first ← groups hi
    let last ← lastGroups lo
    if first.length + last.length ≤ 7 then
      return ipv6 (first ++ List.replicate (8 - first.length - last.length) 0 ++ last)
    else none

/-- An address without a zone. -/
def parseIP (text : List Char) : Option IP :=
  match parseV4 text with
  | some bits => some (.v4 bits)
  | none => (parseV6 text).map IP.v6

/-- What stands before the first `%`, and what stands after it. -/
def cutZone (text : List Char) : List Char × Option (List Char) :=
  (text.takeWhile (· ≠ '%'), (text.dropWhile (· ≠ '%')).tail?)

/-- **An address in any of its texts.** -/
def parse (text : List Char) : Option Zoned :=
  match cutZone text with
  | (address, none) => (parseIP address).map (fun ip => ⟨ip, []⟩)
  | (address, some zone) => if zone = [] ∨ '%' ∈ zone then none else (parseV6 address).map (fun bits => ⟨.v6 bits, zone⟩)

/-! ## The characters of a text -/

/-- The characters that an address without a zone may have. -/
def isAddressChar (c : Char) : Bool := (hexDigit c).isSome || c == '.' || c == ':'

theorem isAddressChar_of_isDigit {c : Char} (h : c.isDigit = true) : isAddressChar c = true := by
  have hrange : '0' ≤ c ∧ c ≤ '9' := by simpa [Char.isDigit, Char.le_def] using h
  unfold isAddressChar hexDigit
  rw [if_pos hrange]
  rfl

theorem mem_of_splitOn {sep c : Char} {text : List Char} (h : c ∈ text) :
    c = sep ∨ ∃ part ∈ text.splitOn sep, c ∈ part := by
  have hmem : ∀ parts : List (List Char), c ∈ [sep].intercalate parts → c = sep ∨ ∃ part ∈ parts, c ∈ part := by
    intro parts
    induction parts with
    | nil => exact fun hc => by cases hc
    | cons part parts ih =>
      intro hc
      cases parts with
      | nil => exact .inr ⟨part, List.mem_cons_self, by simpa [List.intercalate] using hc⟩
      | cons part' parts =>
        have hcons : [sep].intercalate (part :: part' :: parts) = part ++ sep :: [sep].intercalate (part' :: parts) := by
          simp [List.intercalate]
        rw [hcons] at hc
        rcases List.mem_append.1 hc with hpart | hrest
        · exact .inr ⟨part, List.mem_cons_self, hpart⟩
        rcases List.mem_cons.1 hrest with hsep | hrest
        · exact .inl hsep
        rcases ih hrest with hsep | ⟨p, hp, hcp⟩
        · exact .inl hsep
        · exact .inr ⟨p, List.mem_cons_of_mem _ hp, hcp⟩
  exact hmem _ (by rw [List.intercalate_splitOn]; exact h)

theorem isSome_of_mapM {α β : Type} {f : α → Option β} : ∀ {l : List α} {r : List β}, l.mapM f = some r →
    ∀ x ∈ l, ∃ y, f x = some y
  | [], _, _, x, hx => absurd hx List.not_mem_nil
  | a :: l, r, h, x, hx => by
    rw [List.mapM_cons] at h
    obtain ⟨y, hy, h⟩ := Option.bind_eq_some_iff.1 h
    obtain ⟨ys, hys, _⟩ := Option.bind_eq_some_iff.1 h
    rcases List.mem_cons.1 hx with rfl | hx
    · exact ⟨y, hy⟩
    · exact isSome_of_mapM hys x hx

theorem isDigit_of_octet {text : List Char} {value : Nat} (h : octet text = some value) : ∀ c ∈ text, c.isDigit = true := by
  unfold octet at h
  split at h
  · rename_i hdigits
    exact fun c hc => List.all_eq_true.1 hdigits.2.2.1 c hc
  · cases h

/-- An IPv4 address is digits and dots. -/
theorem isDigit_of_parseV4 {text : List Char} {bits : BitVec 32} (h : parseV4 text = some bits) :
    ∀ c ∈ text, c = '.' ∨ c.isDigit = true := by
  intro c hc
  rcases @mem_of_splitOn '.' c text hc with hdot | ⟨part, hpart, hcpart⟩
  · exact .inl hdot
  right
  unfold parseV4 at h
  split at h
  · rename_i a b c' d hparts
    obtain ⟨_, ha, h⟩ := Option.bind_eq_some_iff.1 h
    obtain ⟨_, hb, h⟩ := Option.bind_eq_some_iff.1 h
    obtain ⟨_, hc', h⟩ := Option.bind_eq_some_iff.1 h
    obtain ⟨_, hd, _⟩ := Option.bind_eq_some_iff.1 h
    rw [hparts] at hpart
    simp only [List.mem_cons, List.not_mem_nil, or_false] at hpart
    rcases hpart with rfl | rfl | rfl | rfl
    · exact isDigit_of_octet ha c hcpart
    · exact isDigit_of_octet hb c hcpart
    · exact isDigit_of_octet hc' c hcpart
    · exact isDigit_of_octet hd c hcpart
  · cases h

theorem isAddressChar_of_parseV4 {text : List Char} {bits : BitVec 32} (h : parseV4 text = some bits) :
    ∀ c ∈ text, isAddressChar c = true := by
  intro c hc
  rcases isDigit_of_parseV4 h c hc with rfl | hdigit
  · rfl
  · exact isAddressChar_of_isDigit hdigit

theorem isAddressChar_of_group {text : List Char} {value : Nat} (h : group text = some value) :
    ∀ c ∈ text, isAddressChar c = true := by
  intro c hc
  unfold group at h
  split at h
  · obtain ⟨digits, hdigits, _⟩ := Option.map_eq_some_iff.1 h
    obtain ⟨digit, hdigit⟩ := isSome_of_mapM hdigits c hc
    unfold isAddressChar
    rw [hdigit]
    rfl
  · cases h

theorem isAddressChar_of_groups {text : List Char} {values : List Nat} (h : groups text = some values) :
    ∀ c ∈ text, isAddressChar c = true := by
  intro c hc
  unfold groups at h
  split at h
  · rename_i hnil
    rw [hnil] at hc
    cases hc
  · rcases @mem_of_splitOn ':' c text hc with rfl | ⟨part, hpart, hcpart⟩
    · rfl
    · obtain ⟨value, hvalue⟩ := isSome_of_mapM h part hpart
      exact isAddressChar_of_group hvalue c hcpart

theorem isAddressChar_of_lastGroups {text : List Char} {values : List Nat} (h : lastGroups text = some values) :
    ∀ c ∈ text, isAddressChar c = true := by
  intro c hc
  unfold lastGroups at h
  split at h
  · rename_i hgroups
    exact isAddressChar_of_groups hgroups c hc
  · rcases @mem_of_splitOn ':' c text hc with rfl | ⟨part, hpart, hcpart⟩
    · rfl
    obtain ⟨init, hinit, h⟩ := Option.bind_eq_some_iff.1 h
    obtain ⟨last, hlast, _⟩ := Option.bind_eq_some_iff.1 h
    have hne : text.splitOn ':' ≠ [] := List.ne_nil_of_mem hpart
    rw [← List.dropLast_append_getLast hne] at hpart
    rcases List.mem_append.1 hpart with hinitPart | hlastPart
    · obtain ⟨value, hvalue⟩ := isSome_of_mapM hinit part hinitPart
      exact isAddressChar_of_group hvalue c hcpart
    · rw [List.getLast?_eq_some_getLast hne] at hlast
      rw [List.mem_singleton.1 hlastPart] at hcpart
      exact isAddressChar_of_parseV4 hlast c hcpart

theorem cutColons_some : ∀ {text hi lo : List Char}, cutColons text = some (hi, lo) → text = hi ++ ':' :: ':' :: lo
  | [], _, _, h => by cases h
  | c :: text, hi, lo, h => by
    unfold cutColons at h
    split at h
    · cases h
      rename_i heq
      rw [heq]
      rfl
    · rename_i c' rest _ heq
      cases heq
      obtain ⟨⟨hi', lo'⟩, hrest, hp⟩ := Option.map_eq_some_iff.1 h
      cases hp
      rw [cutColons_some hrest]
      rfl
    · rename_i heq
      cases heq

theorem isAddressChar_of_parseV6 {text : List Char} {bits : BitVec 128} (h : parseV6 text = some bits) :
    ∀ c ∈ text, isAddressChar c = true := by
  intro c hc
  unfold parseV6 at h
  split at h
  · obtain ⟨all, hall, _⟩ := Option.bind_eq_some_iff.1 h
    exact isAddressChar_of_lastGroups hall c hc
  · rename_i hi lo hcut
    obtain ⟨first, hfirst, h⟩ := Option.bind_eq_some_iff.1 h
    obtain ⟨last, hlast, _⟩ := Option.bind_eq_some_iff.1 h
    rw [cutColons_some hcut] at hc
    simp only [List.mem_append, List.mem_cons] at hc
    rcases hc with hhi | rfl | rfl | hlo
    · exact isAddressChar_of_groups hfirst c hhi
    · rfl
    · rfl
    · exact isAddressChar_of_lastGroups hlast c hlo

/-- An IPv6 address has a colon. -/
theorem colon_of_parseV6 {text : List Char} {bits : BitVec 128} (h : parseV6 text = some bits) : ':' ∈ text := by
  unfold parseV6 at h
  split at h
  · by_contra hcolon
    have hsplit : text.splitOn ':' = [text] := List.splitOn_eq_singleton hcolon
    have hgroups : ∀ values, groups text = some values → values.length ≤ 1 := by
      intro values hvalues
      unfold groups at hvalues
      split at hvalues
      · cases hvalues
        exact Nat.zero_le 1
      · rw [hsplit] at hvalues
        obtain ⟨value, _, hvalues⟩ := Option.bind_eq_some_iff.1 (by rwa [List.mapM_cons] at hvalues)
        cases hvalues
        exact Nat.le_refl 1
    obtain ⟨all, hall, h⟩ := Option.bind_eq_some_iff.1 h
    have hlength : all.length ≤ 2 := by
      unfold lastGroups at hall
      split at hall
      · rename_i values hvalues
        cases hall
        exact Nat.le_succ_of_le (hgroups _ hvalues)
      · rw [hsplit] at hall
        obtain ⟨init, hinit, hall⟩ := Option.bind_eq_some_iff.1 hall
        obtain ⟨last, _, hall⟩ := Option.bind_eq_some_iff.1 hall
        cases hinit
        cases hall
        exact Nat.le_refl 2
    rw [if_neg (by omega)] at h
    cases h
  · rename_i hi lo hcut
    rw [cutColons_some hcut]
    exact List.mem_append_right hi List.mem_cons_self

theorem isAddressChar_of_parseIP {text : List Char} {ip : IP} (h : parseIP text = some ip) :
    ∀ c ∈ text, isAddressChar c = true := by
  unfold parseIP at h
  split at h
  · rename_i bits hbits
    exact isAddressChar_of_parseV4 hbits
  · obtain ⟨bits, hbits, _⟩ := Option.map_eq_some_iff.1 h
    exact isAddressChar_of_parseV6 hbits

theorem cutZone_append {address : List Char} (h : ∀ c ∈ address, isAddressChar c = true) (zone : List Char) :
    cutZone (address ++ '%' :: zone) = (address, some zone) := by
  have hall : ∀ c ∈ address, decide (c ≠ '%') = true := by
    intro c hc
    refine decide_eq_true (fun heq => ?_)
    have := h c hc
    rw [heq] at this
    exact absurd this (by decide)
  unfold cutZone
  rw [List.takeWhile_append_of_pos hall, List.dropWhile_append_of_pos hall]
  simp

theorem cutZone_cases (text : List Char) :
    cutZone text = (text, none) ∨ ∃ body zone, text = body ++ '%' :: zone ∧ cutZone text = (body, some zone) := by
  have htext : text = text.takeWhile (· ≠ '%') ++ text.dropWhile (· ≠ '%') := List.takeWhile_append_dropWhile.symm
  unfold cutZone
  cases hdrop : text.dropWhile (· ≠ '%') with
  | nil =>
    rw [hdrop, List.append_nil] at htext
    rw [← htext]
    exact .inl rfl
  | cons c zone =>
    have hpercent : c = '%' := by
      have hhead := List.head?_dropWhile_not (fun (c : Char) => decide (c ≠ '%')) text
      rw [hdrop] at hhead
      simpa using hhead
    rw [hdrop, hpercent] at htext
    exact .inr ⟨_, zone, htext, rfl⟩

/-- **What a text is made of**: the characters of an address, and then a zone. -/
theorem parse_cases {text : List Char} {address : Zoned} (h : parse text = some address) :
    (parseIP text = some address.ip ∧ address.zone = [] ∧ cutZone text = (text, none)) ∨
      ∃ body bits, parseV6 body = some bits ∧ address.ip = .v6 bits ∧ text = body ++ '%' :: address.zone ∧ address.zone ≠ [] := by
  unfold parse at h
  rcases cutZone_cases text with hcut | ⟨body, zone, htext, hcut⟩
  · rw [hcut] at h
    obtain ⟨ip, hip, rfl⟩ := Option.map_eq_some_iff.1 h
    exact .inl ⟨hip, rfl, hcut⟩
  · rw [hcut] at h
    dsimp only at h
    split at h
    · cases h
    · rename_i hzone
      obtain ⟨bits, hbits, rfl⟩ := Option.map_eq_some_iff.1 h
      exact .inr ⟨body, bits, hbits, rfl, htext, fun hnil => hzone (.inl hnil)⟩

/-! ## Mapped addresses -/

theorem isMapped_mapped (bits : BitVec 32) : isMapped (mapped bits) = true := by
  unfold isMapped mapped
  rw [beq_iff_eq]
  apply BitVec.eq_of_toNat_eq
  rw [BitVec.toNat_ushiftRight, BitVec.toNat_append, Nat.shiftRight_or_distrib, Nat.shiftLeft_shiftRight,
    Nat.shiftRight_eq_div_pow, Nat.div_eq_of_lt bits.isLt]
  rfl

theorem toNat_of_isMapped {bits : BitVec 128} (h : isMapped bits = true) : 2 ^ 32 ≤ bits.toNat ∧ bits.toNat < 2 ^ 48 := by
  have hshift := congrArg BitVec.toNat (eq_of_beq h)
  rw [BitVec.toNat_ushiftRight, Nat.shiftRight_eq_div_pow] at hshift
  change bits.toNat / 2 ^ 32 = 65535 at hshift
  omega

/-- No mapped address is in a network of ten bits or less, but for that of all addresses below it. -/
theorem startsWith_of_isMapped {bits net : BitVec 128} (h : isMapped bits = true) {length : Nat} (hlength : length ≤ 10)
    (hnet : net >>> (128 - length) ≠ 0) : startsWith net length bits = false := by
  have hzero : bits >>> (128 - length) = 0 := by
    apply BitVec.eq_of_toNat_eq
    rw [BitVec.toNat_ushiftRight, Nat.shiftRight_eq_div_pow]
    refine Nat.div_eq_of_lt (Nat.lt_of_lt_of_le (toNat_of_isMapped h).2 (Nat.pow_le_pow_right (by decide) (by omega)))
  unfold startsWith
  rw [hzero]
  exact beq_eq_false_iff_ne.2 hnet.symm

theorem startsWith_whole {w : Nat} (net bits : BitVec w) : startsWith net w bits = (bits == net) := by
  unfold startsWith
  rw [Nat.sub_self, BitVec.ushiftRight_zero, BitVec.ushiftRight_zero]

end Address
end Lib
