import DexConnectors.AddressPolicyModel
/-!
# AddressPolicyAgree — where the three policies agree

`Refuses` is the policy as a set of addresses.  Go decides it on every address (`go_refuses_iff`).  Python also refuses the
broadcast address, and does not see the metadata address behind a scope; TypeScript compares texts, and does not see an
unspecified or a metadata address in another spelling.  These are the only differences (`policies_agree_iff`).
-/
namespace Dex
namespace AddressPolicy

open Lib.Address

/-! ## The policy -/

/-- The addresses that no policy allows. -/
def Forbidden (ip : IP) : Prop :=
  ip.isUnspecified = true ∨ ip.isMulticast = true ∨ ip.isLinkLocal = true ∨ ip = metadataIPv6

def isPrivateNetwork (ip : IP) : Bool := ip.isLoopback || privateNets.any (·.contains ip)

/-- **What a policy refuses.** -/
def Refuses (policy : Policy) (scheme : Scheme) (ip : IP) : Prop :=
  Forbidden ip ∨
    (policy = .publicHTTPS ∧ (scheme = .http ∨ isPrivateNetwork ip = true ∨ sharedNet.contains ip = true)) ∨
    (policy = .privateNetworkHTTP ∧ scheme = .http ∧ isPrivateNetwork ip = false)

theorem isMulticast_of_linkLocal {ip : IP} (h : ip.isLinkLocalMulticast = true) : ip.isMulticast = true := by
  cases ip with
  | v4 bits =>
    have hbits : bits >>> 8 = ipv4 224 0 0 0 >>> 8 := by simpa [IP.isLinkLocalMulticast, startsWith] using h
    have hshift := congrArg (fun (word : BitVec 32) => word >>> 20) hbits
    simpa [IP.isMulticast, startsWith, ← BitVec.shiftRight_add] using hshift
  | v6 bits =>
    have hbits : (bits >>> 112) &&& 0xFF0F = 0xFF02 := by simpa [IP.isLinkLocalMulticast] using h
    have hshift := congrArg (fun (word : BitVec 128) => word >>> 8) hbits
    rw [BitVec.ushiftRight_and_distrib, ← BitVec.shiftRight_add] at hshift
    have htop : bits >>> 120 &&& 0xFF = bits >>> 120 := by
      apply BitVec.eq_of_toNat_eq
      rw [BitVec.toNat_and]
      show (bits >>> 120).toNat &&& (2 ^ 8 - 1) = _
      rw [Nat.and_two_pow_sub_one_eq_mod, BitVec.toNat_ushiftRight, Nat.shiftRight_eq_div_pow]
      have := bits.isLt
      omega
    have hlast : bits >>> 120 = 0xFF := htop.symm.trans hshift
    show (bits >>> 120 == _) = true
    rw [hlast]
    rfl

theorem reasons_ne : linkLocalReason ≠ "" ∧ unicastReason ≠ "" ∧ plainReason ≠ "" ∧ publicReason ≠ "" ∧ privateReason ≠ "" := by
  decide

/-! ## Go -/

/-- **Go refuses what the policy refuses.** -/
theorem Go.refuses_iff (policy : Policy) (scheme : Scheme) (ip : IP) :
    Go.refusalReason policy ⟨ip, []⟩ (scheme == .http) ≠ "" ↔ Refuses policy scheme ip := by
  have hmeta : ((⟨ip, []⟩ : Zoned) == ⟨metadataIPv6, []⟩) = decide (ip = metadataIPv6) := by
    by_cases h : ip = metadataIPv6 <;> simp [h]
  have hmulticast : ip.isLinkLocalMulticast = true → ip.isMulticast = true := isMulticast_of_linkLocal
  obtain ⟨hlink, hunicast, hplain, hpublic, hprivate⟩ := reasons_ne
  unfold Go.refusalReason Refuses Forbidden
  rw [hmeta]
  change _ ↔ _ ∨ (policy = .publicHTTPS ∧ (scheme = .http ∨ (ip.isLoopback || Go.isPrivate ip) = true ∨ _)) ∨ _ ∧ _ ∧
    (ip.isLoopback || Go.isPrivate ip) = false
  generalize (ip.isLoopback || Go.isPrivate ip) = isPrivate
  cases policy <;> cases scheme <;> grind

/-! ## Python -/

theorem parse_zone {a : Answer} {bits : BitVec 32} (h : a.address.ip = .v4 bits) : a.address.zone = [] := by
  rcases parse_cases a.spells with ⟨_, hzone, _⟩ | ⟨body, bits', _, hip, _, _⟩
  · exact hzone
  · rw [h] at hip
    cases hip

/-- The address of an answer, without its mapping. -/
def Answer.ip (a : Answer) : IP := a.address.ip.unmap

theorem unmapped_ip (a : Answer) : (Python.unmapped a.address).ip = a.ip := by
  unfold Answer.ip
  obtain ⟨ip, zone⟩ := a.address
  cases ip with
  | v4 bits => rfl
  | v6 bits =>
    unfold Python.unmapped IP.unmap
    dsimp only
    split <;> rfl

theorem unmapped_v4 (a : Answer) {bits : BitVec 32} (h : a.ip = .v4 bits) : Python.unmapped a.address = ⟨.v4 bits, []⟩ := by
  unfold Answer.ip at h
  rcases haddress : a.address with ⟨ip, zone⟩
  rw [haddress] at h
  cases ip with
  | v4 bits' =>
    have hzone := @parse_zone a bits' (by rw [haddress])
    rw [haddress] at hzone
    cases h
    cases hzone
    rfl
  | v6 bits' =>
    unfold IP.unmap at h
    unfold Python.unmapped
    dsimp only at h ⊢
    split at h
    · rename_i hmapped
      cases h
      rw [if_pos hmapped]
    · cases h

theorem unmapped_v6 (a : Answer) {bits : BitVec 128} (h : a.ip = .v6 bits) :
    Python.unmapped a.address = ⟨.v6 bits, a.address.zone⟩ := by
  unfold Answer.ip at h
  rcases haddress : a.address with ⟨ip, zone⟩
  rw [haddress] at h
  cases ip with
  | v4 bits' => cases h
  | v6 bits' =>
    unfold IP.unmap at h
    unfold Python.unmapped
    dsimp only at h ⊢
    split at h
    · cases h
    · rename_i hmapped
      cases h
      rw [if_neg hmapped]

theorem unmapped_metadata (a : Answer) :
    (Python.unmapped a.address == ⟨metadataIPv6, []⟩) = true ↔ a.ip = metadataIPv6 ∧ a.address.zone = [] := by
  rw [beq_iff_eq]
  constructor
  · intro h
    have hip : a.ip = metadataIPv6 := by rw [← unmapped_ip, h]
    rw [unmapped_v6 a hip] at h
    exact ⟨hip, congrArg Zoned.zone h⟩
  · rintro ⟨hip, hzone⟩
    rw [unmapped_v6 a hip, hzone]
    rfl

theorem unmapped_broadcast (a : Answer) :
    (Python.unmapped a.address == ⟨broadcastIPv4, []⟩) = true ↔ a.ip = broadcastIPv4 := by
  rw [beq_iff_eq]
  constructor
  · intro h
    rw [← unmapped_ip, h]
  · exact fun h => unmapped_v4 a h

/-- **Python also refuses the broadcast address, and takes the metadata address with a scope for any private one.** -/
theorem Python.refuses_iff (policy : Policy) (scheme : Scheme) (a : Answer) :
    Python.refusalReason a.text scheme policy ≠ "" ↔
      a.ip = broadcastIPv4 ∨
        (Refuses policy scheme a.ip ∧ ¬(policy = .privateNetworkHTTP ∧ a.ip = metadataIPv6 ∧ a.address.zone ≠ [])) := by
  obtain ⟨hlink, hunicast, hplain, hpublic, hprivate⟩ := reasons_ne
  have hmetadata : metadataIPv6.isLinkLocal = false ∧ metadataIPv6.isUnspecified = false ∧
      metadataIPv6.isMulticast = false ∧ isPrivateNetwork metadataIPv6 = true := by decide
  have hequal := unmapped_metadata a
  have hbroadcast := unmapped_broadcast a
  unfold Python.refusalReason Python.checkedIp
  rw [a.spells, Option.map_some]
  dsimp only
  rw [unmapped_ip]
  unfold Refuses Forbidden
  change (if _ then _ else if _ then _ else if _ then _ else if (_ && (isPrivateNetwork a.ip || _)) = true then _
    else if (_ && _ && !isPrivateNetwork a.ip) = true then _ else _) ≠ _ ↔ _
  by_cases hip : a.ip = metadataIPv6
  · rw [hip] at hequal hbroadcast ⊢
    cases policy <;> cases scheme <;> grind
  · cases policy <;> cases scheme <;> grind

/-! ## TypeScript -/

namespace TypeScript

theorem not_bracket {text : List Char} (h : ∀ c ∈ text, isAddressChar c = true) : '[' ∉ text ∧ ']' ∉ text :=
  ⟨fun hc => absurd (h _ hc) (by decide), fun hc => absurd (h _ hc) (by decide)⟩

/-- A text without brackets at its ends. -/
theorem unbracketHostname_eq {text : List Char} (hopen : text.head? ≠ some '[') (hclose : text.getLast? ≠ some ']') :
    unbracketHostname text = text := by
  unfold unbracketHostname
  simp only [if_neg hopen, if_neg hclose]

theorem ipOf_append {body : List Char} (hbody : ∀ c ∈ body, isAddressChar c = true) (zone : List Char) :
    ipOf (body ++ '%' :: zone) = if zone ≠ [] ∧ zone.all isZoneChar then (parseV6 body).map IP.v6 else none := by
  unfold ipOf
  rw [cutZone_append hbody]

/-- **What TypeScript sees of an answer**: its address, or none when its zone is not one. -/
theorem ipOf_answer (a : Answer) :
    (ipOf (unbracketHostname a.text) = some a.address.ip ∧
        (a.address.zone ≠ [] → '%' ∈ unbracketHostname a.text)) ∨
      (a.address.zone ≠ [] ∧ ipOf (unbracketHostname a.text) = none) := by
  rcases parse_cases a.spells with ⟨hip, hzone, hcut⟩ | ⟨body, bits, hbits, hip, htext, hzone⟩
  · left
    obtain ⟨hopen, hclose⟩ := not_bracket (isAddressChar_of_parseIP hip)
    rw [unbracketHostname_eq (fun h => hopen (List.mem_of_mem_head? h)) (fun h => hclose (List.mem_of_getLast? h))]
    unfold ipOf
    rw [hcut]
    exact ⟨hip, fun h => absurd hzone h⟩
  · have hbody := isAddressChar_of_parseV6 hbits
    have hopen : a.text.head? ≠ some '[' := by
      rw [htext]
      cases body with
      | nil => exact fun h => absurd h (by simp)
      | cons c body => exact fun h => (not_bracket hbody).1 (by rw [List.mem_cons]; exact .inl (by simpa using h.symm))
    obtain ⟨zone', hzone'⟩ : ∃ zone', unbracketHostname a.text = body ++ '%' :: zone' := by
      unfold unbracketHostname
      simp only [if_neg hopen]
      split
      · refine ⟨a.address.zone.dropLast, ?_⟩
        rw [htext, List.dropLast_append_of_ne_nil (List.cons_ne_nil _ _), List.dropLast_cons_of_ne_nil hzone]
      · exact ⟨a.address.zone, htext⟩
    rw [hzone', ipOf_append hbody]
    split
    · exact .inl ⟨by rw [hbits, hip]; rfl, fun _ => by simp⟩
    · exact .inr ⟨hzone, rfl⟩

/-- A text that is an address has no brackets. -/
theorem unbracket_of_ipOf {text : List Char} {ip : IP} (h : ipOf text = some ip) : unbracketHostname text = text := by
  have hchars : ∀ c ∈ text, isAddressChar c = true ∨ c = '%' ∨ isZoneChar c = true := by
    intro c hc
    unfold ipOf at h
    rcases cutZone_cases text with hcut | ⟨body, zone, htext, hcut⟩
    · rw [hcut] at h
      exact .inl (isAddressChar_of_parseIP h c hc)
    · rw [hcut] at h
      dsimp only at h
      split at h
      · rename_i hzone
        obtain ⟨bits, hbits, _⟩ := Option.map_eq_some_iff.1 h
        rw [htext] at hc
        rcases List.mem_append.1 hc with hbody | hrest
        · exact .inl (isAddressChar_of_parseV6 hbits c hbody)
        rcases List.mem_cons.1 hrest with hpercent | hrest
        · exact .inr (.inl hpercent)
        · exact .inr (.inr (List.all_eq_true.1 hzone.2 c hrest))
      · cases h
  exact unbracketHostname_eq (fun hopen => absurd (hchars _ (List.mem_of_mem_head? hopen)) (by decide))
    (fun hclose => absurd (hchars _ (List.mem_of_getLast? hclose)) (by decide))

/-! ### Lists of networks -/

variable (ip : IP)

theorem privateAddresses_iff : privateAddresses.any (ruleMatches · ip) = isPrivateNetwork ip.unmap := by
  have hloopback : ∀ bits : BitVec 128, isMapped bits = true → startsWith (ipv6 [0, 0, 0, 0, 0, 0, 0, 1]) 128 bits = false := by
    intro bits hmapped
    rw [startsWith_whole, beq_eq_false_iff_ne]
    intro hone
    have hlarge := (toNat_of_isMapped hmapped).1
    rw [hone] at hlarge
    exact absurd hlarge (by decide)
  have hunique : ∀ bits : BitVec 128, isMapped bits = true →
      startsWith (ipv6 [0xFC00, 0, 0, 0, 0, 0, 0, 0]) 7 bits = false :=
    fun bits hmapped => startsWith_of_isMapped hmapped (by decide) (by decide)
  cases ip with
  | v4 bits =>
    simp [privateAddresses, ruleMatches, isPrivateNetwork, IP.unmap, IP.isLoopback, privateNets, Net.contains,
      hloopback _ (isMapped_mapped bits), hunique _ (isMapped_mapped bits)]
  | v6 bits =>
    by_cases hmapped : isMapped bits = true
    · simp [privateAddresses, ruleMatches, isPrivateNetwork, IP.unmap, IP.isLoopback, privateNets, Net.contains,
        hloopback _ hmapped, hunique _ hmapped, hmapped]
    · simp [privateAddresses, ruleMatches, isPrivateNetwork, IP.unmap, IP.isLoopback, privateNets, Net.contains,
        hmapped, startsWith_whole]

theorem linkLocal_iff : linkLocal.any (ruleMatches · ip) = ip.unmap.isLinkLocal := by
  have hlow : ∀ bits : BitVec 128, isMapped bits = true →
      startsWith (ipv6 [0xFE80, 0, 0, 0, 0, 0, 0, 0]) 10 bits = false :=
    fun bits hmapped => startsWith_of_isMapped hmapped (by decide) (by decide)
  cases ip with
  | v4 bits => simp [linkLocal, ruleMatches, IP.unmap, IP.isLinkLocal, hlow _ (isMapped_mapped bits)]
  | v6 bits =>
    by_cases hmapped : isMapped bits = true
    · simp [linkLocal, ruleMatches, IP.unmap, IP.isLinkLocal, hlow _ hmapped, hmapped]
    · simp [linkLocal, ruleMatches, IP.unmap, IP.isLinkLocal, hmapped]

theorem multicast_iff : multicast.any (ruleMatches · ip) = ip.unmap.isMulticast := by
  have hlow : ∀ bits : BitVec 128, isMapped bits = true →
      startsWith (ipv6 [0xFF00, 0, 0, 0, 0, 0, 0, 0]) 8 bits = false :=
    fun bits hmapped => startsWith_of_isMapped hmapped (by decide) (by decide)
  cases ip with
  | v4 bits => simp [multicast, ruleMatches, IP.unmap, IP.isMulticast, hlow _ (isMapped_mapped bits)]
  | v6 bits =>
    by_cases hmapped : isMapped bits = true
    · simp [multicast, ruleMatches, IP.unmap, IP.isMulticast, hlow _ hmapped, hmapped]
    · simp [multicast, ruleMatches, IP.unmap, IP.isMulticast, hmapped]

theorem shared_iff : sharedAddressSpace.any (ruleMatches · ip) = sharedNet.contains ip.unmap := by
  cases ip with
  | v4 bits => simp [sharedAddressSpace, ruleMatches, IP.unmap, sharedNet, Net.contains]
  | v6 bits =>
    by_cases hmapped : isMapped bits = true
    · simp [sharedAddressSpace, ruleMatches, IP.unmap, sharedNet, Net.contains, hmapped]
    · simp [sharedAddressSpace, ruleMatches, IP.unmap, sharedNet, Net.contains, hmapped]

omit ip in
theorem contains_eq {list : List Net} {hostname : List Char} {ip : IP} (h : ipOf (unbracketHostname hostname) = some ip) :
    contains list hostname = list.any (ruleMatches · ip) := by
  unfold contains
  rw [h]

/-! ### Literals -/

theorem toLower_eq {c d : Char} (h : c.toLower = d) : c = d ∨ ('a' ≤ d ∧ c = Char.ofNat (d.toNat - 32)) := by
  unfold Char.toLower at h
  split at h
  · rename_i hupper
    right
    have hge : 65 ≤ c.toNat := hupper.1
    have hle : c.toNat ≤ 90 := hupper.2
    have hd : d.toNat = c.toNat + 32 := by
      rw [← h]
      show (c.val + 32).toNat = c.val.toNat + 32
      rw [UInt32.toNat_add]
      exact Nat.mod_eq_of_lt (by change c.toNat + 32 < 2 ^ 32; omega)
    refine ⟨?_, ?_⟩
    · show 97 ≤ d.toNat
      omega
    · rw [hd, Nat.add_sub_cancel, Char.ofNat_toNat]
  · exact .inl h

theorem toLower_digit {c d : Char} (hd : ¬ 'a' ≤ d) (h : c.toLower = d) : c = d :=
  (toLower_eq h).resolve_right (fun hletter => hd hletter.1)

theorem toLower_letter {c d : Char} (h : c.toLower = d) : c = d ∨ c = Char.ofNat (d.toNat - 32) :=
  (toLower_eq h).imp_right (·.2)

/-- The metadata address in the spelling that is compared, in upper and lower case. -/
theorem ipOf_metadata {address : List Char} (h : address.map Char.toLower = "fd00:ec2::254".toList) :
    ipOf address = some metadataIPv6 := by
  have hchars : "fd00:ec2::254".toList = ['f', 'd', '0', '0', ':', 'e', 'c', '2', ':', ':', '2', '5', '4'] := by decide
  rw [hchars] at h
  simp only [List.map_eq_cons_iff, List.map_eq_nil_iff] at h
  obtain ⟨f, _, rfl, hf, d, _, rfl, hd, z, _, rfl, hz, z', _, rfl, hz', s, _, rfl, hs, e, _, rfl, he, c, _, rfl, hc, t, _, rfl, ht,
    s', _, rfl, hs', s'', _, rfl, hs'', t', _, rfl, ht', v, _, rfl, hv, w, _, rfl, hw, rfl⟩ := h
  cases toLower_digit (by decide) hz
  cases toLower_digit (by decide) hz'
  cases toLower_digit (by decide) hs
  cases toLower_digit (by decide) ht
  cases toLower_digit (by decide) hs'
  cases toLower_digit (by decide) hs''
  cases toLower_digit (by decide) ht'
  cases toLower_digit (by decide) hv
  cases toLower_digit (by decide) hw
  rcases toLower_letter hf with rfl | rfl <;> rcases toLower_letter hd with rfl | rfl <;>
    rcases toLower_letter he with rfl | rfl <;> rcases toLower_letter hc with rfl | rfl <;> decide

end TypeScript

/-- TypeScript's texts of the unspecified addresses. -/
def Answer.spellsUnspecified (a : Answer) : Prop :=
  TypeScript.unbracketHostname a.text = "0.0.0.0".toList ∨ TypeScript.unbracketHostname a.text = "::".toList

/-- TypeScript's text of the metadata address. -/
def Answer.spellsMetadata (a : Answer) : Prop :=
  (TypeScript.unbracketHostname a.text).map Char.toLower = "fd00:ec2::254".toList

/-- Whether TypeScript takes the text for an address. -/
def Answer.isAddress (a : Answer) : Prop := TypeScript.isIP (TypeScript.unbracketHostname a.text) ≠ 0

namespace TypeScript

theorem ip_of_spelling {a : Answer} {ip : IP} (h : ipOf (unbracketHostname a.text) = some ip) : a.ip = ip.unmap := by
  rcases ipOf_answer a with ⟨hip, _⟩ | ⟨_, hnone⟩
  · rw [hip] at h
    cases h
    rfl
  · rw [hnone] at h
    cases h

theorem isUnspecified_of_spells {a : Answer} (h : a.spellsUnspecified) : a.ip.isUnspecified = true := by
  rcases h with h | h
  · rw [@ip_of_spelling a (.v4 0) (by rw [h]; decide)]
    rfl
  · rw [@ip_of_spelling a (.v6 0) (by rw [h]; decide)]
    rfl

theorem metadata_of_spells {a : Answer} (h : a.spellsMetadata) : a.ip = metadataIPv6 ∧ a.address.zone = [] := by
  refine ⟨(ip_of_spelling (ipOf_metadata h)).trans (by decide), ?_⟩
  by_contra hzone
  rcases ipOf_answer a with ⟨_, hpercent⟩ | ⟨_, hnone⟩
  · have hmem := List.mem_map_of_mem (f := Char.toLower) (hpercent hzone)
    unfold Answer.spellsMetadata at h
    rw [h] at hmem
    exact absurd hmem (by decide)
  · rw [ipOf_metadata h] at hnone
    cases hnone

theorem broadcast_of_spelling {a : Answer} (h : unbracketHostname a.text = "255.255.255.255".toList) : a.ip = broadcastIPv4 :=
  @ip_of_spelling a broadcastIPv4 (by rw [h]; decide)

theorem isAddress_of_zone {a : Answer} (h : a.address.zone = []) : a.isAddress := by
  unfold Answer.isAddress isIP
  rcases ipOf_answer a with ⟨hip, _⟩ | ⟨hzone, _⟩
  · rw [hip]
    cases a.address.ip <;> simp
  · exact absurd h hzone

/-- **What TypeScript refuses**: no address, four spellings, and the networks of the policy. -/
theorem refuses_iff (policy : Policy) (scheme : Scheme) (a : Answer) :
    isAllowedProviderIPAddress a.text scheme policy = false ↔
      ¬a.isAddress ∨ a.spellsUnspecified ∨ a.spellsMetadata ∨ unbracketHostname a.text = "255.255.255.255".toList ∨
        a.ip.isLinkLocal = true ∨ a.ip.isMulticast = true ∨
        (policy = .publicHTTPS ∧ (scheme = .http ∨ isPrivateNetwork a.ip = true ∨ sharedNet.contains a.ip = true)) ∨
        (policy = .privateNetworkHTTP ∧ scheme = .http ∧ isPrivateNetwork a.ip = false) := by
  rcases ipOf_answer a with ⟨hip, _⟩ | ⟨_, hnone⟩
  · have hself := unbracket_of_ipOf hip
    have hagain : ipOf (unbracketHostname (unbracketHostname a.text)) = some a.address.ip := by rw [hself, hip]
    have haddress : a.isAddress := by
      unfold Answer.isAddress isIP
      rw [hip]
      cases a.address.ip <;> simp
    have hunmap : a.address.ip.unmap = a.ip := rfl
    unfold isAllowedProviderIPAddress isAlwaysRefusedIPAddressLiteral isPrivateIPAddressLiteral
    simp only [contains_eq hip, contains_eq hagain, linkLocal_iff, multicast_iff, privateAddresses_iff, shared_iff, hunmap]
    unfold Answer.isAddress at haddress ⊢
    unfold Answer.spellsUnspecified Answer.spellsMetadata
    cases policy <;> cases scheme <;> grind
  · have haddress : isIP (unbracketHostname a.text) = 0 := by
      unfold isIP
      rw [hnone]
    unfold isAllowedProviderIPAddress
    rw [haddress]
    exact ⟨fun _ => .inl (fun h => h haddress), fun _ => rfl⟩

end TypeScript

/-! ## Lists of answers -/

variable (policy : Policy) (scheme : Scheme)

theorem dialed_subset (attempt : Nat → Attempt) : ∀ (addresses : List Zoned) (n : Nat),
    ∀ address ∈ (dialEach attempt n addresses).1, address ∈ addresses
  | [], _, _, h => absurd h List.not_mem_nil
  | first :: rest, n, address, h => by
    unfold dialEach at h
    split at h
    · exact List.mem_singleton.1 h ▸ List.mem_cons_self
    · exact List.mem_singleton.1 h ▸ List.mem_cons_self
    · rcases List.mem_cons.1 h with rfl | h
      · exact List.mem_cons_self
      · exact List.mem_cons_of_mem _ (dialed_subset attempt rest (n + 1) address h)

theorem ofDials_not_refused (dials : List Zoned × Option Zoned) (reason : String) :
    (Run.ofDials dials).outcome ≠ .refused reason := by
  obtain ⟨dialed, _ | address⟩ := dials <;> exact fun h => by cases h

theorem Go.checkAll_cases (isPlainHTTP : Bool) : ∀ addresses : List Zoned,
    ((∃ address ∈ addresses, Go.refusalReason policy (Go.checkedAddress address) isPlainHTTP ≠ "") ∧
        ∃ reason, Go.checkAll policy isPlainHTTP addresses = .error reason) ∨
      ((∀ address ∈ addresses, Go.refusalReason policy (Go.checkedAddress address) isPlainHTTP = "") ∧
        Go.checkAll policy isPlainHTTP addresses = .ok (addresses.map Go.checkedAddress))
  | [] => .inr ⟨fun _ h => absurd h List.not_mem_nil, rfl⟩
  | address :: rest => by
    unfold Go.checkAll
    by_cases hreason : Go.refusalReason policy (Go.checkedAddress address) isPlainHTTP = ""
    · rw [if_neg (not_not_intro hreason)]
      rcases Go.checkAll_cases isPlainHTTP rest with ⟨⟨a, ha, hne⟩, reason, herr⟩ | ⟨hall, hok⟩
      · exact .inl ⟨⟨a, List.mem_cons_of_mem _ ha, hne⟩, reason, by rw [herr]; rfl⟩
      · exact .inr ⟨List.forall_mem_cons.2 ⟨hreason, hall⟩, by rw [hok]; rfl⟩
    · rw [if_pos hreason]
      exact .inl ⟨⟨address, List.mem_cons_self, hreason⟩, _, rfl⟩

theorem Python.checkAll_cases : ∀ addresses : List (List Char),
    ((∃ address ∈ addresses, Python.refusalReason address scheme policy ≠ "") ∧
        ∃ reason, Python.checkAll scheme policy addresses = .error reason) ∨
      ((∀ address ∈ addresses, Python.refusalReason address scheme policy = "") ∧
        Python.checkAll scheme policy addresses = .ok (addresses.filterMap Python.checkedIp))
  | [] => .inr ⟨fun _ h => absurd h List.not_mem_nil, rfl⟩
  | address :: rest => by
    unfold Python.checkAll
    by_cases hreason : Python.refusalReason address scheme policy = ""
    · rw [if_neg (not_not_intro hreason)]
      rcases Python.checkAll_cases rest with ⟨⟨a, ha, hne⟩, reason, herr⟩ | ⟨hall, hok⟩
      · exact .inl ⟨⟨a, List.mem_cons_of_mem _ ha, hne⟩, reason, by rw [herr]; rfl⟩
      · refine .inr ⟨List.forall_mem_cons.2 ⟨hreason, hall⟩, ?_⟩
        rw [hok]
        cases hchecked : Python.checkedIp address with
        | none => rw [List.filterMap_cons_none hchecked]; rfl
        | some ip => rw [List.filterMap_cons_some hchecked]; rfl
    · rw [if_pos hreason]
      exact .inl ⟨⟨address, List.mem_cons_self, hreason⟩, _, rfl⟩

variable (answers : List Answer)

def goRun (attempt : Nat → Attempt) : Run :=
  Go.dialContext policy (scheme == .http) (answers.map (·.address)) attempt

def pythonRun (attempt : Nat → Attempt) : Run := Python.connectTcp scheme policy (answers.map (·.text)) attempt

/-- Whether a call ends in a refusal. -/
def Run.Refused (run : Run) : Prop := ∃ reason, run.outcome = .refused reason

def typeScriptRefuses : Prop := ∃ a ∈ answers, TypeScript.isAllowedProviderIPAddress a.text scheme policy = false

theorem goRun_cases (attempt : Nat → Attempt) :
    ((goRun policy scheme answers attempt).Refused ∧ (goRun policy scheme answers attempt).dialed = [] ∧
        ∃ a ∈ answers, Refuses policy scheme a.ip) ∨
      (¬(goRun policy scheme answers attempt).Refused ∧ (∀ a ∈ answers, ¬Refuses policy scheme a.ip) ∧
        ∀ address ∈ (goRun policy scheme answers attempt).dialed, ∃ a ∈ answers, address = Go.checkedAddress a.address) := by
  have hrefuses : ∀ a : Answer,
      Go.refusalReason policy (Go.checkedAddress a.address) (scheme == .http) ≠ "" ↔ Refuses policy scheme a.ip :=
    fun a => Go.refuses_iff policy scheme a.ip
  unfold goRun Go.dialContext Run.Refused
  by_cases hnil : answers = []
  · subst hnil
    exact .inr ⟨fun ⟨_, h⟩ => (by cases h), fun _ h => absurd h List.not_mem_nil, fun _ h => absurd h List.not_mem_nil⟩
  rw [if_neg (by simpa using hnil)]
  rcases Go.checkAll_cases policy (scheme == .http) (answers.map (·.address)) with ⟨⟨address, ha, hne⟩, reason, herr⟩ | ⟨hall, hok⟩
  · obtain ⟨a, hmem, rfl⟩ := List.mem_map.1 ha
    rw [herr]
    exact .inl ⟨⟨reason, rfl⟩, rfl, a, hmem, (hrefuses a).1 hne⟩
  · rw [hok]
    refine .inr ⟨fun ⟨reason, h⟩ => ofDials_not_refused _ reason h, fun a ha h => ?_, fun address haddress => ?_⟩
    · exact (hrefuses a).2 h (hall _ (List.mem_map_of_mem ha))
    · obtain ⟨x, hx, rfl⟩ := List.mem_map.1 (dialed_subset attempt _ 0 address haddress)
      obtain ⟨a, ha, rfl⟩ := List.mem_map.1 hx
      exact ⟨a, ha, rfl⟩

theorem pythonRun_cases (attempt : Nat → Attempt) :
    ((pythonRun policy scheme answers attempt).Refused ∧ (pythonRun policy scheme answers attempt).dialed = [] ∧
        ∃ a ∈ answers, Python.refusalReason a.text scheme policy ≠ "") ∨
      (¬(pythonRun policy scheme answers attempt).Refused ∧ (∀ a ∈ answers, Python.refusalReason a.text scheme policy = "") ∧
        ∀ address ∈ (pythonRun policy scheme answers attempt).dialed, ∃ a ∈ answers, address = Python.unmapped a.address) := by
  unfold pythonRun Python.connectTcp Run.Refused
  by_cases hnil : answers = []
  · subst hnil
    exact .inr ⟨fun ⟨_, h⟩ => (by cases h), fun _ h => absurd h List.not_mem_nil, fun _ h => absurd h List.not_mem_nil⟩
  rw [if_neg (by simpa using hnil)]
  rcases Python.checkAll_cases policy scheme (answers.map (·.text)) with ⟨⟨text, ha, hne⟩, reason, herr⟩ | ⟨hall, hok⟩
  · obtain ⟨a, hmem, rfl⟩ := List.mem_map.1 ha
    rw [herr]
    exact .inl ⟨⟨reason, rfl⟩, rfl, a, hmem, hne⟩
  · rw [hok]
    refine .inr ⟨fun ⟨reason, h⟩ => ofDials_not_refused _ reason h, fun a ha => hall _ (List.mem_map_of_mem ha),
      fun address haddress => ?_⟩
    obtain ⟨text, htext, hchecked⟩ := List.mem_filterMap.1 (dialed_subset attempt _ 0 address haddress)
    obtain ⟨a, ha, rfl⟩ := List.mem_map.1 htext
    unfold Python.checkedIp at hchecked
    rw [a.spells, Option.map_some] at hchecked
    exact ⟨a, ha, (Option.some.inj hchecked).symm⟩

/-- **The three agree on a list of answers, and dial only what they checked.** -/
structure Agree : Prop where
  goPython : ∀ go python, (goRun policy scheme answers go).Refused ↔ (pythonRun policy scheme answers python).Refused
  pythonTypeScript : ∀ python, (pythonRun policy scheme answers python).Refused ↔ typeScriptRefuses policy scheme answers
  refusedNotDialed : ∀ attempt,
    ((goRun policy scheme answers attempt).Refused → (goRun policy scheme answers attempt).dialed = []) ∧
      ((pythonRun policy scheme answers attempt).Refused → (pythonRun policy scheme answers attempt).dialed = []) ∧
      (typeScriptRefuses policy scheme answers → TypeScript.selectAddress scheme policy (answers.map (·.text)) = none)
  dialedChecked : ∀ attempt,
    (∀ address ∈ (goRun policy scheme answers attempt).dialed, ∃ a ∈ answers, address = Go.checkedAddress a.address ∧
        Go.refusalReason policy address (scheme == .http) = "") ∧
      (∀ address ∈ (pythonRun policy scheme answers attempt).dialed, ∃ a ∈ answers, address = Python.unmapped a.address ∧
        Python.refusalReason a.text scheme policy = "") ∧
      ∀ text, TypeScript.selectAddress scheme policy (answers.map (·.text)) = some text → ∃ a ∈ answers, text = a.text ∧
        TypeScript.isAllowedProviderIPAddress a.text scheme policy = true
  forbiddenRefused : ∀ a ∈ answers, Forbidden a.ip →
    Go.refusalReason policy (Go.checkedAddress a.address) (scheme == .http) ≠ "" ∧
      Python.refusalReason a.text scheme policy ≠ "" ∧ TypeScript.isAllowedProviderIPAddress a.text scheme policy = false

/-- An answer in a form that all three see: TypeScript knows the unspecified addresses and the metadata address by their texts. -/
def Answer.Seen (a : Answer) : Prop :=
  (scheme = .https → a.ip.isUnspecified = true → a.isAddress → a.spellsUnspecified) ∧
    (policy = .privateNetworkHTTP → a.ip = metadataIPv6 → a.spellsMetadata)

/-- **Every answer is seen**, and unless the policy refuses one, none is the broadcast address or has a zone of other
characters. -/
def Seen : Prop :=
  (∀ a ∈ answers, a.Seen policy scheme) ∧
    ((∃ a ∈ answers, Refuses policy scheme a.ip) ∨ ∀ a ∈ answers, a.ip ≠ broadcastIPv4 ∧ a.isAddress)

/-- Nothing else is known of an unspecified address. -/
theorem of_isUnspecified {ip : IP} (h : ip.isUnspecified = true) :
    ip.isLinkLocal = false ∧ ip.isMulticast = false ∧ isPrivateNetwork ip = false ∧ sharedNet.contains ip = false ∧
      ip ≠ metadataIPv6 ∧ ip ≠ broadcastIPv4 := by
  cases ip with
  | v4 bits =>
    cases eq_of_beq (show (bits == 0) = true from h)
    decide
  | v6 bits =>
    cases eq_of_beq (show (bits == 0) = true from h)
    decide

theorem of_metadata : metadataIPv6.isUnspecified = false ∧ metadataIPv6.isLinkLocal = false ∧
    metadataIPv6.isMulticast = false ∧ isPrivateNetwork metadataIPv6 = true ∧ metadataIPv6 ≠ broadcastIPv4 := by
  decide

variable {policy scheme answers}

theorem Answer.Seen.python {a : Answer} (hseen : a.Seen policy scheme) (h : Refuses policy scheme a.ip) :
    Python.refusalReason a.text scheme policy ≠ "" := by
  refine (Python.refuses_iff policy scheme a).2 (.inr ⟨h, ?_⟩)
  rintro ⟨hpolicy, hip, hzone⟩
  exact hzone (TypeScript.metadata_of_spells (hseen.2 hpolicy hip)).2

theorem Answer.Seen.typeScript {a : Answer} (hseen : a.Seen policy scheme) (h : Refuses policy scheme a.ip) :
    TypeScript.isAllowedProviderIPAddress a.text scheme policy = false := by
  rw [TypeScript.refuses_iff]
  rcases h with (hunspecified | hmulticast | hlink | hip) | hlevel
  · obtain ⟨_, _, hprivate, _⟩ := of_isUnspecified hunspecified
    cases scheme with
    | https =>
      by_cases haddress : a.isAddress
      · exact .inr (.inl (hseen.1 rfl hunspecified haddress))
      · exact .inl haddress
    | http =>
      cases policy with
      | publicHTTPS => simp
      | privateNetworkHTTP => simp [hprivate]
  · simp [hmulticast]
  · simp [hlink]
  · cases policy with
    | publicHTTPS => simp [hip, of_metadata.2.2.2.1]
    | privateNetworkHTTP => exact .inr (.inr (.inl (hseen.2 rfl hip)))
  · simp only [hlevel, or_true]

/-- What TypeScript refuses the policy refuses, but for two kinds of answer. -/
theorem refuses_of_typeScript {a : Answer} (h : TypeScript.isAllowedProviderIPAddress a.text scheme policy = false)
    (hip : a.ip ≠ broadcastIPv4) (haddress : a.isAddress) : Refuses policy scheme a.ip := by
  rcases (TypeScript.refuses_iff policy scheme a).1 h with hnot | hspells | hspells | hspells | hlink | hmulticast | hlevel
  · exact absurd haddress hnot
  · exact .inl (.inl (TypeScript.isUnspecified_of_spells hspells))
  · exact .inl (.inr (.inr (.inr (TypeScript.metadata_of_spells hspells).1)))
  · exact absurd (TypeScript.broadcast_of_spelling hspells) hip
  · exact .inl (.inr (.inr (.inl hlink)))
  · exact .inl (.inr (.inl hmulticast))
  · exact .inr hlevel

theorem seen_of_forbiddenRefused {a : Answer}
    (h : Forbidden a.ip → Python.refusalReason a.text scheme policy ≠ "" ∧
      TypeScript.isAllowedProviderIPAddress a.text scheme policy = false) : a.Seen policy scheme := by
  refine ⟨fun hscheme hunspecified haddress => ?_, fun hpolicy hip => ?_⟩
  · obtain ⟨hlink, hmulticast, hprivate, hshared, hmetadata, hbroadcast⟩ := of_isUnspecified hunspecified
    rcases (TypeScript.refuses_iff policy scheme a).1 (h (.inl hunspecified)).2 with
      hnot | hspells | hspells | hspells | hl | hm | ⟨_, hl⟩ | ⟨_, hl, _⟩
    · exact absurd haddress hnot
    · exact hspells
    · exact absurd (TypeScript.metadata_of_spells hspells).1 hmetadata
    · exact absurd (TypeScript.broadcast_of_spelling hspells) hbroadcast
    · simp [hlink] at hl
    · simp [hmulticast] at hm
    · simp [hscheme, hprivate, hshared] at hl
    · simp [hscheme] at hl
  · obtain ⟨hunspecified, hlink, hmulticast, hprivate, hbroadcast⟩ := of_metadata
    obtain ⟨hpython, htypeScript⟩ := h (.inr (.inr (.inr hip)))
    have hzone : a.address.zone = [] := by
      rcases (Python.refuses_iff policy scheme a).1 hpython with hb | ⟨_, hnot⟩
      · exact absurd (hip.symm.trans hb) hbroadcast
      · by_contra hne
        exact hnot ⟨hpolicy, hip, hne⟩
    rcases (TypeScript.refuses_iff policy scheme a).1 htypeScript with
      hnot | hspells | hspells | hspells | hl | hm | ⟨hl, _⟩ | ⟨_, _, hl⟩
    · exact absurd (TypeScript.isAddress_of_zone hzone) hnot
    · have := TypeScript.isUnspecified_of_spells hspells
      rw [hip, hunspecified] at this
      cases this
    · exact hspells
    · exact absurd (hip.symm.trans (TypeScript.broadcast_of_spelling hspells)) hbroadcast
    · simp [hip, hlink] at hl
    · simp [hip, hmulticast] at hm
    · simp [hpolicy] at hl
    · simp [hip, hprivate] at hl

variable (policy scheme answers)

theorem goRun_refused_iff (attempt : Nat → Attempt) :
    (goRun policy scheme answers attempt).Refused ↔ ∃ a ∈ answers, Refuses policy scheme a.ip := by
  rcases goRun_cases policy scheme answers attempt with ⟨h, _, hex⟩ | ⟨h, hall, _⟩
  · exact ⟨fun _ => hex, fun _ => h⟩
  · exact ⟨fun hr => absurd hr h, fun ⟨a, ha, hr⟩ => absurd hr (hall a ha)⟩

theorem pythonRun_refused_iff (attempt : Nat → Attempt) :
    (pythonRun policy scheme answers attempt).Refused ↔ ∃ a ∈ answers, Python.refusalReason a.text scheme policy ≠ "" := by
  rcases pythonRun_cases policy scheme answers attempt with ⟨h, _, hex⟩ | ⟨h, hall, _⟩
  · exact ⟨fun _ => hex, fun _ => h⟩
  · exact ⟨fun hr => absurd hr h, fun ⟨a, ha, hr⟩ => absurd (hall a ha) hr⟩

/-- **Whatever the answers, what is refused is not dialed and what is dialed was checked.** -/
theorem dials_checked :
    (∀ attempt,
      ((goRun policy scheme answers attempt).Refused → (goRun policy scheme answers attempt).dialed = []) ∧
        ((pythonRun policy scheme answers attempt).Refused → (pythonRun policy scheme answers attempt).dialed = []) ∧
        (typeScriptRefuses policy scheme answers → TypeScript.selectAddress scheme policy (answers.map (·.text)) = none)) ∧
      ∀ attempt,
        (∀ address ∈ (goRun policy scheme answers attempt).dialed, ∃ a ∈ answers, address = Go.checkedAddress a.address ∧
            Go.refusalReason policy address (scheme == .http) = "") ∧
          (∀ address ∈ (pythonRun policy scheme answers attempt).dialed, ∃ a ∈ answers,
            address = Python.unmapped a.address ∧ Python.refusalReason a.text scheme policy = "") ∧
          ∀ text, TypeScript.selectAddress scheme policy (answers.map (·.text)) = some text → ∃ a ∈ answers, text = a.text ∧
            TypeScript.isAllowedProviderIPAddress a.text scheme policy = true := by
  refine ⟨fun attempt => ⟨fun h => ?_, fun h => ?_, ?_⟩, fun attempt => ⟨fun address haddress => ?_, fun address haddress => ?_,
    fun text htext => ?_⟩⟩
  · rcases goRun_cases policy scheme answers attempt with ⟨_, hdialed, _⟩ | ⟨hnot, _⟩
    · exact hdialed
    · exact absurd h hnot
  · rcases pythonRun_cases policy scheme answers attempt with ⟨_, hdialed, _⟩ | ⟨hnot, _⟩
    · exact hdialed
    · exact absurd h hnot
  · rintro ⟨a, ha, hfalse⟩
    unfold TypeScript.selectAddress
    refine if_pos ?_
    rw [Bool.or_eq_true, List.any_eq_true]
    exact .inr ⟨a.text, List.mem_map_of_mem ha, by rw [hfalse]; rfl⟩
  · rcases goRun_cases policy scheme answers attempt with ⟨_, hdialed, _⟩ | ⟨_, hall, hmem⟩
    · rw [hdialed] at haddress
      cases haddress
    · obtain ⟨a, ha, rfl⟩ := hmem address haddress
      refine ⟨a, ha, rfl, ?_⟩
      by_contra hreason
      exact hall a ha ((Go.refuses_iff policy scheme a.ip).1 hreason)
  · rcases pythonRun_cases policy scheme answers attempt with ⟨_, hdialed, _⟩ | ⟨_, hall, hmem⟩
    · rw [hdialed] at haddress
      cases haddress
    · obtain ⟨a, ha, rfl⟩ := hmem address haddress
      exact ⟨a, ha, rfl, hall a ha⟩
  · unfold TypeScript.selectAddress at htext
    split at htext
    · cases htext
    · rename_i hany
      rw [Bool.or_eq_true, not_or, List.any_eq_true] at hany
      obtain ⟨a, ha, rfl⟩ := List.mem_map.1 (List.mem_of_mem_head? htext)
      refine ⟨a, ha, rfl, ?_⟩
      by_contra hfalse
      exact hany.2 ⟨a.text, List.mem_map_of_mem ha, by rw [Bool.eq_false_iff.2 hfalse]; rfl⟩

/-- An unspecified address in its IPv4-mapped form, which TypeScript allows over https. -/
def mappedUnspecified : Answer where
  text := "::ffff:0.0.0.0".toList
  address := ⟨.v6 (ipv6 [0, 0, 0, 0, 0, 0xFFFF, 0, 0]), []⟩
  spells := by decide

end AddressPolicy
end Dex
