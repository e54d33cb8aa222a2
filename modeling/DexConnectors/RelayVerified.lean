import DexConnectors.RelayModel
/-!
# RelayVerified — which relayed requests `VerifyRelayedRequest` accepts

A step that accepts a request matched its signature with the token that is cached after the step (`accepts_cached`).  The
signature is of the timestamp's text, so a signature of `signRelayedRequest` is accepted with its own seconds and body only.
`spaced_run` is about the renewals that mismatches start.  `relayed_requests_verified` puts them together for every run.
-/
namespace Dex
namespace Relay

open Lib Lib.Utf8

/-! ## Times -/

theorem isFresh_iff (receivedAt : Time) (seconds : Int) :
    isFresh receivedAt seconds = true ↔
      -relayTimestampTolerance ≤ receivedAt - unix seconds ∧ receivedAt - unix seconds ≤ relayTimestampTolerance := by
  rw [isFresh, Bool.not_eq_true', Bool.or_eq_false_iff, decide_eq_false_iff_not, decide_eq_false_iff_not]
  have hclamp : ∀ x : Int, (¬ max (-2 ^ 63) (min (2 ^ 63 - 1) x) > 300 * 1000000000 ∧
      ¬ max (-2 ^ 63) (min (2 ^ 63 - 1) x) < -(300 * 1000000000)) ↔
      -(300 * 1000000000) ≤ x ∧ x ≤ 300 * 1000000000 := by omega
  exact hclamp _

theorem wrap_range (n : Int) : -2 ^ 63 ≤ wrap n ∧ wrap n < 2 ^ 63 := by
  have hlo := Int.le_bmod (x := n) (m := 2 ^ 64) (by decide)
  have hhi := Int.bmod_lt (x := n) (m := 2 ^ 64) (by decide)
  unfold wrap
  omega

/-- Seconds that have a time value. -/
theorem unix_of_range {seconds : Int} (hlo : -2 ^ 63 ≤ seconds) (hhi : seconds < 2 ^ 63 - unixToInternal) :
    unix seconds = (seconds + unixToInternal) * second := by
  unfold unixToInternal at hhi
  unfold unix wrap unixToInternal
  rw [Int.bmod_eq_of_le (by omega) (by omega)]

theorem parseInt_unixSeconds (t : Time) : parseInt (formatInt (unixSeconds t)) = some (unixSeconds t) :=
  parseInt_formatInt (wrap_range _).1 (wrap_range _).2

/-! ## Messages -/

theorem relayMessage_inj {timestamp timestamp' body body' : Bytes} (h : 0x3A ∉ timestamp) (h' : 0x3A ∉ timestamp')
    (heq : relayMessage timestamp body = relayMessage timestamp' body') : timestamp = timestamp' ∧ body = body' := by
  unfold relayMessage at heq
  simp only [List.append_assoc] at heq
  exact split_at h h' (List.append_cancel_left (List.append_cancel_left heq))

theorem cutVersion_sign (hmac : Bytes → Bytes → Bytes) (token : Bytes) (t : Time) (body : Bytes) :
    (cutVersion (signRelayedRequest hmac token t body)).bind hexDecode =
      some (relaySignature hmac token (formatInt (unixSeconds t)) body) := by
  have hcut : cutVersion (signRelayedRequest hmac token t body) =
      some (hexEncode (relaySignature hmac token (formatInt (unixSeconds t)) body)) := by
    unfold cutVersion signRelayedRequest
    rw [if_pos (List.isPrefixOf_iff_prefix.2 (List.prefix_append _ _))]
    rfl
  rw [hcut, Option.bind_some, hexDecode_hexEncode]

/-! ## Accepted requests -/

section Verifying

variable (hmac : Bytes → Bytes → Bytes)

/-- The header was read, it is fresh, and its signature is the one of its timestamp's text and the body under a token. -/
def Authentic (q : Request) (token : Bytes) : Prop :=
  ∃ s : Signed q, s.received = relaySignature hmac token q.timestamp q.body

variable {hmac}

theorem matchesToken_iff {q : Request} {s : Signed q} {token : Bytes} :
    matchesToken hmac q s token = true ↔ s.received = relaySignature hmac token q.timestamp q.body := by
  rw [matchesToken, beq_iff_eq]

/-- **One signature, one request.** -/
theorem Authentic.unique (hinj : ∀ k m k' m', hmac k m = hmac k' m' → k = k' ∧ m = m') {q q' : Request} {token token' : Bytes}
    {s : Signed q} {s' : Signed q'} (h : s.received = relaySignature hmac token q.timestamp q.body)
    (h' : s'.received = relaySignature hmac token' q'.timestamp q'.body) (heq : s.received = s'.received) :
    token = token' ∧ q.timestamp = q'.timestamp ∧ q.body = q'.body := by
  rw [h, h'] at heq
  obtain ⟨htoken, hmessage⟩ := hinj _ _ _ _ heq
  obtain ⟨htimestamp, hbody⟩ :=
    relayMessage_inj (colon_not_mem_of_parseInt s.parsed) (colon_not_mem_of_parseInt s'.parsed) hmessage
  exact ⟨htoken, htimestamp, hbody⟩

/-- **A signature that the host made is accepted for what the host signed.** -/
theorem Authentic.of_sign (hinj : ∀ k m k' m', hmac k m = hmac k' m' → k = k' ∧ m = m') {q : Request} {token token' : Bytes}
    {t : Time} {body : Bytes} (h : Authentic hmac q token)
    (hsign : q.header.get relaySignatureHeader = signRelayedRequest hmac token' t body) :
    token' = token ∧ q.timestamp = formatInt (unixSeconds t) ∧ q.body = body := by
  obtain ⟨s, hs⟩ := h
  have hdecoded := s.decoded
  rw [hsign, cutVersion_sign, hs] at hdecoded
  obtain ⟨htoken, hmessage⟩ := hinj _ _ _ _ (Option.some.inj hdecoded)
  obtain ⟨htimestamp, hbody⟩ := relayMessage_inj (colon_not_mem_of_parseInt (parseInt_unixSeconds t))
    (colon_not_mem_of_parseInt s.parsed) hmessage
  exact ⟨htoken, htimestamp.symm, hbody.symm⟩

variable {Ref : Type}

theorem bearerToken_cached {b : Broker Ref} {r : Reads Ref} {token : Bytes} (h : (bearerToken b r).2 = some token) :
    (bearerToken b r).1.token = token := by
  unfold bearerToken at h ⊢
  by_cases hb : b.token ≠ []
  · rw [if_pos hb] at h ⊢
    exact Option.some.inj h
  · rw [if_neg hb] at h ⊢
    cases hr : r.token b.tokenReference with
    | none =>
      rw [hr] at h
      cases h
    | some read =>
      rw [hr] at h
      exact Option.some.inj h

theorem renewBearerToken_cached {b : Broker Ref} {refused : Bytes} {r : Reads Ref} {token : Bytes}
    (h : (renewBearerToken b refused r).2 = some token) : (renewBearerToken b refused r).1.token = token := by
  unfold renewBearerToken at h ⊢
  by_cases hb : b.token ≠ [] ∧ b.token ≠ refused
  · rw [if_pos hb] at h ⊢
    exact Option.some.inj h
  · rw [if_neg hb] at h ⊢
    dsimp only at h ⊢
    cases hr : r.token ((r.head.bind id).getD b.tokenReference) with
    | none =>
      rw [hr] at h
      cases h
    | some read =>
      rw [hr] at h
      exact Option.some.inj h

/-- What `startMismatchRenewal` does. -/
theorem startMismatchRenewal_cases (b : Broker Ref) (mismatched : Bytes) (now : Time) :
    startMismatchRenewal b mismatched now = (b, .current b.token) ∨ startMismatchRenewal b mismatched now = (b, .limited) ∨
      (startMismatchRenewal b mismatched now = ({ b with lastMismatchRenewal := now }, .started) ∧
        (b.lastMismatchRenewal = 0 ∨ relayTokenRenewalInterval ≤ sub now b.lastMismatchRenewal)) := by
  unfold startMismatchRenewal
  split
  · exact .inl rfl
  split
  · exact .inr (.inl rfl)
  next hlimit =>
    refine .inr (.inr ⟨rfl, ?_⟩)
    by_cases hzero : b.lastMismatchRenewal = 0
    · exact .inl hzero
    · exact .inr (Int.not_lt.1 (fun hlt => hlimit ⟨hzero, hlt⟩))

/-- **A verification accepts under the token that is cached then.** -/
theorem advance_accepted {b : Broker Ref} {now : Time} {r : Reads Ref} {v : Verification} {q : Request} {token : Bytes}
    (hv : v.result = none) (h : (advance hmac b now r v).2.1 = .finished q (.accepted token)) :
    (advance hmac b now r v).1.token = token ∧ Authentic hmac q token := by
  cases v with
  | finished q' result => cases hv
  | arrived q' =>
    unfold advance at h ⊢
    dsimp only at h ⊢
    cases hs : readSigned q' with
    | none =>
      rw [hs] at h
      cases h
    | some s =>
      rw [hs] at h
      dsimp only at h ⊢
      have hcached := @bearerToken_cached _ b r
      cases ht : bearerToken b r with
      | mk b' read =>
        rw [ht] at h hcached
        cases read with
        | none => cases h
        | some read =>
          dsimp only at h ⊢
          split at h
          next hm =>
            cases h
            exact ⟨hcached rfl, s, matchesToken_iff.1 hm⟩
          · cases h
  | mismatched q' s held =>
    unfold advance at h ⊢
    dsimp only at h ⊢
    rcases startMismatchRenewal_cases b held now with heq | heq | ⟨heq, -⟩
    · rw [heq] at h ⊢
      dsimp only at h ⊢
      split at h
      next hm =>
        cases h
        exact ⟨rfl, s, matchesToken_iff.1 hm⟩
      · cases h
    · rw [heq] at h
      cases h
    · rw [heq] at h
      cases h
  | renewing q' s held =>
    unfold advance at h ⊢
    dsimp only at h ⊢
    have hcached := @renewBearerToken_cached _ b held r
    cases ht : renewBearerToken b held r with
    | mk b' read =>
      rw [ht] at h hcached
      cases read with
      | none => cases h
      | some renewed =>
        dsimp only at h ⊢
        split at h
        next hm =>
          cases h
          exact ⟨hcached rfl, s, matchesToken_iff.1 hm.2⟩
        · cases h

/-! ## Steps -/

/-- The cached token. -/
def System.token (st : System Ref) : Bytes := (st.broker.map (·.token)).getD []

theorem step_advance {st : System Ref} {b : Broker Ref} {i : Nat} {v : Verification} (hb : st.broker = some b)
    (hv : st.calls[i]? = some v) (now : Time) (r : Reads Ref) :
    step hmac st (.advance i now r) = ⟨some (advance hmac b now r v).1, st.calls.set i (advance hmac b now r v).2.1,
      (advance hmac b now r v).2.2.toList ++ st.starts⟩ := by
  unfold step
  dsimp only
  rw [hb, hv]
  cases v <;> rfl

theorem getElem?_step_advance {st : System Ref} {b : Broker Ref} {i : Nat} {v : Verification} (hb : st.broker = some b)
    (hv : st.calls[i]? = some v) (now : Time) (r : Reads Ref) :
    (step hmac st (.advance i now r)).calls[i]? = some (advance hmac b now r v).2.1 := by
  rw [step_advance hb hv, List.getElem?_set_self (List.getElem?_eq_some_iff.1 hv).1]

/-- The call `i` is accepted in a step. -/
structure Accepts (hmac : Bytes → Bytes → Bytes) (st : System Ref) (e : Event Ref) (i : Nat) (q : Request) (token : Bytes) :
    Prop where
  before : ∃ v, st.calls[i]? = some v ∧ v.result = none
  after  : (step hmac st e).calls[i]? = some (.finished q (.accepted token))

theorem accepts_cached {st : System Ref} {e : Event Ref} {i : Nat} {q : Request} {token : Bytes}
    (h : Accepts hmac st e i q token) : (step hmac st e).token = token ∧ Authentic hmac q token := by
  obtain ⟨⟨v, hv, hr⟩, hafter⟩ := h
  have hkept : (step hmac st e).calls[i]? ≠ some v := by
    rw [hafter]
    intro heq
    rw [← Option.some.inj heq] at hr
    cases hr
  cases e with
  | arrive q' =>
    refine absurd ?_ hkept
    show (st.calls ++ [_])[i]? = some v
    rw [List.getElem?_append_left (List.getElem?_eq_some_iff.1 hv).1, hv]
  | bearer r => exact absurd hv hkept
  | refused token' r => exact absurd hv hkept
  | advance j now r =>
    by_cases hj : j = i
    · subst hj
      cases hb : st.broker with
      | some b =>
        rw [getElem?_step_advance hb hv] at hafter
        have := advance_accepted hr (Option.some.inj hafter)
        rw [step_advance hb hv]
        exact this
      | none =>
        unfold step at hafter hkept
        dsimp only at hafter hkept
        rw [hv, hb] at hafter hkept
        cases v with
        | arrived q' =>
          dsimp only at hafter
          rw [List.getElem?_set_self (List.getElem?_eq_some_iff.1 hv).1] at hafter
          cases hafter
        | mismatched => exact absurd hv hkept
        | renewing => exact absurd hv hkept
        | finished => cases hr
    · refine absurd ?_ hkept
      unfold step
      dsimp only
      cases hw : st.calls[j]? with
      | none => exact hv
      | some w =>
        cases hb : st.broker with
        | some b =>
          cases w <;> exact (List.getElem?_set_ne hj).trans hv
        | none =>
          cases w with
          | arrived q' => exact (List.getElem?_set_ne hj).trans hv
          | mismatched => exact hv
          | renewing => exact hv
          | finished => exact hv

/-! ## Renewals -/

theorem lastMismatchRenewal_bearerToken (b : Broker Ref) (r : Reads Ref) :
    (bearerToken b r).1.lastMismatchRenewal = b.lastMismatchRenewal := by
  unfold bearerToken
  split
  · rfl
  split <;> rfl

theorem lastMismatchRenewal_renewBearerToken (b : Broker Ref) (refused : Bytes) (r : Reads Ref) :
    (renewBearerToken b refused r).1.lastMismatchRenewal = b.lastMismatchRenewal := by
  unfold renewBearerToken
  split
  · rfl
  dsimp only
  split <;> rfl

variable (hmac) in
/-- **What a verification does with the time of the last renewal**: it keeps it and starts nothing, or it starts a renewal
late enough. -/
theorem advance_starts (b : Broker Ref) (now : Time) (r : Reads Ref) (v : Verification) :
    ((advance hmac b now r v).2.2 = none ∧ (advance hmac b now r v).1.lastMismatchRenewal = b.lastMismatchRenewal) ∨
      ((advance hmac b now r v).2.2 = some now ∧ (advance hmac b now r v).1.lastMismatchRenewal = now ∧
        (b.lastMismatchRenewal = 0 ∨ relayTokenRenewalInterval ≤ sub now b.lastMismatchRenewal)) := by
  cases v with
  | finished q result => exact .inl ⟨rfl, rfl⟩
  | arrived q =>
    unfold advance
    dsimp only
    have hlast := lastMismatchRenewal_bearerToken b r
    cases readSigned q with
    | none => exact .inl ⟨rfl, rfl⟩
    | some s =>
      cases ht : bearerToken b r with
      | mk b' read =>
        rw [ht] at hlast
        cases read <;> exact .inl ⟨rfl, hlast⟩
  | mismatched q s held =>
    unfold advance
    dsimp only
    rcases startMismatchRenewal_cases b held now with heq | heq | ⟨heq, hlate⟩
    · rw [heq]
      exact .inl ⟨rfl, rfl⟩
    · rw [heq]
      exact .inl ⟨rfl, rfl⟩
    · rw [heq]
      exact .inr ⟨rfl, rfl, hlate⟩
  | renewing q s held =>
    unfold advance
    dsimp only
    have hlast := lastMismatchRenewal_renewBearerToken b held r
    cases ht : renewBearerToken b held r with
    | mk b' read =>
      rw [ht] at hlast
      cases read <;> exact .inl ⟨rfl, hlast⟩

/-- The broker remembers the last start. -/
def Remembers (st : System Ref) : Prop := ∀ b ∈ st.broker, b.lastMismatchRenewal = st.starts.head?.getD 0

variable (hmac) in
theorem step_cases (st : System Ref) (e : Event Ref) :
    (∃ (b : Broker Ref) (i : Nat) (v : Verification) (now : Time) (r : Reads Ref), e = .advance i now r ∧
        st.broker = some b ∧ st.calls[i]? = some v) ∨
      ((step hmac st e).starts = st.starts ∧
        ∀ b' ∈ (step hmac st e).broker, ∃ b ∈ st.broker, b'.lastMismatchRenewal = b.lastMismatchRenewal) := by
  cases e with
  | arrive q => exact .inr ⟨rfl, fun b hb => ⟨b, hb, rfl⟩⟩
  | bearer r =>
    refine .inr ⟨rfl, fun b' hb' => ?_⟩
    obtain ⟨b, hb, rfl⟩ := Option.map_eq_some_iff.1 hb'
    exact ⟨b, hb, lastMismatchRenewal_bearerToken b r⟩
  | refused token r =>
    refine .inr ⟨rfl, fun b' hb' => ?_⟩
    obtain ⟨b, hb, rfl⟩ := Option.map_eq_some_iff.1 hb'
    exact ⟨b, hb, lastMismatchRenewal_renewBearerToken b token r⟩
  | advance i now r =>
    cases hv : st.calls[i]? with
    | none =>
      have hstep : step hmac st (.advance i now r) = st := by
        unfold step
        dsimp only
        rw [hv]
      rw [hstep]
      exact .inr ⟨rfl, fun b hb => ⟨b, hb, rfl⟩⟩
    | some v =>
      cases hb : st.broker with
      | some b => exact .inl ⟨b, i, v, now, r, rfl, rfl, hv⟩
      | none =>
        have hnone : (step hmac st (.advance i now r)).broker = none ∧ (step hmac st (.advance i now r)).starts = st.starts := by
          unfold step
          dsimp only
          rw [hv, hb]
          cases v with
          | arrived q => exact ⟨rfl, rfl⟩
          | mismatched => exact ⟨hb, rfl⟩
          | renewing => exact ⟨hb, rfl⟩
          | finished => exact ⟨hb, rfl⟩
        exact .inr ⟨hnone.2, fun b hb' => by rw [hnone.1] at hb'; cases hb'⟩

theorem remembers_step {st : System Ref} (h : Remembers st) (e : Event Ref) : Remembers (step hmac st e) := by
  rcases step_cases hmac st e with ⟨b, i, v, now, r, rfl, hb, hv⟩ | ⟨hstarts, hbroker⟩
  · rw [step_advance hb hv]
    intro b' hb'
    cases hb'
    rcases advance_starts hmac b now r v with ⟨hs, hlast⟩ | ⟨hs, hlast, -⟩
    · rw [hs, hlast]
      exact h b hb
    · rw [hs, hlast]
      rfl
  · intro b' hb'
    obtain ⟨b, hb, hlast⟩ := hbroker b' hb'
    rw [hlast, hstarts]
    exact h b hb

theorem remembers_run (reference : Option Ref) (events : List (Event Ref)) : Remembers (run hmac reference events) := by
  suffices hrun : ∀ (events : List (Event Ref)) {st : System Ref}, Remembers st → Remembers (events.foldl (step hmac) st) by
    refine hrun events (fun b hb => ?_)
    obtain ⟨ref, -, rfl⟩ := Option.map_eq_some_iff.1 hb
    rfl
  intro events
  induction events with
  | nil => exact fun h => h
  | cons e rest ih => exact fun h => ih (remembers_step h e)

/-- The starts of renewals, newest first, are the interval apart. -/
def Spaced (starts : List Time) : Prop :=
  starts.Pairwise (fun newer older => relayTokenRenewalInterval ≤ newer - older)

theorem interval_le_of_sub {now last : Time} (h : relayTokenRenewalInterval ≤ sub now last) :
    relayTokenRenewalInterval ≤ now - last := by
  simp only [relayTokenRenewalInterval, second, sub] at h ⊢
  omega

theorem Spaced.cons {starts : List Time} (h : Spaced starts) {now : Time}
    (hnow : ∀ last ∈ starts.head?, relayTokenRenewalInterval ≤ now - last) : Spaced (now :: starts) := by
  refine List.Pairwise.cons (fun older hmem => ?_) h
  cases starts with
  | nil => cases hmem
  | cons last rest =>
    have hlast := hnow last rfl
    rcases List.mem_cons.1 hmem with rfl | hmem
    · exact hlast
    · have hrest := List.rel_of_pairwise_cons h hmem
      have hpos : 0 ≤ relayTokenRenewalInterval := by decide
      omega

/-- A clock that does not read the zero time. -/
def ClockSet (events : List (Event Ref)) : Prop := ∀ i now r, Event.advance i now r ∈ events → now ≠ 0

theorem spaced_run {reference : Option Ref} {events : List (Event Ref)} (hclock : ClockSet events) :
    Spaced (run hmac reference events).starts := by
  suffices hrun : ∀ (events : List (Event Ref)) {st : System Ref}, ClockSet events → Remembers st → (∀ s ∈ st.starts, s ≠ 0) →
      Spaced st.starts → Spaced (events.foldl (step hmac) st).starts by
    refine hrun events hclock (fun b hb => ?_) (fun s hs => (by cases hs)) List.Pairwise.nil
    obtain ⟨ref, -, rfl⟩ := Option.map_eq_some_iff.1 hb
    rfl
  intro events
  induction events with
  | nil => exact fun _ _ _ h => h
  | cons e rest ih =>
    intro st hclock hremembers hset hspaced
    refine ih (fun i now r hm => hclock i now r (List.mem_cons_of_mem e hm)) (remembers_step hremembers e) ?_ ?_
    · rcases step_cases hmac st e with ⟨b, i, v, now, r, rfl, hb, hv⟩ | ⟨hstarts, -⟩
      · rw [step_advance hb hv]
        rcases advance_starts hmac b now r v with ⟨hs, -⟩ | ⟨hs, -⟩
        · rw [hs]
          exact hset
        · rw [hs]
          intro s hm
          rcases List.mem_cons.1 hm with rfl | hm
          · exact hclock i s r List.mem_cons_self
          · exact hset s hm
      · rw [hstarts]
        exact hset
    · rcases step_cases hmac st e with ⟨b, i, v, now, r, rfl, hb, hv⟩ | ⟨hstarts, -⟩
      · rw [step_advance hb hv]
        rcases advance_starts hmac b now r v with ⟨hs, -⟩ | ⟨hs, -, hlate⟩
        · rw [hs]
          exact hspaced
        · rw [hs]
          refine hspaced.cons (fun last hlast => ?_)
          have hb' := hremembers b hb
          rw [hlast] at hb'
          rw [hb'] at hlate
          rcases hlate with hzero | hlate
          · exact absurd hzero (hset last (List.mem_of_mem_head? hlast))
          · exact interval_le_of_sub hlate
      · rw [hstarts]
        exact hspaced

/-! ## Relayed requests -/

/-- The header is read as what it says. -/
theorem readSigned_eq {q : Request} (s : Signed q) : readSigned q = some s := by
  unfold readSigned
  split
  next hp => cases hp.symm.trans s.parsed
  next seconds hp =>
    have hseconds := Option.some.inj (hp.symm.trans s.parsed)
    subst hseconds
    rw [dif_pos s.fresh]
    split
    next hd => cases hd.symm.trans s.decoded
    next received hd =>
      have hreceived := Option.some.inj (hd.symm.trans s.decoded)
      subst hreceived
      rw [dif_pos s.size]

/-- **A fresh request as the host sends it**: the Unix seconds of a time in the one header, the signature in the other. -/
structure Relayed (hmac : Bytes → Bytes → Bytes) (q : Request) (token : Bytes) (t : Time) : Prop where
  timestamp : q.timestamp = formatInt (unixSeconds t)
  signature : q.header.get relaySignatureHeader = signRelayedRequest hmac token t q.body
  fresh     : isFresh q.receivedAt (unixSeconds t) = true
  size      : (relaySignature hmac token q.timestamp q.body).length = sha256Size

theorem Relayed.readSigned {q : Request} {token : Bytes} {t : Time} (h : Relayed hmac q token t) :
    ∃ s, readSigned q = some s ∧ s.received = relaySignature hmac token q.timestamp q.body := by
  refine ⟨⟨unixSeconds t, relaySignature hmac token q.timestamp q.body, ?_, ?_, h.fresh, h.size⟩, readSigned_eq _, rfl⟩
  · rw [h.timestamp]
    exact parseInt_unixSeconds t
  · rw [h.signature, cutVersion_sign, h.timestamp]

theorem advance_arrived {q : Request} {s : Signed q} {b b' : Broker Ref} {r : Reads Ref} {token : Bytes}
    (hs : readSigned q = some s) (ht : bearerToken b r = (b', some token)) (now : Time) :
    advance hmac b now r (.arrived q) =
      (b', if matchesToken hmac q s token then .finished q (.accepted token) else .mismatched q s token, none) := by
  unfold advance
  dsimp only
  rw [hs, ht]

/-- **The cached token accepts what was signed with it.** -/
theorem Relayed.accepts_cached {st : System Ref} {b : Broker Ref} {i : Nat} {q : Request} {token : Bytes} {t : Time}
    (h : Relayed hmac q token t) (hb : st.broker = some b) (hq : st.calls[i]? = some (.arrived q)) (hcached : b.token = token)
    (hne : token ≠ []) (now : Time) (r : Reads Ref) : Accepts hmac st (.advance i now r) i q token := by
  obtain ⟨s, hs, hmatch⟩ := h.readSigned
  have ht : bearerToken b r = (b, some token) := by
    unfold bearerToken
    rw [hcached, if_pos hne]
  refine ⟨⟨_, hq, rfl⟩, ?_⟩
  rw [getElem?_step_advance hb hq, advance_arrived hs ht, if_pos (matchesToken_iff.2 hmatch)]

/-- The rest of a call that runs alone after its token did not match. -/
theorem accepts_renewed {st : System Ref} {b : Broker Ref} {i : Nat} {q : Request} {s : Signed q} {held token : Bytes}
    {ref : Ref} (hb : st.broker = some b) (hq : st.calls[i]? = some (.mismatched q s held))
    (hheld : b.token = held) (hmatch : s.received = relaySignature hmac token q.timestamp q.body) (hne : token ≠ held)
    {now : Time} (hlate : b.lastMismatchRenewal = 0 ∨ relayTokenRenewalInterval ≤ sub now b.lastMismatchRenewal)
    (r : Reads Ref) (now' : Time) {r' : Reads Ref} (hhead : r'.head = some (some ref)) (hread : r'.token ref = some token) :
    (step hmac (step hmac st (.advance i now r)) (.advance i now' r')).calls[i]? = some (.finished q (.accepted token)) := by
  have hstart : startMismatchRenewal b held now = ({ b with lastMismatchRenewal := now }, .started) := by
    unfold startMismatchRenewal
    rw [if_neg (fun hcurrent => hcurrent.2 hheld), if_neg]
    rintro ⟨hzero, hlt⟩
    exact hlate.elim hzero (fun hle => absurd hlt (Int.not_lt.2 hle))
  have hstep : step hmac st (.advance i now r) =
      ⟨some { b with lastMismatchRenewal := now }, st.calls.set i (.renewing q s held), now :: st.starts⟩ := by
    rw [step_advance hb hq]
    unfold advance
    dsimp only
    rw [hstart]
    rfl
  have hrenew : renewBearerToken { b with lastMismatchRenewal := now } held r' =
      ({ b with lastMismatchRenewal := now, token := token, tokenReference := ref }, some token) := by
    unfold renewBearerToken
    rw [if_neg (fun hcurrent => hcurrent.2 hheld), hhead]
    dsimp only [Option.bind_some, id, Option.getD_some]
    rw [hread]
  rw [hstep, getElem?_step_advance rfl (List.getElem?_set_self (List.getElem?_eq_some_iff.1 hq).1)]
  unfold advance
  dsimp only
  rw [hrenew]
  dsimp only
  rw [if_pos ⟨hne, matchesToken_iff.2 hmatch⟩]

/-- The steps of one call with no other step between them. -/
def alone (i : Nat) (now now' now'' : Time) (r r' r'' : Reads Ref) : List (Event Ref) :=
  [.advance i now r, .advance i now' r', .advance i now'' r'']

variable (hmac) in
theorem step_finished {st : System Ref} {b : Broker Ref} {i : Nat} {q : Request} {result : Result} (hb : st.broker = some b)
    (hq : st.calls[i]? = some (.finished q result)) (now : Time) (r : Reads Ref) :
    (step hmac st (.advance i now r)).broker = some b ∧
      (step hmac st (.advance i now r)).calls[i]? = some (.finished q result) := by
  rw [getElem?_step_advance hb hq, step_advance hb hq]
  exact ⟨rfl, rfl⟩

/-- **A call that runs alone, with no renewal in the last interval, accepts what was signed with the current head's token.** -/
theorem Relayed.accepts_alone (hinj : ∀ k m k' m', hmac k m = hmac k' m' → k = k' ∧ m = m') {st : System Ref}
    {b : Broker Ref} {i : Nat} {q : Request} {token : Bytes} {t : Time} {ref : Ref} (h : Relayed hmac q token t) (hremembers : Remembers st) (hb : st.broker = some b)
    (hq : st.calls[i]? = some (.arrived q)) {now now' now'' : Time} {r r' r'' : Reads Ref}
    (hreads : (r.token b.tokenReference).isSome = true)
    (hlate : ∀ s ∈ st.starts, relayTokenRenewalInterval ≤ now' - s) (hhead : r''.head = some (some ref))
    (hread : r''.token ref = some token) :
    ((alone i now now' now'' r r' r'').foldl (step hmac) st).calls[i]? = some (.finished q (.accepted token)) := by
  obtain ⟨s, hs, hmatch⟩ := h.readSigned
  have ht : ∃ held, bearerToken b r = ({ b with token := held }, some held) := by
    unfold bearerToken
    by_cases hb' : b.token ≠ []
    · rw [if_pos hb']
      exact ⟨b.token, rfl⟩
    · obtain ⟨held, hheld⟩ := Option.isSome_iff_exists.1 hreads
      rw [if_neg hb', hheld]
      exact ⟨held, rfl⟩
  obtain ⟨held, ht⟩ := ht
  have hfirst : step hmac st (.advance i now r) = _ := step_advance hb hq now r
  rw [advance_arrived hs ht] at hfirst
  have hlast := hremembers b hb
  have hlimit : b.lastMismatchRenewal = 0 ∨ relayTokenRenewalInterval ≤ sub now' b.lastMismatchRenewal := by
    rw [hlast]
    cases hhead' : st.starts.head? with
    | none => exact .inl rfl
    | some last =>
      have hle := hlate last (List.mem_of_mem_head? hhead')
      have hclamp : ∀ x : Int, 30 * 1000000000 ≤ x → 30 * 1000000000 ≤ max (-2 ^ 63) (min (2 ^ 63 - 1) x) := by omega
      exact .inr (hclamp _ hle)
  rw [alone, List.foldl_cons, List.foldl_cons, List.foldl_cons, List.foldl_nil]
  have hi := (List.getElem?_eq_some_iff.1 hq).1
  have hself : (step hmac st (.advance i now r)).calls[i]? =
      some (if matchesToken hmac q s held then .finished q (.accepted held) else .mismatched q s held) := by
    rw [hfirst]
    exact List.getElem?_set_self hi
  have hbroker : (step hmac st (.advance i now r)).broker = some { b with token := held } := by rw [hfirst]
  by_cases hm : matchesToken hmac q s held = true
  · rw [if_pos hm] at hself
    have heq : held = token := (hinj _ _ _ _ ((matchesToken_iff.1 hm).symm.trans hmatch)).1
    subst heq
    obtain ⟨hb2, hq2⟩ := step_finished hmac hbroker hself now' r'
    exact (step_finished hmac hb2 hq2 now'' r'').2
  · rw [if_neg hm] at hself
    have hne : token ≠ held := by
      rintro rfl
      exact hm (matchesToken_iff.2 hmatch)
    exact accepts_renewed hbroker hself rfl hmatch hne hlimit r' now'' hhead hread

/-! ## Verification -/

/-- **What verification guarantees in a state of the project.** -/
structure Verifies (hmac : Bytes → Bytes → Bytes) (st : System Ref) : Prop where
  /-- A call is accepted under the token that is cached then, and what the host signed is accepted as the host signed it. -/
  authentic : ∀ e i q token, Accepts hmac st e i q token →
    (step hmac st e).token = token ∧ Authentic hmac q token ∧
      ∀ token' t body, q.header.get relaySignatureHeader = signRelayedRequest hmac token' t body →
        token' = token ∧ q.timestamp = formatInt (unixSeconds t) ∧ q.body = body
  cached    : ∀ b i q token t now r, st.broker = some b → st.calls[i]? = some (.arrived q) → Relayed hmac q token t →
    b.token = token → token ≠ [] → Accepts hmac st (.advance i now r) i q token
  renewed   : ∀ b i q token t now now' now'' r r' r'' ref, st.broker = some b → st.calls[i]? = some (.arrived q) →
    Relayed hmac q token t → (r.token b.tokenReference).isSome = true →
    (∀ s ∈ st.starts, relayTokenRenewalInterval ≤ now' - s) → r''.head = some (some ref) → r''.token ref = some token →
    ((alone i now now' now'' r r' r'').foldl (step hmac) st).calls[i]? = some (.finished q (.accepted token))

/-- **Relayed requests are verified in every run**, HMAC being injective: each state guarantees the above, accepted requests
with one signature are one request, and the renewals that mismatches start are the interval apart on a clock that does not
read the zero time. -/
theorem relayed_requests_verified (hmac : Bytes → Bytes → Bytes) (hinj : ∀ k m k' m', hmac k m = hmac k' m' → k = k' ∧ m = m')
    (reference : Option Ref) (events : List (Event Ref)) :
    Verifies hmac (run hmac reference events) ∧
      (∀ (q q' : Request) (token token' : Bytes) (s : Signed q) (s' : Signed q'),
        s.received = relaySignature hmac token q.timestamp q.body →
        s'.received = relaySignature hmac token' q'.timestamp q'.body → s.received = s'.received →
        s.seconds = s'.seconds ∧ q.body = q'.body) ∧
      (ClockSet events → Spaced (run hmac reference events).starts) := by
  refine ⟨⟨fun e i q token h => ?_, fun b i q token t now r hb hq h hcached hne => ?_,
    fun b i q token t now now' now'' r r' r'' ref hb hq h hreads hlate hhead hread => ?_⟩,
    fun q q' token token' s s' h h' heq => ?_, spaced_run⟩
  · obtain ⟨hcached, hauthentic⟩ := accepts_cached h
    exact ⟨hcached, hauthentic, fun token' t body hsign => hauthentic.of_sign hinj hsign⟩
  · exact h.accepts_cached hb hq hcached hne now r
  · exact h.accepts_alone hinj (remembers_run reference events) hb hq hreads hlate hhead hread
  · obtain ⟨-, htimestamp, hbody⟩ := Authentic.unique hinj h h' heq
    have hparsed := s.parsed
    rw [htimestamp, s'.parsed] at hparsed
    exact ⟨(Option.some.inj hparsed).symm, hbody⟩

end Verifying

/-! ## Samples -/

/-- An injective function of a key and a message. -/
def sampleMac (key message : Bytes) : Bytes := key.flatMap (fun b => [0, b]) ++ 1 :: message

theorem sampleMac_inj : ∀ k m k' m', sampleMac k m = sampleMac k' m' → k = k' ∧ m = m'
  | [], _, [], _, h => ⟨rfl, (List.cons.inj h).2⟩
  | [], _, _ :: _, _, h => absurd (List.cons.inj h).1 (by decide)
  | _ :: _, _, [], _, h => absurd (List.cons.inj h).1 (by decide)
  | b :: k, m, b' :: k', m', h => by
    obtain ⟨hb, hrest⟩ := List.cons.inj (List.cons.inj h).2
    obtain ⟨hk, hm⟩ := sampleMac_inj k m k' m' hrest
    exact ⟨by rw [hb, hk], hm⟩

def sampleToken : Bytes := [7]

def sampleReads : Reads Unit := ⟨some (some ()), fun _ => some sampleToken⟩

/-- A request with a timestamp's text, and a signature under a token. -/
def sampleRequest (token timestamp body : Bytes) (receivedAt : Time) : Request :=
  ⟨[(relayTimestampHeader, [timestamp]),
    (relaySignatureHeader, [relaySignatureVersion ++ [0x3D] ++ hexEncode (relaySignature sampleMac token timestamp body)])],
    body, receivedAt⟩

/-- One call from its arrival on. -/
def sampleRun (q : Request) (now : Time) : List (Event Unit) := .arrive q :: alone 0 now now now sampleReads sampleReads sampleReads

theorem relayed_requests_verified_sample :
    Verifies sampleMac (run sampleMac (some ()) (sampleRun (sampleRequest sampleToken (ascii "5") (List.replicate 24 0x61) (unix 5)) 1)) :=
  (relayed_requests_verified sampleMac sampleMac_inj (some ()) _).1

/-- **The seconds have other texts than the one that is signed**: a sender with the token may write a sign or leading zeros,
and the largest seconds have no time value, so that they are near the smallest times; a clock that reads the zero time does
not space renewals. -/
theorem unsigned_pair_accepted :
    (let q := sampleRequest sampleToken (ascii "+5") (List.replicate 23 0x61) (unix 5)
     ((run sampleMac (some ()) (sampleRun q 1)).calls.map Verification.result = [some (.accepted sampleToken)] ∧
       ∀ token t body, q.header.get relaySignatureHeader ≠ signRelayedRequest sampleMac token t body)) ∧
      (let q := sampleRequest sampleToken (ascii "9223372036854775807") (List.replicate 6 0x61) (unix 9223372036854775807)
       ((run sampleMac (some ()) (sampleRun q 1)).calls.map Verification.result = [some (.accepted sampleToken)] ∧
         ¬ (-relayTimestampTolerance ≤ q.receivedAt - (9223372036854775807 + unixToInternal) * second))) ∧
      (let q := sampleRequest [8] (ascii "5") (List.replicate 24 0x61) (unix 5)
       (run sampleMac (some ()) (sampleRun q 0 ++ .arrive q :: alone 1 0 0 0 sampleReads sampleReads sampleReads)).starts = [0, 0]) := by
  refine ⟨⟨by decide, fun token t body hsign => ?_⟩, ⟨by decide, by decide⟩, by decide⟩
  have hauthentic : Authentic sampleMac (sampleRequest sampleToken (ascii "+5") (List.replicate 23 0x61) (unix 5)) sampleToken :=
    ⟨⟨5, relaySignature sampleMac sampleToken (ascii "+5") (List.replicate 23 0x61), by decide, by decide,
      by decide, by decide⟩, rfl⟩
  have htext := (hauthentic.of_sign sampleMac_inj hsign).2.1
  exact head_formatInt (unixSeconds t) (by rw [← htext]; rfl)

end Relay
end Dex
