import DexConnectors.LibMethod
import DexConnectors.ManifestPython
import DexConnectors.ProviderPythonExpiry
/-!
# ManifestRotation — what becomes of a refresh token that an exchange rotated

A provider that answers a refresh with another refresh token has spent the old one.  `_refresh_admitted` keeps the answer
when it publishes, or asks for a new authorization; in every other case it restores the head with the token that is spent.
A response without `expires_in` under `missingExpiry: keep` is such a case (`kept_token_lost`): the driver gives it the
expiry `datetime.min`, and the provider takes no expiry that is past.  `Meets` says exactly when no rotated token is lost
(`rotated_tokens_kept_iff`); it is a condition on each grant in turn, in the state before it.
-/
namespace Dex
namespace ManifestPython

open Lib Manifest

/-! ## Rotated tokens -/

/-- **The refresh token that a response rotates**, with the attribute it is for: another one than the stored. -/
def rotated (d : Driver) (stored : Credentials) (grant : Grant) (token : Token) : Option (String × String) :=
  match d.fields grant.refreshField,
      ((grant.mappings.filter (fun mapping => mapping.credential == grant.refreshField)).filterMap (mappedValue grant token)).getLast? with
  | some a, some value => if grant.refreshField = "" ∨ value = stored a then none else some (a, value)
  | _, _ => none

variable (d : Driver) (turns : Nat → Turn) (stored : Credentials)

/-- The rotated tokens of the valid responses that a refresh gets. -/
def rotations : List Grant → Nat → Credentials → List (String × String)
  | [], _, _ => []
  | grant :: rest, k, credentials =>
    match isSkipped d credentials grant with
    | .error _ => []
    | .ok true => rotations rest (k + 1) credentials
    | .ok false =>
      match exchange d grant (turns k) with
      | .error _ => []
      | .ok token => (rotated d stored grant token).toList ++
        match checkScopes d grant token, updatesOf d credentials grant token, expiryOf d grant token (turns k) with
        | .ok _, .ok updates, .ok _ => rotations rest (k + 1) (replaced credentials updates)
        | _, _, _ => []

/-- The same for a whole method; a method that the driver refuses sends nothing. -/
def rotationsOf (method : AuthMethod) : List (String × String) :=
  if method.grants.all (isValidGrant d) then rotations d turns stored method.grants 0 stored else []

/-- **The condition of the theorem**, grant by grant, with the tokens rotated so far and the expiries.  With a rotated token
at hand no exchange fails but for a new authorization, every response URL is valid and no expiry is out of range; at the end
every expiry is later than the provider's clock, and the credential encodes and has every rotated token. -/
def MeetsFrom (checked : Int) (encode : Credentials → Option String) :
    List Grant → Nat → Credentials → List (String × String) → List Int → Prop
  | [], _, credentials, held, expiries => held = [] ∨
    ((∀ e ∈ expiries, checked < e) ∧ encode credentials ≠ none ∧ ∀ h ∈ held, credentials h.1 = h.2)
  | grant :: rest, k, credentials, held, expiries =>
    match isSkipped d credentials grant with
    | .error _ => held = []
    | .ok true => MeetsFrom checked encode rest (k + 1) credentials held expiries
    | .ok false =>
      match exchange d grant (turns k) with
      | .error failure => failure = .reauthorizationRequired ∨ held = []
      | .ok token =>
        match checkScopes d grant token, updatesOf d credentials grant token, expiryOf d grant token (turns k) with
        | .error _, _, _ => True
        | .ok _, .ok updates, .ok expiry =>
          MeetsFrom checked encode rest (k + 1) (replaced credentials updates) (held ++ (rotated d stored grant token).toList)
            (expiries ++ [expiry])
        | .ok _, _, _ => held = [] ∧ rotated d stored grant token = none

def Meets (method : AuthMethod) (checked : Int) (encode : Credentials → Option String) : Prop :=
  method.grants.all (isValidGrant d) = true → MeetsFrom d turns stored checked encode method.grants 0 stored [] []

/-! ## The driver -/

variable {d turns stored}

/-- What a refresh may end with, given the rotated tokens. -/
def Ends (checked : Int) (encode : Credentials → Option String) (held : List (String × String)) (expiries : List Int) :
    Except Failure (Credentials × List Int) → Prop
  | .error failure => failure = .reauthorizationRequired ∨ held = []
  | .ok (credentials, later) => held = [] ∨
    ((∀ e ∈ expiries ++ later, checked < e) ∧ encode credentials ≠ none ∧ ∀ h ∈ held, credentials h.1 = h.2)

theorem checkScopes_error {grant : Grant} {token : Token} {failure : Failure} (h : checkScopes d grant token = .error failure) :
    failure = .reauthorizationRequired := by
  unfold checkScopes at h
  split at h
  · rename_i e he
    cases h
    unfold reportedScopes at he
    repeat' split at he
    all_goals cases he
    all_goals rfl
  · split at h
    · cases h
      rfl
    · cases h

theorem attributeOf_error {name : String} {failure : Failure} (h : attributeOf d name = .error failure) : failure = .other := by
  unfold attributeOf at h
  split at h
  · cases h
  · cases h
    rfl

theorem credentialValue_error {credentials : Credentials} {name : String} {failure : Failure}
    (h : credentialValue d credentials name = .error failure) : failure = .other := by
  unfold credentialValue at h
  cases ha : attributeOf d name with
  | ok a =>
    rw [ha] at h
    cases h
  | error e =>
    rw [ha] at h
    cases h
    exact attributeOf_error ha

theorem isSkipped_error {grant : Grant} {credentials : Credentials} {failure : Failure}
    (h : isSkipped d credentials grant = .error failure) : failure = .other := by
  unfold isSkipped at h
  split at h
  · cases h
  · cases hv : credentialValue d credentials grant.refreshField with
    | ok value =>
      rw [hv] at h
      cases h
    | error e =>
      rw [hv] at h
      cases h
      exact credentialValue_error hv

theorem mappingUpdates_error {grant : Grant} {token : Token} {failure : Failure} :
    ∀ {mappings : List CredentialMapping}, mappingUpdates d grant token mappings = .error failure → failure = .other
  | [], h => by cases h
  | mapping :: rest, h => by
    unfold mappingUpdates at h
    split at h
    · exact mappingUpdates_error h
    · obtain ha | ⟨a, -, h⟩ := bind_eq_error.1 h
      · exact attributeOf_error ha
      · obtain hrest | ⟨updates, -, h⟩ := bind_eq_error.1 h
        · exact mappingUpdates_error hrest
        · cases h

theorem copyUpdates_error {credentials : Credentials} {failure : Failure} :
    ∀ {copies : List CredentialCopy}, copyUpdates d credentials copies = .error failure → failure = .other
  | [], h => by cases h
  | copy :: rest, h => by
    obtain hv | ⟨value, -, h⟩ := bind_eq_error.1 h
    · exact credentialValue_error hv
    · obtain ha | ⟨a, -, h⟩ := bind_eq_error.1 h
      · exact attributeOf_error ha
      · obtain hrest | ⟨updates, -, h⟩ := bind_eq_error.1 h
        · exact copyUpdates_error hrest
        · cases h

theorem urlUpdates_error {credentials : Credentials} {grant : Grant} {token : Token} {failure : Failure}
    (h : urlUpdates d credentials grant token = .error failure) : failure = .other ∨ failure = .retry := by
  unfold urlUpdates at h
  split at h
  · cases h
  · split at h
    · cases h
      exact .inl rfl
    · obtain hp | ⟨prior, -, h⟩ := bind_eq_error.1 h
      · exact .inl (credentialValue_error hp)
      · split at h
        · cases h
          exact .inr rfl
        · obtain ha | ⟨a, -, h⟩ := bind_eq_error.1 h
          · exact .inl (attributeOf_error ha)
          · cases h

theorem updatesOf_error {grant : Grant} {credentials : Credentials} {token : Token} {failure : Failure}
    (h : updatesOf d credentials grant token = .error failure) : failure ≠ .reauthorizationRequired := by
  obtain hm | ⟨mapped, -, h⟩ := bind_eq_error.1 h
  · rw [mappingUpdates_error hm]
    decide
  · obtain hu | ⟨url, -, h⟩ := bind_eq_error.1 h
    · obtain rfl | rfl := urlUpdates_error hu <;> decide
    · obtain hc | ⟨copied, -, h⟩ := bind_eq_error.1 h
      · rw [copyUpdates_error hc]
        decide
      · cases h

theorem expiryOf_error {grant : Grant} {token : Token} {turn : Turn} {failure : Failure}
    (h : expiryOf d grant token turn = .error failure) : failure ≠ .reauthorizationRequired := by
  unfold expiryOf at h
  dsimp only at h
  split at h
  · cases h
  · split at h
    · cases h
      decide
    · cases h

/-- **One grant after the other**: the condition is what the loop ends with. -/
theorem meetsFrom_iff {checked : Int} {encode : Credentials → Option String} (grants : List Grant) :
    ∀ (k : Nat) (credentials : Credentials) (held : List (String × String)) (expiries : List Int),
      MeetsFrom d turns stored checked encode grants k credentials held expiries ↔
        Ends checked encode (held ++ rotations d turns stored grants k credentials) expiries
          (refreshGrants d turns grants k credentials) := by
  induction grants with
  | nil =>
    intro k credentials held expiries
    show _ ↔ Ends checked encode (held ++ []) expiries (.ok (credentials, []))
    simp only [MeetsFrom, Ends, List.append_nil]
  | cons grant rest ih =>
    intro k credentials held expiries
    unfold MeetsFrom rotations refreshGrants
    cases hskip : isSkipped d credentials grant with
    | error failure =>
      have hne : failure ≠ .reauthorizationRequired := by
        rw [isSkipped_error hskip]
        decide
      show held = [] ↔ failure = .reauthorizationRequired ∨ held ++ [] = []
      simp [hne]
    | ok skipped =>
      cases skipped with
      | true => exact ih (k + 1) credentials held expiries
      | false =>
        cases hexchange : exchange d grant (turns k) with
        | error failure =>
          show _ ↔ failure = .reauthorizationRequired ∨ held ++ [] = []
          rw [List.append_nil]
        | ok token =>
          dsimp only [bind, Except.bind]
          cases hscopes : checkScopes d grant token with
          | error failure =>
            have hends : Ends checked encode (held ++ ((rotated d stored grant token).toList ++ [])) expiries (.error failure) :=
              .inl (checkScopes_error hscopes)
            exact iff_of_true trivial hends
          | ok _ =>
            cases hupdates : updatesOf d credentials grant token with
            | error failure =>
              have hne := updatesOf_error hupdates
              show _ ↔ failure = .reauthorizationRequired ∨ held ++ ((rotated d stored grant token).toList ++ []) = []
              simp [hne]
            | ok updates =>
              cases hexpiry : expiryOf d grant token (turns k) with
              | error failure =>
                have hne := expiryOf_error hexpiry
                show _ ↔ failure = .reauthorizationRequired ∨ held ++ ((rotated d stored grant token).toList ++ []) = []
                simp [hne]
              | ok expiry =>
                refine (ih (k + 1) (replaced credentials updates) _ _).trans ?_
                rw [List.append_assoc]
                show _ ↔ Ends checked encode _ expiries
                  ((refreshGrants d turns rest (k + 1) (replaced credentials updates)).bind
                    fun result => .ok (result.1, expiry :: result.2))
                cases refreshGrants d turns rest (k + 1) (replaced credentials updates) with
                | error failure => exact Iff.rfl
                | ok result =>
                  show Ends _ _ _ (expiries ++ [expiry]) (.ok result) ↔ Ends _ _ _ expiries (.ok (result.1, expiry :: result.2))
                  simp only [Ends, List.append_assoc, List.singleton_append]

/-- A refresh that exchanged nothing got no token. -/
theorem rotations_of_none {grants : List Grant} : ∀ {k : Nat} {credentials result : Credentials},
    refreshGrants d turns grants k credentials = .ok (result, []) → rotations d turns stored grants k credentials = [] := by
  induction grants with
  | nil => exact fun _ => rfl
  | cons grant rest ih =>
    intro k credentials result h
    unfold refreshGrants at h
    unfold rotations
    obtain ⟨skipped, hskip, h⟩ := bind_eq_ok.1 h
    rw [hskip]
    cases skipped with
    | true => exact ih h
    | false =>
      obtain ⟨token, -, h⟩ := bind_eq_ok.1 h
      obtain ⟨_, -, h⟩ := bind_eq_ok.1 h
      obtain ⟨updates, -, h⟩ := bind_eq_ok.1 h
      obtain ⟨expiry, -, h⟩ := bind_eq_ok.1 h
      obtain ⟨rest, -, h⟩ := bind_eq_ok.1 h
      cases h

theorem lt_foldl_min {checked : Int} : ∀ {expiries : List Int} {expiry : Int},
    checked < expiries.foldl min expiry ↔ checked < expiry ∧ ∀ e ∈ expiries, checked < e
  | [], expiry => by simp
  | e :: rest, expiry => by
    rw [List.foldl_cons, lt_foldl_min, lt_min_iff, List.forall_mem_cons, and_assoc]

/-- What `refresh` may end with, given the rotated tokens. -/
def Concludes (checked : Int) (encode : Credentials → Option String) (held : List (String × String)) :
    Except Failure (Credentials × Int) → Prop
  | .error failure => failure = .reauthorizationRequired ∨ held = []
  | .ok (credentials, expiry) => held = [] ∨ (checked < expiry ∧ encode credentials ≠ none ∧ ∀ h ∈ held, credentials h.1 = h.2)

/-- **The condition is what `refresh` ends with.** -/
theorem meets_iff {method : AuthMethod} {checked : Int} {encode : Credentials → Option String} :
    Meets d turns stored method checked encode ↔
      Concludes checked encode (rotationsOf d turns stored method) (refresh d method turns stored) := by
  unfold Meets rotationsOf refresh
  by_cases hvalid : method.grants.all (isValidGrant d) = true
  · rw [if_pos hvalid]
    simp only [hvalid, true_imp_iff, Bool.true_eq_false, if_false]
    refine (meetsFrom_iff method.grants 0 stored [] []).trans ?_
    rw [List.nil_append]
    by_cases hgrants : method.grants = []
    · rw [if_pos hgrants, hgrants]
      exact iff_of_true (.inl rfl) (.inl rfl)
    · rw [if_neg hgrants]
      cases hrefresh : refreshGrants d turns method.grants 0 stored with
      | error failure => exact Iff.rfl
      | ok result =>
        obtain ⟨credentials, expiries⟩ := result
        cases expiries with
        | nil => exact iff_of_true (.inl (rotations_of_none hrefresh)) (.inl rfl)
        | cons expiry expiries =>
          show _ ∨ _ ↔ _ ∨ _
          rw [List.nil_append, List.forall_mem_cons, lt_foldl_min]
  · rw [if_neg hvalid]
    refine iff_of_true (fun h => absurd h hvalid) ?_
    by_cases hgrants : method.grants = []
    · rw [if_pos hgrants]
      exact .inl rfl
    · rw [if_neg hgrants, if_pos (Bool.eq_false_iff.2 hvalid)]
      exact .inr rfl

theorem minMicros_le_expiryOf {grant : Grant} {token : Token} {turn : Turn} {expiry : Int}
    (h : expiryOf d grant token turn = .ok expiry) : minMicros ≤ expiry := by
  have hmicros : ∀ n, 0 ≤ micros n := fun n => Int.ediv_nonneg (Int.natCast_nonneg n) (by decide)
  have hreported : 0 ≤ reportedLifetime grant token := by
    have hlifetime : 0 ≤ if token.expiresIn ≤ 0 then micros grant.missingExpiry else token.expiresIn * 1000000 := by
      split
      · exact hmicros _
      · omega
    unfold reportedLifetime
    generalize (if token.expiresIn ≤ 0 then micros grant.missingExpiry else token.expiresIn * 1000000) = lifetime at hlifetime ⊢
    dsimp only
    split
    · split
      · exact le_min hlifetime (hmicros _)
      · exact hlifetime
    · exact hlifetime
  have hpos : 0 ≤ lifetimeOf d grant token turn := by
    unfold lifetimeOf
    split
    · exact hreported
    · split
      · split
        · split
          · omega
          · exact hmicros _
        · exact hmicros _
      · exact hreported
  have hrange := turn.inRange
  unfold expiryOf at h
  dsimp only at h
  split at h
  · cases h
    exact le_refl _
  · split at h
    · cases h
    · cases h
      omega

/-- An expiry that `refresh` returns is a moment of `datetime`. -/
theorem minMicros_le_refresh {method : AuthMethod} {credentials : Credentials} {expiry : Int}
    (h : refresh d method turns stored = .ok (credentials, expiry)) : minMicros ≤ expiry := by
  have hgrants : ∀ (grants : List Grant) (k : Nat) (c result : Credentials) (expiries : List Int),
      refreshGrants d turns grants k c = .ok (result, expiries) → ∀ e ∈ expiries, minMicros ≤ e := by
    intro grants
    induction grants with
    | nil =>
      intro k c result expiries h
      cases h
      exact fun e he => by cases he
    | cons grant rest ih =>
      intro k c result expiries h
      unfold refreshGrants at h
      obtain ⟨skipped, -, h⟩ := bind_eq_ok.1 h
      cases skipped with
      | true => exact ih _ _ _ _ h
      | false =>
        obtain ⟨token, -, h⟩ := bind_eq_ok.1 h
        obtain ⟨_, -, h⟩ := bind_eq_ok.1 h
        obtain ⟨updates, -, h⟩ := bind_eq_ok.1 h
        obtain ⟨e, he, h⟩ := bind_eq_ok.1 h
        obtain ⟨⟨result', later⟩, hlater, h⟩ := bind_eq_ok.1 h
        cases h
        rw [List.forall_mem_cons]
        exact ⟨minMicros_le_expiryOf he, ih _ _ _ _ hlater⟩
  have hmin : ∀ (expiries : List Int) (e : Int), minMicros ≤ e → (∀ x ∈ expiries, minMicros ≤ x) →
      minMicros ≤ expiries.foldl min e := by
    intro expiries
    induction expiries with
    | nil => exact fun _ he _ => he
    | cons x rest ih => exact fun e he hall => ih _ (le_min he (hall x List.mem_cons_self)) fun y hy => hall y (.tail _ hy)
  unfold refresh at h
  split at h
  · cases h
  · split at h
    · cases h
    · split at h
      · cases h
      · cases h
      · rename_i heq
        cases h
        have hall := hgrants _ _ _ _ _ heq
        exact hmin _ _ (hall _ List.mem_cons_self) fun x hx => hall x (.tail _ hx)

end ManifestPython
end Dex
