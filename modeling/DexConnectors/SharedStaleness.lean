import DexConnectors.SharedModel
import DexConnectors.SharedPythonModel
import DexConnectors.SharedTypeScriptModel
/-!
# SharedStaleness — when the three SDKs read a shared credential again (`shared_connection.go`, `broker.py`, `shared_connections.ts`)

A credential is judged by four moments, in nanoseconds: its issue and its expiry, where the broker gave them, the end of the
broker read and the current time.  Python keeps whole microseconds of a moment and TypeScript whole milliseconds.  Each SDK has
a moment from which the credential is due (`goDue`, `pythonDue`, `typescriptDue`), and they judge alike before all three of them
and after.
-/
namespace Dex
namespace Staleness

open Shared (BrokerCredential)

def microseconds (t : Int) : Int := t / 1000

def milliseconds (t : Int) : Int := t / 1000000

/-- The credential as the Python client reads it from the broker's answer. -/
def asPython (c : BrokerCredential) : SharedPython.BrokerCredential :=
  ⟨"", c.revision, c.issuedAt.map microseconds, c.expiresAt.map microseconds, microseconds c.readAt, c.receipt⟩

/-- The entry that TypeScript's `#readBroker` leaves. -/
def asTypeScript (c : BrokerCredential) : SharedTypeScript.SharedEntry :=
  ⟨some ⟨"", c.revision, c.issuedAt.map milliseconds, c.expiresAt.map milliseconds, c.receipt⟩, milliseconds c.readAt,
    milliseconds c.readAt + 1000, [], none⟩

/-- **The three judge alike.** -/
structure Agree (c : BrokerCredential) (now : Int) : Prop where
  python     : SharedPython.isStale (asPython c) (microseconds now) = Shared.isStale c now
  typescript : SharedTypeScript.isFresh (asTypeScript c) (milliseconds now) = !Shared.isStale c now

/-- **What is not stale has not expired**, in each of the three. -/
structure Unexpired (c : BrokerCredential) (now : Int) : Prop where
  go         : Shared.isStale c now = false → ∀ expiresAt, c.expiresAt = some expiresAt → now < expiresAt
  python     : SharedPython.isStale (asPython c) (microseconds now) = false → ∀ expiresAt, c.expiresAt = some expiresAt → now < expiresAt
  typescript : SharedTypeScript.isFresh (asTypeScript c) (milliseconds now) = true → ∀ expiresAt, c.expiresAt = some expiresAt →
    now < expiresAt

/-! ## When a credential is due -/

/-- A quarter of the known lifetime before the expiry, five minutes at most, and five minutes when it is not known. -/
def goDue (c : BrokerCredential) : Int :=
  match c.expiresAt with
  | none => c.readAt + Shared.staticCredentialRereadInterval
  | some expiresAt => expiresAt - Shared.skew c.issuedAt (some expiresAt)

/-- Without an issue time the lifetime begins with the read; without a lifetime the credential is good until it expires. -/
def pythonDue (c : BrokerCredential) : Int :=
  match c.expiresAt with
  | none => 1000 * (microseconds c.readAt + 15 * SharedPython.minute)
  | some expiresAt =>
    let lifetime := microseconds expiresAt - microseconds (c.issuedAt.getD c.readAt)
    1000 * (microseconds expiresAt -
      if 0 < lifetime then min (5 * SharedPython.minute) (SharedPython.quarter lifetime) else 0)

/-- As in Go, but not in the first second after the read unless the credential expires. -/
def typescriptDue (c : BrokerCredential) : Int :=
  match c.expiresAt with
  | none => 1000000 * (milliseconds c.readAt + 900000)
  | some expiresAt =>
    let lifetime := match c.issuedAt with
      | none => 0
      | some issuedAt => milliseconds expiresAt - milliseconds issuedAt
    let skew := if 0 < lifetime then min 300000 (lifetime / 4) else 300000
    1000000 * min (milliseconds expiresAt) (max (milliseconds c.readAt + 1000) (milliseconds expiresAt - skew))

theorem go_isStale (c : BrokerCredential) (now : Int) : Shared.isStale c now = true ↔ goDue c ≤ now := by
  unfold Shared.isStale goDue
  cases c.expiresAt with
  | none =>
    dsimp only
    rw [decide_eq_true_eq]
    omega
  | some expiresAt =>
    dsimp only
    unfold Shared.isExpiryWithinSkew
    rw [decide_eq_true_eq]
    omega

theorem python_isStale (c : BrokerCredential) (now : Int) :
    SharedPython.isStale (asPython c) (microseconds now) = true ↔ pythonDue c ≤ now := by
  unfold SharedPython.isStale asPython pythonDue microseconds
  cases c.expiresAt with
  | none =>
    dsimp only [Option.map_none]
    rw [decide_eq_true_eq]
    omega
  | some expiresAt =>
    dsimp only [Option.map_some]
    have hissued : (c.issuedAt.map (fun t => t / 1000)).getD (c.readAt / 1000) = c.issuedAt.getD c.readAt / 1000 := by
      cases c.issuedAt <;> rfl
    rw [decide_eq_true_eq, hissued]
    omega

/-- `isFresh` of an entry that holds a credential. -/
theorem isFresh_some {entry : SharedTypeScript.SharedEntry} {credential : SharedTypeScript.BrokerCredential} (h : entry.cached = some credential)
    (now : Int) : SharedTypeScript.isFresh entry now = true ↔
      SharedTypeScript.isUnexpired credential now = true ∧ (now < entry.notBefore ∨
        match credential.expiresAt with
        | none => now - entry.readAt < 15 * 60000
        | some expiresAt =>
          let lifetime : Int := match credential.issuedAt with
            | none => 0
            | some issuedAt => expiresAt - issuedAt
          4 * now + (if 0 < lifetime then min (4 * (5 * 60000)) lifetime else 4 * (5 * 60000)) < 4 * expiresAt) := by
  unfold SharedTypeScript.isFresh
  rw [h]
  dsimp only
  by_cases hexpired : SharedTypeScript.isUnexpired credential now = false
  · rw [if_pos hexpired, hexpired]
    exact ⟨fun h => (by cases h), fun h => (by cases h.1)⟩
  have hunexpired : SharedTypeScript.isUnexpired credential now = true := by rwa [Bool.not_eq_false] at hexpired
  rw [if_neg hexpired, hunexpired]
  by_cases hsoon : now < entry.notBefore
  · rw [if_pos hsoon]
    exact ⟨fun _ => ⟨rfl, .inl hsoon⟩, fun _ => rfl⟩
  rw [if_neg hsoon]
  cases credential.expiresAt with
  | none =>
    rw [decide_eq_true_eq]
    exact ⟨fun h => ⟨rfl, .inr h⟩, fun h => h.2.resolve_left hsoon⟩
  | some expiresAt =>
    rw [decide_eq_true_eq]
    exact ⟨fun h => ⟨rfl, .inr h⟩, fun h => h.2.resolve_left hsoon⟩

theorem typescript_isFresh (c : BrokerCredential) (now : Int) :
    SharedTypeScript.isFresh (asTypeScript c) (milliseconds now) = true ↔ now < typescriptDue c := by
  rw [isFresh_some rfl]
  unfold asTypeScript typescriptDue SharedTypeScript.isUnexpired milliseconds
  cases c.expiresAt with
  | none =>
    dsimp only [Option.map_none]
    rw [eq_self_iff_true, true_and]
    omega
  | some expiresAt =>
    cases c.issuedAt with
    | none =>
      dsimp only [Option.map_some, Option.map_none]
      rw [decide_eq_true_eq, if_neg (Int.lt_irrefl 0), if_neg (Int.lt_irrefl 0)]
      omega
    | some issuedAt =>
      dsimp only [Option.map_some]
      rw [decide_eq_true_eq]
      by_cases hlife : 0 < expiresAt / 1000000 - issuedAt / 1000000
      · rw [if_pos hlife, if_pos hlife]
        omega
      · rw [if_neg hlife, if_neg hlife]
        omega

/-! ## Agreement -/

theorem skew_nonneg (issuedAt expiresAt : Option Int) : 0 ≤ Shared.skew issuedAt expiresAt := by
  have hlife : 0 ≤ Shared.lifetime issuedAt expiresAt := by
    unfold Shared.lifetime
    split
    · split <;> omega
    · exact Int.le_refl 0
  unfold Shared.skew Shared.shareOfLifetime
  have hmax : 0 ≤ Shared.maximumSkew := by decide
  have hfour : Shared.lifetimeFraction = 4 := rfl
  rw [hfour]
  split
  · exact hmax
  · omega

theorem quarter_nonneg {lifetime : Int} (h : 0 < lifetime) : 0 ≤ SharedPython.quarter lifetime := by
  unfold SharedPython.quarter
  split <;> omega

/-- **No SDK takes an expired credential for a fresh one.** -/
theorem unexpired (c : BrokerCredential) (now : Int) : Unexpired c now := by
  refine ⟨fun h expiresAt he => ?_, fun h expiresAt he => ?_, fun h expiresAt he => ?_⟩
  · have hdue : ¬ goDue c ≤ now := fun hdue => by rw [(go_isStale c now).2 hdue] at h; cases h
    have hskew := skew_nonneg c.issuedAt (some expiresAt)
    unfold goDue at hdue
    rw [he] at hdue
    dsimp only at hdue
    omega
  · have hdue : ¬ pythonDue c ≤ now := fun hdue => by rw [(python_isStale c now).2 hdue] at h; cases h
    unfold pythonDue microseconds at hdue
    rw [he] at hdue
    dsimp only at hdue
    have hminute : SharedPython.minute = 60000000 := rfl
    split at hdue
    next hlife =>
      have := quarter_nonneg hlife
      omega
    · omega
  · have hdue := (typescript_isFresh c now).1 h
    unfold typescriptDue milliseconds at hdue
    rw [he] at hdue
    dsimp only at hdue
    omega

/-- **The three judge alike exactly when the credential is due for all of them or for none.** -/
theorem staleness_agrees_iff (c : BrokerCredential) (now : Int) :
    (Agree c now ∧ Unexpired c now) ↔
      (now < goDue c ∧ now < pythonDue c ∧ now < typescriptDue c) ∨
        (goDue c ≤ now ∧ pythonDue c ≤ now ∧ typescriptDue c ≤ now) := by
  have hgo := go_isStale c now
  have hpython := python_isStale c now
  have htypescript := typescript_isFresh c now
  constructor
  · rintro ⟨⟨hp, ht⟩, -⟩
    rw [hp] at hpython
    rw [ht] at htypescript
    cases hstale : Shared.isStale c now with
    | true =>
      rw [hstale] at hgo hpython htypescript
      exact .inr ⟨hgo.1 rfl, hpython.1 rfl, Int.not_lt.1 fun h => by cases htypescript.2 h⟩
    | false =>
      rw [hstale] at hgo hpython htypescript
      exact .inl ⟨Int.not_le.1 fun h => (by cases hgo.2 h), Int.not_le.1 fun h => (by cases hpython.2 h), htypescript.1 rfl⟩
  · intro h
    refine ⟨⟨?_, ?_⟩, unexpired c now⟩
    · rw [Bool.eq_iff_iff, hgo, hpython]
      omega
    · rw [Bool.eq_iff_iff, htypescript, Bool.not_eq_true', Bool.eq_false_iff, ne_eq, hgo]
      omega

/-- A credential of 100 seconds without an issue time, when half of them are over. -/
def sampleCredential : BrokerCredential := ⟨[], 1, none, some (100 * Shared.second), 0, 0⟩

theorem sample_disagrees : ¬ Agree sampleCredential (50 * Shared.second) := by
  intro h
  exact absurd h.python (by decide)

end Staleness
end Dex
