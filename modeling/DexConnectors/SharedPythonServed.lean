import DexConnectors.SharedPythonModel
/-!
# SharedPythonServed — what the Python shared-connection cache serves

`resolve_after_rejection` hands out what it finds or receives without looking at the expiry, and a terminal answer leaves
the cached credential in place.  So the Go cache's guarantees fail (`served_expired_and_revoked`).  They hold in every
run in which a forced read meets no expired credential and a terminal answer meets an empty cache (`Meets`,
`guarantees_of_meets`).
-/
namespace Dex
namespace SharedPython

open Lib

variable {ι : Type}

/-- **The condition of the theorem**, on the state and the broker's outcome at a step: a terminal answer arrives while
nothing is cached; a forced read at `now` receives a credential that expires after `now`; and a cached credential of
another revision than the rejected one expires after the reading of the call that takes it. -/
def Meets : (o : Op) → World ι → Ans o → Prop
  | .receive _, w, .raised exc => exc.isTerminal = true → w.cache.credential = none
  | .receive forcedAt, _, .ready credential => ∀ now, forcedAt = some now → isExpired credential now = false
  | .enterRejection callID, w, a =>
    ∀ c, w.cache.credential = some c → c.revision ≠ w.cache.rejectedRevision callID → isExpired c a.2.1 = false
  | _, _, _ => True

structure Inv (w : World ι) : Prop where
  cached   : ∀ c, w.cache.credential = some c → ∀ n ∈ w.terminal, n < c.receipt
  terminal : ∀ n ∈ w.terminal, n ≤ w.received

structure Rely (i : ι) (w w' : World ι) : Prop where
  lock     : w'.lock = some i ↔ w.lock = some i
  held     : w.lock = some i → w'.cache.credential = w.cache.credential ∧ w'.received = w.received ∧
    w'.terminal = w.terminal
  log      : w'.log i = w.log i
  clock    : w.clock ≤ w'.clock
  terminal : ∀ n ∈ w.terminal, n ∈ w'.terminal

theorem Rely.refl (i : ι) (w : World ι) : Rely i w w :=
  ⟨Iff.rfl, fun _ => ⟨rfl, rfl, rfl⟩, rfl, Int.le_refl _, fun _ h => h⟩

theorem Rely.trans (i : ι) {w w' w'' : World ι} (h : Rely i w w') (h' : Rely i w' w'') : Rely i w w'' := by
  refine ⟨h'.lock.trans h.lock, fun hs => ?_, h'.log.trans h.log, Int.le_trans h.clock h'.clock,
    fun n hn => h'.terminal n (h.terminal n hn)⟩
  obtain ⟨a1, a2, a3⟩ := h.held hs
  obtain ⟨b1, b2, b3⟩ := h'.held (h.lock.2 hs)
  exact ⟨b1.trans a1, b2.trans a2, b3.trans a3⟩

/-- The steps that meet the condition. -/
def stepMeeting [DecidableEq ι] (i : ι) (o : Op) (w : World ι) (a : Ans o) (w' : World ι) : Prop :=
  step i o w a w' ∧ Meets o w a

def protocol [DecidableEq ι] : Protocol Op Ans (World ι) ι where
  step := stepMeeting
  inv := Inv
  guar := fun i w w' => ∀ j, j ≠ i → Rely j w w'
  rely := Rely
  rely_refl := Rely.refl
  rely_trans := fun i => Rely.trans i
  guar_rely := fun _ j _ _ hne h => h j (Ne.symm hne)

/-! ## One operation -/

/-- What a task must know before an operation that only the holder of the lock performs. -/
def Pre (i : ι) : Op → World ι → Prop
  | .release, w => w.lock = some i
  | .receive _, w => w.lock = some i
  | .store c, w => w.lock = some i ∧ ∀ n ∈ w.terminal, n < c.receipt
  | _, _ => True

/-- An operation of task `i` that changes neither the lock nor the cached credential nor the answers. -/
theorem quiet_safe {i : ι} {w w' : World ι} (hinv : Inv w) (hlock : w'.lock = w.lock)
    (hcred : w'.cache.credential = w.cache.credential) (hrec : w'.received = w.received)
    (hterm : w'.terminal = w.terminal) (hclock : w.clock ≤ w'.clock) (hlog : ∀ j, j ≠ i → w'.log j = w.log j) :
    Inv w' ∧ ∀ j, j ≠ i → Rely j w w' := by
  refine ⟨⟨?_, ?_⟩, fun j hj => ⟨by rw [hlock], fun _ => ⟨hcred, hrec, hterm⟩, hlog j hj, hclock, ?_⟩⟩
  · rw [hcred, hterm]; exact hinv.cached
  · rw [hterm, hrec]; exact hinv.terminal
  · rw [hterm]; exact fun _ h => h

/-- An operation of the holder `i` of the lock leaves the other tasks what they rely on. -/
theorem rely_of_holder {i j : ι} {w w' : World ι} (hj : j ≠ i) (hlock : w.lock = some i) (hlock' : w'.lock ≠ some j)
    (hlog : w'.log j = w.log j) (hclock : w.clock ≤ w'.clock) (hterm : ∀ n ∈ w.terminal, n ∈ w'.terminal) :
    Rely j w w' := by
  have hne : w.lock ≠ some j := fun h => hj (Option.some.inj (h.symm.trans hlock))
  exact ⟨⟨fun h => absurd h hlock', fun h => absurd h hne⟩, fun h => absurd h hne, hlog, hclock, hterm⟩

theorem fastCache_credential (cache : Cache) (callID : String) (now : Int) :
    (fastCache cache callID now).credential = cache.credential := by
  unfold fastCache
  split
  · rfl
  · rfl

variable [DecidableEq ι]

/-- **What every operation keeps.** -/
theorem step_safe {i : ι} {o : Op} {w w' : World ι} {a : Ans o} (hs : stepMeeting i o w a w') (hinv : Inv w)
    (hpre : Pre i o w) : Inv w' ∧ ∀ j, j ≠ i → Rely j w w' := by
  obtain ⟨hs, hmeets⟩ := hs
  cases o with
  | fast callID =>
    obtain ⟨now, hnow, -, rfl⟩ := hs
    exact quiet_safe hinv rfl (fastCache_credential _ _ _) rfl rfl hnow (fun j hj => if_neg hj)
  | acquire =>
    obtain ⟨hfree, -, rfl⟩ | ⟨-, rfl⟩ := hs
    · refine ⟨⟨hinv.cached, hinv.terminal⟩, fun j hj => ⟨?_, fun _ => ⟨rfl, rfl, rfl⟩, rfl, Int.le_refl _, fun _ h => h⟩⟩
      rw [hfree]
      simp [Ne.symm hj]
    · exact ⟨hinv, fun j _ => Rely.refl j w'⟩
  | release =>
    rw [show w' = _ from hs]
    exact ⟨⟨hinv.cached, hinv.terminal⟩,
      fun j hj => rely_of_holder hj hpre (by simp) rfl (Int.le_refl _) fun _ h => h⟩
  | enter =>
    obtain ⟨now, hnow, -, rfl⟩ := hs
    exact quiet_safe hinv rfl rfl rfl rfl hnow (fun j hj => if_neg hj)
  | enterRejection callID =>
    obtain ⟨now, hnow, -, rfl⟩ := hs
    exact quiet_safe hinv rfl rfl rfl rfl hnow (fun j hj => if_neg hj)
  | send rejectedRevision =>
    rw [show w' = w from hs]
    exact ⟨hinv, fun j _ => Rely.refl j w⟩
  | receive forcedAt =>
    have hlock : ∀ j, j ≠ i → w.lock ≠ some j := fun j hj h => hj (Option.some.inj (h.symm.trans hpre))
    cases a with
    | ready c =>
      obtain ⟨-, -, rfl⟩ := hs
      exact ⟨⟨hinv.cached, fun n hn => Nat.le_succ_of_le (hinv.terminal n hn)⟩,
        fun j hj => rely_of_holder hj hpre (hlock j hj) rfl (Int.le_refl _) fun _ h => h⟩
    | raised exc =>
      obtain ⟨-, rfl⟩ := hs
      refine ⟨⟨fun c hc n hn => ?_, fun n hn => ?_⟩, fun j hj => ?_⟩
      · simp only at hn
        split at hn
        · rename_i hterm
          have := hmeets hterm
          rw [this] at hc
          cases hc
        · exact hinv.cached c hc n hn
      · simp only at hn ⊢
        split at hn
        · rcases List.mem_cons.1 hn with rfl | hn
          · exact Nat.le_refl _
          · exact Nat.le_succ_of_le (hinv.terminal n hn)
        · exact Nat.le_succ_of_le (hinv.terminal n hn)
      · refine rely_of_holder hj hpre (hlock j hj) rfl (Int.le_refl _) fun n hn => ?_
        simp only
        split
        · exact List.mem_cons_of_mem _ hn
        · exact hn
  | store c =>
    rw [show w' = _ from hs]
    obtain ⟨hheld, hrec⟩ := hpre
    refine ⟨⟨fun c' hc => ?_, hinv.terminal⟩, fun j hj => ?_⟩
    · cases hc
      exact hrec
    · exact rely_of_holder hj hheld (fun h => hj (Option.some.inj (h.symm.trans hheld))) rfl (Int.le_refl _) fun _ h => h
  | deferRead now | recordIssued =>
    rw [show w' = _ from hs]
    exact quiet_safe hinv rfl rfl rfl rfl (Int.le_refl _) (fun _ _ => rfl)

/-! ## The methods -/

variable {i : ι} {w₀ w : World ι}

/-- Task `i`, which started at `w₀`, has made the readings `times`. -/
structure Here (w₀ : World ι) (i : ι) (times : List Int) (w : World ι) : Prop where
  log      : w.log i = times ++ w₀.log i
  clock    : ∀ t ∈ times, t ≤ w.clock
  terminal : ∀ n ∈ w₀.terminal, n ∈ w.terminal

omit [DecidableEq ι] in
theorem Here.rely {times : List Int} {w' : World ι} (h : Here w₀ i times w) (hr : Rely i w w') : Here w₀ i times w' :=
  ⟨hr.log.trans h.log, fun t ht => Int.le_trans (h.clock t ht) hr.clock, fun n hn => hr.terminal n (h.terminal n hn)⟩

omit [DecidableEq ι] in
theorem Here.withCache {times : List Int} (h : Here w₀ i times w) (cache : Cache) : Here w₀ i times (w.withCache cache) :=
  ⟨h.log, h.clock, h.terminal⟩

theorem Here.tick {times : List Int} {now : Int} (h : Here w₀ i times w) (hnow : w.clock ≤ now) :
    Here w₀ i (now :: times) (w.tick i now) := by
  refine ⟨?_, fun t ht => ?_, h.terminal⟩
  · show (if i = i then now :: w.log i else w.log i) = _
    rw [if_pos rfl, h.log]
    rfl
  · rcases List.mem_cons.1 ht with rfl | ht
    · exact Int.le_refl _
    · exact Int.le_trans (h.clock t ht) hnow

/-- **A credential that task `i`, followed from `w₀`, may return**: unexpired at every reading of the call, and received
after every terminal answer before `w₀`. -/
structure Guaranteed (w₀ : World ι) (i : ι) (c : BrokerCredential) (w : World ι) : Prop where
  unexpired : ∃ times, w.log i = times ++ w₀.log i ∧ ∀ t ∈ times, isExpired c t = false
  receipt   : ∀ n ∈ w₀.terminal, n < c.receipt

omit [DecidableEq ι] in
theorem Guaranteed.log {c : BrokerCredential} {w' : World ι} (h : Guaranteed w₀ i c w) (hl : w'.log i = w.log i) :
    Guaranteed w₀ i c w' := by
  obtain ⟨times, ht, hu⟩ := h.unexpired
  exact ⟨⟨times, hl.trans ht, hu⟩, h.receipt⟩

def Post (w₀ : World ι) (i : ι) (result : Except Exc BrokerCredential) (w : World ι) : Prop :=
  ∀ c, result = .ok c → Guaranteed w₀ i c w

omit [DecidableEq ι] in
theorem Post.log {result : Except Exc BrokerCredential} {w' : World ι} (h : Post w₀ i result w)
    (hl : w'.log i = w.log i) : Post w₀ i result w' :=
  fun c hc => (h c hc).log hl

theorem isExpired_mono {c : BrokerCredential} {t t' : Int} (h : isExpired c t' = false) (ht : t ≤ t') :
    isExpired c t = false := by
  unfold isExpired at h ⊢
  split at h
  · rfl
  · simp only [decide_eq_false_iff_not, Int.not_le] at h ⊢
    omega

theorem quarter_nonneg {lifetime : Int} (h : 0 < lifetime) : 0 ≤ quarter lifetime := by
  unfold quarter
  split <;> omega

/-- A credential that is not stale has not expired. -/
theorem isExpired_of_not_stale {c : BrokerCredential} {now : Int} (h : isStale c now = false) :
    isExpired c now = false := by
  unfold isStale at h
  unfold isExpired
  split at h
  · rfl
  · simp only [decide_eq_false_iff_not, Int.not_le] at h ⊢
    split at h
    · rename_i hpos
      have := quarter_nonneg hpos
      have : (0 : Int) ≤ 5 * minute := by decide
      omega
    · omega

theorem fast_some {cache : Cache} {now : Int} {c : BrokerCredential} (h : cache.fast now = some c) :
    cache.credential = some c ∧ isExpired c now = false := by
  unfold Cache.fast at h
  split at h
  · cases h
  rename_i current hc
  split at h
  · rename_i hcond
    cases h
    simp only [Bool.and_eq_true, Bool.not_eq_true'] at hcond
    exact ⟨hc, hcond.1⟩
  split at h
  · rename_i hstale
    cases h
    exact ⟨hc, isExpired_of_not_stale (by simpa using hstale)⟩
  · cases h

/-- **The proof rule of one operation.** -/
theorem safe_call {α : Type} {Q : α → World ι → Prop} {o : Op} {k : Ans o → P α}
    (hpre : ∀ w', Rely i w w' → Inv w' → Pre i o w')
    (hk : ∀ w' a w'', Rely i w w' → Inv w' → step i o w' a w'' → Meets o w' a → Inv w'' →
      protocol.Safe i Q (k a) w'') : protocol.Safe i Q (.call o k) w := by
  intro w' hr hinv a w'' hs
  obtain ⟨h1, h2⟩ := step_safe hs hinv (hpre w' hr hinv)
  exact ⟨h1, h2, hk w' a w'' hr hinv hs.1 hs.2 h1⟩

theorem leave_safe {result : Except Exc BrokerCredential} (hlock : w.lock = some i) (hpost : Post w₀ i result w) :
    protocol.Safe i (Post w₀ i) (leave result) w := by
  refine safe_call (fun w' hr _ => hr.lock.2 hlock) (fun w₁ _ w₂ hr _ hs _ _ => ?_)
  intro w' hr' _
  refine hpost.log (hr'.log.trans ?_)
  rw [show w₂ = _ from hs]
  exact hr.log

theorem leave_error {exc : Exc} (hlock : w.lock = some i) : protocol.Safe i (Post w₀ i) (leave (.error exc)) w :=
  leave_safe hlock fun _ h => by cases h

/-- Recording the call's revision and leaving with the credential. -/
theorem record_safe {callID : String} {c : BrokerCredential} {now : Int} (hlock : w.lock = some i)
    (hc : Guaranteed w₀ i c w) :
    protocol.Safe i (Post w₀ i) (.call (.recordIssued callID c.revision now) fun _ => leave (.ok c)) w := by
  refine safe_call (fun _ _ _ => trivial) (fun w₁ _ w₂ hr _ hs _ _ => ?_)
  rw [show w₂ = _ from hs]
  refine leave_safe (hr.lock.2 hlock) fun c' h => ?_
  cases h
  exact hc.log hr.log

/-- Serving what was found at the last reading `now`. -/
theorem serve_safe {callID : String} {current : Option BrokerCredential} {now : Int} {times : List Int}
    (hlock : w.lock = some i) (hhere : Here w₀ i (now :: times) w) (hle : ∀ t ∈ times, t ≤ now)
    (hcurrent : ∀ c, current = some c → ∀ n ∈ w₀.terminal, n < c.receipt) :
    protocol.Safe i (Post w₀ i) (serve callID current now) w := by
  unfold serve
  split
  · exact leave_error hlock
  rename_i c
  split
  · exact leave_error hlock
  rename_i hexp
  have hexp : isExpired c now = false := by simpa using hexp
  refine record_safe hlock ⟨⟨now :: times, hhere.log, fun t ht => ?_⟩, hcurrent c rfl⟩
  rcases List.mem_cons.1 ht with rfl | ht
  · exact hexp
  · exact isExpired_mono hexp (hle t ht)

theorem resolveLocked_safe (callID : String) {times : List Int} (hlock : w.lock = some i) (hhere : Here w₀ i times w) :
    protocol.Safe i (Post w₀ i) (resolveLocked callID) w := by
  refine safe_call (fun _ _ _ => trivial) (fun w₁ entered w₂ hr hinv₁ hs _ hinv₂ => ?_)
  obtain ⟨now, hnow, rfl, rfl⟩ := hs
  have hhere₁ := hhere.rely hr
  have hhere₂ := hhere₁.tick hnow
  have hlock₂ : (w₁.tick i now).lock = some i := hr.lock.2 hlock
  have hle : ∀ t ∈ times, t ≤ now := fun t ht => Int.le_trans (hhere₁.clock t ht) hnow
  have hcached : ∀ c, w₁.cache.credential = some c → ∀ n ∈ w₀.terminal, n < c.receipt :=
    fun c hc n hn => hinv₁.cached c hc n (hhere₁.terminal n hn)
  show protocol.Safe i _ (if w₁.cache.mustRead now = true then _ else _) _
  split
  · refine safe_call (fun _ _ _ => trivial) (fun w₃ _ w₄ hr₃ _ hs₃ _ _ => ?_)
    rw [show w₄ = w₃ from hs₃]
    have hlock₃ := hr₃.lock.2 hlock₂
    have hhere₃ := hhere₂.rely hr₃
    refine safe_call (fun w' hr' _ => hr'.lock.2 hlock₃) (fun w₅ outcome w₆ hr₅ hinv₅ hs₅ _ hinv₆ => ?_)
    have hlock₅ := hr₅.lock.2 hlock₃
    have hhere₅ := hhere₃.rely hr₅
    cases outcome with
    | ready c =>
      obtain ⟨-, hrec, rfl⟩ := hs₅
      have hrec₅ : ∀ n ∈ w₅.terminal, n < c.receipt := fun n hn => by have := hinv₅.terminal n hn; omega
      refine safe_call (fun w₇ hr₇ _ => ⟨hr₇.lock.2 hlock₅, ?_⟩) (fun w₇ _ w₈ hr₇ _ hs₇ _ _ => ?_)
      · rw [(hr₇.held hlock₅).2.2]
        exact hrec₅
      · rw [show w₈ = _ from hs₇]
        have hhere₇ := Here.rely (w := { w₅ with received := w₅.received + 1 })
          ⟨hhere₅.log, hhere₅.clock, hhere₅.terminal⟩ hr₇
        show protocol.Safe i _ (serve callID (some c) now) (w₇.withCache { w₇.cache with credential := some c })
        refine serve_safe (hr₇.lock.2 hlock₅) (hhere₇.withCache _) hle fun c' h n hn => ?_
        cases h
        exact hrec₅ n (hhere₅.terminal n hn)
    | raised exc =>
      obtain ⟨-, rfl⟩ := hs₅
      cases exc with
      | credentialBrokerUnavailable =>
        refine safe_call (fun _ _ _ => trivial) (fun w₇ _ w₈ hr₇ _ hs₇ _ _ => ?_)
        rw [show w₈ = _ from hs₇]
        have hhere₇ := Here.rely (w := { w₅ with received := w₅.received + 1 })
          ⟨hhere₅.log, hhere₅.clock, hhere₅.terminal⟩ hr₇
        exact serve_safe (w := w₇.withCache _) (hr₇.lock.2 hlock₅) (hhere₇.withCache _) hle hcached
      | credentialBrokerRejected => exact leave_error hlock₅
      | reauthorizationRequired => exact leave_error hlock₅
      | connectionNotSelected => exact leave_error hlock₅
      | rejectedCredentialNotRefreshed => exact leave_error hlock₅
      | canceled => exact leave_error hlock₅
  · exact serve_safe hlock₂ hhere₂ hle hcached

omit [DecidableEq ι] in
theorem here_start (w : World ι) (i : ι) : Here w i [] w := ⟨rfl, fun _ h => (by cases h), fun _ h => h⟩

theorem resolve_safe (callID : String) : protocol.Safe i (Post w i) (resolve callID) w := by
  refine safe_call (fun _ _ _ => trivial) (fun w₁ cached w₂ hr hinv₁ hs _ _ => ?_)
  obtain ⟨now, hnow, ha, rfl⟩ := hs
  have hhere₁ := (here_start w i).rely hr
  have hhere₂ : Here w i [now] ((w₁.withCache (fastCache w₁.cache callID now)).tick i now) :=
    (hhere₁.withCache _).tick hnow
  cases cached with
  | some c =>
    obtain ⟨hc, hexp⟩ := fast_some ha.symm
    intro w' hr' _ c' h
    cases h
    refine ⟨⟨[now], hr'.log.trans hhere₂.log, by simpa using hexp⟩, fun n hn => ?_⟩
    exact hinv₁.cached c hc n (hhere₁.terminal n hn)
  | none =>
    refine safe_call (fun _ _ _ => trivial) (fun w₃ failed w₄ hr₃ _ hs₃ _ _ => ?_)
    have hhere₃ := hhere₂.rely hr₃
    obtain ⟨-, rfl, rfl⟩ | ⟨rfl, rfl⟩ := hs₃
    · have hhere₄ : Here w i [now] { w₃ with lock := some i } := ⟨hhere₃.log, hhere₃.clock, hhere₃.terminal⟩
      exact resolveLocked_safe callID rfl hhere₄
    · intro w' _ _ c h
      cases h

theorem serveRejected_safe {callID : String} {c : BrokerCredential} {rejectedRevision : Nat} {now : Int}
    (hlock : w.lock = some i) (hhere : Here w₀ i [now] w) (hexp : c.revision ≠ rejectedRevision → isExpired c now = false)
    (hrec : ∀ n ∈ w₀.terminal, n < c.receipt) :
    protocol.Safe i (Post w₀ i) (serveRejected callID c rejectedRevision now) w := by
  unfold serveRejected
  split
  · exact leave_error hlock
  rename_i hne
  exact record_safe hlock ⟨⟨[now], hhere.log, by simpa using hexp hne⟩, hrec⟩

theorem otherRevision_some {cache : Cache} {rejectedRevision : Nat} {c : BrokerCredential}
    (h : otherRevision cache rejectedRevision = some c) :
    cache.credential = some c ∧ c.revision ≠ rejectedRevision := by
  unfold otherRevision at h
  split at h
  · cases h
  rename_i current hc
  split at h
  · rename_i hne
    cases h
    exact ⟨hc, hne⟩
  · cases h

theorem rejectionLocked_safe (callID : String) (hlock : w.lock = some i) (hhere : Here w₀ i [] w) :
    protocol.Safe i (Post w₀ i) (rejectionLocked callID) w := by
  refine safe_call (fun _ _ _ => trivial) (fun w₁ entered w₂ hr hinv₁ hs hmeets hinv₂ => ?_)
  obtain ⟨now, hnow, rfl, rfl⟩ := hs
  have hhere₁ := hhere.rely hr
  have hhere₂ := hhere₁.tick hnow
  have hlock₂ : (w₁.tick i now).lock = some i := hr.lock.2 hlock
  cases hother : otherRevision w₁.cache (w₁.cache.rejectedRevision callID) with
  | some other =>
    obtain ⟨hc, hne⟩ := otherRevision_some hother
    exact serveRejected_safe hlock₂ hhere₂ (fun _ => hmeets other hc hne)
      fun n hn => hinv₁.cached other hc n (hhere₁.terminal n hn)
  | none =>
    refine safe_call (fun _ _ _ => trivial) (fun w₃ _ w₄ hr₃ _ hs₃ _ _ => ?_)
    rw [show w₄ = w₃ from hs₃]
    have hlock₃ := hr₃.lock.2 hlock₂
    have hhere₃ := hhere₂.rely hr₃
    refine safe_call (fun w' hr' _ => hr'.lock.2 hlock₃) (fun w₅ outcome w₆ hr₅ hinv₅ hs₅ hmeets₅ hinv₆ => ?_)
    have hlock₅ := hr₅.lock.2 hlock₃
    have hhere₅ := hhere₃.rely hr₅
    cases outcome with
    | ready c =>
      obtain ⟨-, hrec, rfl⟩ := hs₅
      have hrec₅ : ∀ n ∈ w₅.terminal, n < c.receipt := fun n hn => by have := hinv₅.terminal n hn; omega
      refine safe_call (fun w₇ hr₇ _ => ⟨hr₇.lock.2 hlock₅, ?_⟩) (fun w₇ _ w₈ hr₇ _ hs₇ _ _ => ?_)
      · rw [(hr₇.held hlock₅).2.2]
        exact hrec₅
      · rw [show w₈ = _ from hs₇]
        have hhere₇ := Here.rely (w := { w₅ with received := w₅.received + 1 })
          ⟨hhere₅.log, hhere₅.clock, hhere₅.terminal⟩ hr₇
        exact serveRejected_safe (w := w₇.withCache _) (hr₇.lock.2 hlock₅) (hhere₇.withCache _)
          (fun _ => hmeets₅ now rfl) fun n hn => hrec₅ n (hhere₅.terminal n hn)
    | raised exc =>
      obtain ⟨-, rfl⟩ := hs₅
      exact leave_error hlock₅

theorem resolveAfterRejection_safe (callID : String) : protocol.Safe i (Post w i) (resolveAfterRejection callID) w := by
  refine safe_call (fun _ _ _ => trivial) (fun w₁ failed w₂ hr _ hs _ _ => ?_)
  have hhere₁ := (here_start w i).rely hr
  obtain ⟨-, rfl, rfl⟩ | ⟨rfl, rfl⟩ := hs
  · exact rejectionLocked_safe callID rfl ⟨hhere₁.log, hhere₁.clock, hhere₁.terminal⟩
  · intro w' _ _ c h
    cases h

theorem call_safe (call : Call) : protocol.Safe i (Post w i) call.program w := by
  cases call with
  | resolve callID => exact resolve_safe callID
  | resolveAfterRejection callID => exact resolveAfterRejection_safe callID

/-- The first READY answer of a run, and one that has expired. -/
def fresh : BrokerCredential := ⟨"token", 1, none, none, 0, 1⟩

def expired : BrokerCredential := ⟨"token", 1, none, some 3, 5, 1⟩

/-- A first `resolve`, which the broker serves. -/
theorem resolve_fresh (i : ι) : ∃ w : World ι, w.lock = none ∧ w.clock = 0 ∧ w.received = 1 ∧
    w.terminal = [] ∧ w.cache = ⟨some fresh, [], none⟩ ∧
    Prog.Exec (stepMeeting i) (Call.resolve "").program (World.init 0) (.ok fresh) w := by
  refine ⟨_, ?_, ?_, ?_, ?_, ?_, none, _, ⟨⟨0, Int.le_refl 0, rfl, rfl⟩, trivial⟩, none, _,
    ⟨.inl ⟨rfl, rfl, rfl⟩, trivial⟩, (none, 0, true), _, ⟨⟨0, Int.le_refl 0, rfl, rfl⟩, trivial⟩, (), _, ⟨rfl, trivial⟩,
    .ready fresh, _, ⟨⟨by decide, rfl, rfl⟩, by simp [Meets]⟩, (), _, ⟨rfl, trivial⟩, (), _, ⟨rfl, trivial⟩, (), _,
    ⟨rfl, trivial⟩, rfl, rfl⟩
  all_goals rfl

theorem expired_after_rejection : ∃ w : World Unit, (5 : Int) ∈ w.log () ∧
    Prog.Exec (step ()) (Call.resolveAfterRejection "").program (World.init 5) (.ok expired) w := by
  refine ⟨_, ?_, none, _, .inl ⟨rfl, rfl, rfl⟩, (none, 5, 0), _, ⟨5, by decide, rfl, rfl⟩, (), _, rfl, .ready expired, _,
    ⟨by decide, rfl, rfl⟩, (), _, rfl, (), _, rfl, (), _, rfl, rfl, rfl⟩
  simp [World.tick, World.withCache]

/-- A forced read that the broker refuses while a credential is cached, and a `resolve` after it. -/
theorem revoked_then_served {w : World (Fin 3)} (hlock : w.lock = none) (hclock : w.clock = 0) (hrec : w.received = 1)
    (hcache : w.cache = ⟨some fresh, [], none⟩) :
    ∃ w' w'' : World (Fin 3), 2 ∈ w'.terminal ∧ w''.received = 2 ∧
      Prog.Exec (step 1) (Call.resolveAfterRejection "").program w (.error .reauthorizationRequired) w' ∧
      Prog.Exec (step 2) (Call.resolve "").program w' (.ok fresh) w'' := by
  refine ⟨_, _, ?_, ?_, ⟨none, _, .inl ⟨hlock, rfl, rfl⟩, (none, 0, 1), _, ⟨0, Int.le_of_eq hclock, ?_, rfl⟩, (), _, rfl,
    .raised .reauthorizationRequired, _, ⟨by decide, rfl⟩, (), _, rfl, rfl, rfl⟩,
    some fresh, _, ⟨0, Int.le_refl 0, ?_, rfl⟩, rfl, rfl⟩
  · simp [World.tick, Exc.isTerminal, hrec]
  · simp [World.tick, World.withCache, hrec]
  · rw [hcache]
    rfl
  · show some fresh = w.cache.fast 0
    rw [hcache]
    rfl

end SharedPython
end Dex
