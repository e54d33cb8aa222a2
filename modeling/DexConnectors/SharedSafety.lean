import DexConnectors.SharedModel
/-!
# SharedSafety — what the Go shared-connection cache serves

Only the holder of the read slot talks to the broker, and what it does to the cache until it gives the slot back is
undisturbed (`Rely.held`).  So a cached credential arrived after every answer that made the cache forget (`Inv.cached`),
and a call that starts later can only be served by a later answer.  `step_safe` says once what an operation keeps, and
`safe_call` turns it into the proof rule the programs are followed with.
-/
namespace Dex
namespace Shared

open Lib

variable {ι : Type}

/-- **What holds of the cache in every state of a run.** -/
structure Inv (w : World ι) : Prop where
  cached   : ∀ c, w.connection.cached = some c → c.revision ≠ 0 ∧ ∀ n ∈ w.processed, n < c.receipt
  received : ∀ n ∈ w.processed, n ≤ w.received
  flight   : w.inFlight = [] ∨ ∃ i, w.inFlight = [i] ∧ w.slot = some i
  failure  : w.connection.recentFailure ≠ some .rejectedCredentialNotRefreshed

/-- What thread `i` may count on while the other threads run. -/
structure Rely (i : ι) (w w' : World ι) : Prop where
  slot      : w'.slot = some i ↔ w.slot = some i
  held      : w.slot = some i → w'.connection.cached = w.connection.cached ∧ w'.received = w.received ∧
    w'.processed = w.processed ∧ w'.inFlight = w.inFlight
  log       : w'.log i = w.log i
  processed : ∀ n ∈ w.processed, n ∈ w'.processed
  issuedTo  : w'.issuedTo i = w.issuedTo i

theorem Rely.refl (i : ι) (w : World ι) : Rely i w w :=
  ⟨Iff.rfl, fun _ => ⟨rfl, rfl, rfl, rfl⟩, rfl, fun _ h => h, rfl⟩

theorem Rely.trans (i : ι) {w w' w'' : World ι} (h : Rely i w w') (h' : Rely i w' w'') : Rely i w w'' := by
  refine ⟨h'.slot.trans h.slot, fun hs => ?_, h'.log.trans h.log, fun n hn => h'.processed n (h.processed n hn),
    h'.issuedTo.trans h.issuedTo⟩
  obtain ⟨a1, a2, a3, a4⟩ := h.held hs
  obtain ⟨b1, b2, b3, b4⟩ := h'.held (h.slot.2 hs)
  exact ⟨b1.trans a1, b2.trans a2, b3.trans a3, b4.trans a4⟩

/-- The threads of one cache. -/
def protocol [DecidableEq ι] : Protocol Op Ans (World ι) ι where
  step := step
  inv := Inv
  guar := fun i w w' => ∀ j, j ≠ i → Rely j w w'
  rely := Rely
  rely_refl := Rely.refl
  rely_trans := fun i => Rely.trans i
  guar_rely := fun _ j _ _ hne h => h j (Ne.symm hne)

/-- Thread `i`'s log and the processed answers only grow. -/
structure Grow (i : ι) (w w' : World ι) : Prop where
  processed : ∀ n ∈ w.processed, n ∈ w'.processed
  log       : ∃ new, w'.log i = new ++ w.log i

theorem Grow.trans {i : ι} {w w' w'' : World ι} (h : Grow i w w') (h' : Grow i w' w'') : Grow i w w'' := by
  obtain ⟨new, hn⟩ := h.log
  obtain ⟨new', hn'⟩ := h'.log
  exact ⟨fun n hn => h'.processed n (h.processed n hn), new' ++ new, by rw [hn', hn, List.append_assoc]⟩

theorem Grow.refl (i : ι) (w : World ι) : Grow i w w := ⟨fun _ h => h, [], rfl⟩

theorem Rely.grow {i : ι} {w w' : World ι} (h : Rely i w w') : Grow i w w' := ⟨h.processed, [], h.log⟩

/-- Thread `i` logged the event after `w₀`. -/
def Logged (w₀ : World ι) (i : ι) (w : World ι) (event : Event) : Prop :=
  ∃ new, w.log i = new ++ w₀.log i ∧ event ∈ new

theorem Logged.grow {w₀ w w' : World ι} {i : ι} {event : Event} (h : Logged w₀ i w event) (hg : Grow i w w') :
    Logged w₀ i w' event := by
  obtain ⟨new, hn, hm⟩ := h
  obtain ⟨new', hn'⟩ := hg.log
  exact ⟨new' ++ new, by rw [hn', hn, List.append_assoc], List.mem_append_right _ hm⟩

/-! ## One operation -/

/-- What a thread must know before an operation that only the holder of the slot performs. -/
def Pre (i : ι) : Op → World ι → Prop
  | .releaseReadSlot, w => w.slot = some i ∧ w.inFlight = []
  | .send _, w => w.slot = some i ∧ w.inFlight = []
  | .receive, w => w.slot = some i ∧ w.inFlight = [i]
  | .remember c _, w => w.slot = some i ∧ c.revision ≠ 0 ∧ ∀ n ∈ w.processed, n < c.receipt
  | .forget receipt, w => w.slot = some i ∧ receipt ≤ w.received
  | .rememberFailure err, _ => err ≠ .rejectedCredentialNotRefreshed
  | _, _ => True

/-- An operation that leaves the slot, the requests and the cached credential alone. -/
theorem quiet_safe {i : ι} {w w' : World ι} (hinv : Inv w) (hslot : w'.slot = w.slot) (hflight : w'.inFlight = w.inFlight)
    (hrec : w'.received = w.received) (hproc : w'.processed = w.processed)
    (hcached : w'.connection.cached = w.connection.cached)
    (hfail : w'.connection.recentFailure ≠ some .rejectedCredentialNotRefreshed) (hlog : ∀ j, j ≠ i → w'.log j = w.log j)
    (hissued : ∀ j, j ≠ i → w'.issuedTo j = w.issuedTo j) (hown : ∃ new, w'.log i = new ++ w.log i) : Inv w' ∧ (∀ j, j ≠ i → Rely j w w') ∧ Grow i w w' := by
  refine ⟨⟨?_, ?_, ?_, hfail⟩, fun j hj => ⟨by rw [hslot], fun _ => ⟨hcached, hrec, hproc, hflight⟩, hlog j hj, ?_,
    hissued j hj⟩, ?_, hown⟩
  · rw [hcached, hproc]; exact hinv.cached
  · rw [hproc, hrec]; exact hinv.received
  · rw [hflight, hslot]; exact hinv.flight
  · rw [hproc]; exact fun _ h => h
  · rw [hproc]; exact fun _ h => h

/-- Taking the free slot. -/
theorem acquire_safe {i : ι} {w : World ι} (hinv : Inv w) (hfree : w.slot = none) :
    Inv { w with slot := some i } ∧ (∀ j, j ≠ i → Rely j w { w with slot := some i }) ∧
      Grow i w { w with slot := some i } := by
  have hflight : w.inFlight = [] := by
    rcases hinv.flight with h | ⟨j, -, h⟩
    · exact h
    · rw [hfree] at h; cases h
  refine ⟨⟨hinv.cached, hinv.received, .inl hflight, hinv.failure⟩, fun j hj => ⟨?_, fun _ => ⟨rfl, rfl, rfl, rfl⟩, rfl, fun _ h => h,
    rfl⟩, fun _ h => h, [], rfl⟩
  rw [hfree]
  simp [Ne.symm hj]

variable [DecidableEq ι]

@[simp] theorem log_note (w : World ι) (i j : ι) (event : Event) :
    (w.note i event).log j = if j = i then event :: w.log j else w.log j := rfl

theorem tick_safe {i : ι} {w : World ι} (hinv : Inv w) (now : Int) :
    Inv (w.tick i now) ∧ (∀ j, j ≠ i → Rely j w (w.tick i now)) ∧ Grow i w (w.tick i now) :=
  quiet_safe hinv rfl rfl rfl rfl rfl hinv.failure (fun j hj => by simp [World.tick, hj])
    (fun _ _ => rfl) ⟨[.reading now], by simp [World.tick]⟩

/-- **What every operation keeps.** -/
theorem step_safe {i : ι} {o : Op} {w w' : World ι} {a : Ans o} (hs : step i o w a w') (hinv : Inv w)
    (hpre : Pre i o w) : Inv w' ∧ (∀ j, j ≠ i → Rely j w w') ∧ Grow i w w' := by
  have hsame : Inv w ∧ (∀ j, j ≠ i → Rely j w w) ∧ Grow i w w := ⟨hinv, fun j _ => Rely.refl j w, Grow.refl i w⟩
  cases o with
  | now => obtain ⟨-, rfl⟩ := hs; exact tick_safe hinv _
  | ctxErr => rw [show w' = w from hs]; exact hsame
  | usableCredential => obtain ⟨now, -, -, rfl⟩ := hs; exact tick_safe hinv now
  | unexpiredCredential | sharedRecentFailure =>
    obtain ⟨-, -, rfl⟩ | ⟨-, now, -, -, rfl⟩ := hs
    · exact hsame
    · exact tick_safe hinv now
  | supersedingCredential issued =>
    obtain ⟨-, -, rfl⟩ | ⟨-, now, -, -, rfl⟩ := hs
    · exact hsame
    · exact tick_safe hinv now
  | acquireReadSlot =>
    obtain ⟨hfree, -, rfl⟩ | ⟨-, rfl⟩ := hs
    · exact acquire_safe hinv hfree
    · exact hsame
  | tryAcquireReadSlot =>
    obtain ⟨hfree, -, rfl⟩ | ⟨-, -, rfl⟩ := hs
    · exact acquire_safe hinv hfree
    · exact hsame
  | releaseReadSlot =>
    obtain ⟨-, rfl⟩ := hs
    obtain ⟨hslot, hflight⟩ := hpre
    refine ⟨⟨hinv.cached, hinv.received, .inl hflight, hinv.failure⟩, fun j hj => ⟨?_, fun _ => ⟨rfl, rfl, rfl, rfl⟩, rfl, fun _ h => h,
      rfl⟩, fun _ h => h, [], rfl⟩
    rw [hslot]
    simp [Ne.symm hj]
  | send rejectedRevision =>
    rw [show w' = _ from hs]
    obtain ⟨hslot, hflight⟩ := hpre
    refine ⟨⟨hinv.cached, hinv.received, .inr ⟨i, by simp [hflight], hslot⟩, hinv.failure⟩, fun j hj => ?_, fun _ h => h,
      [.asked rejectedRevision], ?_⟩
    · refine ⟨Iff.rfl, fun h => ?_, by simp [hj], fun _ h => h, rfl⟩
      exact absurd (Option.some.inj (hslot.symm.trans h)) (Ne.symm hj)
    · simp
  | receive =>
    obtain ⟨-, rfl⟩ := hs
    obtain ⟨hslot, hflight⟩ := hpre
    refine ⟨⟨hinv.cached, fun n hn => Nat.le_succ_of_le (hinv.received n hn), .inl (by simp [hflight]),
      hinv.failure⟩, fun j hj => ?_,
      fun _ h => h, [], rfl⟩
    refine ⟨Iff.rfl, fun h => ?_, rfl, fun _ h => h, rfl⟩
    exact absurd (Option.some.inj (hslot.symm.trans h)) (Ne.symm hj)
  | remember c now =>
    obtain ⟨-, rfl⟩ := hs
    obtain ⟨hslot, hrev, hrec⟩ := hpre
    refine ⟨⟨fun c' hc => ?_, hinv.received, hinv.flight, by simp [World.withConnection, SharedConnection.remember]⟩, fun j hj => ?_, fun _ h => h, [], rfl⟩
    · cases hc
      exact ⟨hrev, hrec⟩
    · refine ⟨Iff.rfl, fun h => ?_, rfl, fun _ h => h, rfl⟩
      exact absurd (Option.some.inj (hslot.symm.trans h)) (Ne.symm hj)
  | forget receipt =>
    rw [show w' = _ from hs]
    obtain ⟨hslot, hrec⟩ := hpre
    refine ⟨⟨fun c hc => (by cases hc), fun n hn => ?_, hinv.flight, hinv.failure⟩, fun j hj => ?_, fun n hn => List.mem_cons_of_mem _ hn,
      [], rfl⟩
    · rcases List.mem_cons.1 hn with rfl | hn
      · exact hrec
      · exact hinv.received n hn
    · refine ⟨Iff.rfl, fun h => ?_, rfl, fun n hn => List.mem_cons_of_mem _ hn, rfl⟩
      exact absurd (Option.some.inj (hslot.symm.trans h)) (Ne.symm hj)
  | deferNextRead interval =>
    obtain ⟨now, -, rfl⟩ := hs
    exact quiet_safe hinv rfl rfl rfl rfl rfl hinv.failure (fun j hj => by simp [World.tick, hj]; rfl)
      (fun _ _ => rfl) ⟨[.reading now], by simp [World.tick]; rfl⟩
  | rememberFailure err =>
    obtain ⟨now, -, rfl⟩ := hs
    exact quiet_safe hinv rfl rfl rfl rfl rfl (fun h => hpre (Option.some.inj h))
      (fun j hj => by simp [World.tick, hj]; rfl) (fun _ _ => rfl) ⟨[.reading now], by simp [World.tick]; rfl⟩
  | recordIssued callID revision now =>
    rw [show w' = _ from hs]
    exact quiet_safe hinv rfl rfl rfl rfl rfl hinv.failure (fun _ _ => rfl) (fun _ _ => rfl) ⟨[], rfl⟩
  | issuedTo callID =>
    obtain ⟨-, -, rfl⟩ | ⟨-, now, -, -, rfl⟩ := hs
    · exact quiet_safe hinv rfl rfl rfl rfl rfl hinv.failure (fun _ _ => rfl) (fun j hj => by simp [World.noteIssued, hj])
        ⟨[], rfl⟩
    · exact quiet_safe hinv rfl rfl rfl rfl rfl hinv.failure (fun j hj => by simp [World.tick, World.noteIssued, hj])
        (fun j hj => by simp [World.tick, World.noteIssued, World.note, hj])
        ⟨[.reading now], by simp [World.tick, World.noteIssued]⟩

variable {α : Type} {i : ι} {w₀ w : World ι}

/-- **The proof rule of one operation.** -/
theorem safe_call {Q : α → World ι → Prop} {o : Op} {k : Ans o → P α} (hpre : ∀ w', Rely i w w' → Inv w' → Pre i o w')
    (hk : ∀ w' a w'', Rely i w w' → Inv w' → step i o w' a w'' → Inv w'' → Grow i w w'' →
      protocol.Safe i Q (k a) w'') : protocol.Safe i Q (.call o k) w := by
  intro w' hr hinv a w'' hs
  obtain ⟨h1, h2, h3⟩ := step_safe hs hinv (hpre w' hr hinv)
  exact ⟨h1, h2, hk w' a w'' hr hinv hs h1 (hr.grow.trans h3)⟩

/-- The end of a program, whose postcondition the other threads cannot spoil. -/
theorem safe_ret {Q : α → World ι → Prop} {a : α} (hQ : ∀ w', Rely i w w' → Q a w') : protocol.Safe i Q (.ret a) w :=
  fun w' hr _ => hQ w' hr

/-! ## Inside the read slot -/

def Op.keepsSlot : Op → Bool
  | .acquireReadSlot | .tryAcquireReadSlot | .releaseReadSlot | .send _ | .receive => false
  | _ => true

theorem kept_of_step {o : Op} {w w' : World ι} {a : Ans o} (hs : step i o w a w') (ho : o.keepsSlot = true) :
    w'.slot = w.slot ∧ w'.inFlight = w.inFlight := by
  cases o with
  | acquireReadSlot | tryAcquireReadSlot | releaseReadSlot | send | receive => cases ho
  | now => obtain ⟨-, rfl⟩ := hs; exact ⟨rfl, rfl⟩
  | ctxErr => rw [show w' = w from hs]; exact ⟨rfl, rfl⟩
  | usableCredential => obtain ⟨now, -, -, rfl⟩ := hs; exact ⟨rfl, rfl⟩
  | unexpiredCredential | sharedRecentFailure =>
    obtain ⟨-, -, rfl⟩ | ⟨-, now, -, -, rfl⟩ := hs
    · exact ⟨rfl, rfl⟩
    · exact ⟨rfl, rfl⟩
  | supersedingCredential issued | issuedTo callID =>
    obtain ⟨-, -, rfl⟩ | ⟨-, now, -, -, rfl⟩ := hs
    · exact ⟨rfl, rfl⟩
    · exact ⟨rfl, rfl⟩
  | remember c now => obtain ⟨-, rfl⟩ := hs; exact ⟨rfl, rfl⟩
  | forget receipt => rw [show w' = _ from hs]; exact ⟨rfl, rfl⟩
  | deferNextRead | rememberFailure => obtain ⟨now, -, rfl⟩ := hs; exact ⟨rfl, rfl⟩
  | recordIssued => rw [show w' = _ from hs]; exact ⟨rfl, rfl⟩

/-- Thread `i`, which started at `w₀`, holds the read slot with no request in flight. -/
structure Inside (w₀ : World ι) (i : ι) (w : World ι) : Prop where
  grow   : Grow i w₀ w
  slot   : w.slot = some i
  flight : w.inFlight = []

omit [DecidableEq ι] in
theorem Inside.rely {w' : World ι} (h : Inside w₀ i w) (hr : Rely i w w') : Inside w₀ i w' :=
  ⟨h.grow.trans hr.grow, hr.slot.2 h.slot, ((hr.held h.slot).2.2.2).trans h.flight⟩

theorem Inside.next {o : Op} {w' w'' : World ι} {a : Ans o} (h : Inside w₀ i w) (hr : Rely i w w')
    (hs : step i o w' a w'') (ho : o.keepsSlot = true) (hg : Grow i w w'') : Inside w₀ i w'' :=
  have hk := kept_of_step hs ho
  ⟨h.grow.trans hg, hk.1.trans (h.rely hr).slot, hk.2.trans (h.rely hr).flight⟩

/-- **A credential that thread `i`, started at `w₀`, may return.** -/
structure Served (w₀ : World ι) (i : ι) (c : BrokerCredential) (w : World ι) : Prop where
  revision  : c.revision ≠ 0
  receipt   : ∀ n ∈ w₀.processed, n < c.receipt
  unexpired : ∃ now, Logged w₀ i w (.reading now) ∧ isExpired c now = false

omit [DecidableEq ι] in
theorem Served.grow {c : BrokerCredential} {w' : World ι} (h : Served w₀ i c w) (hg : Grow i w w') : Served w₀ i c w' := by
  obtain ⟨now, hl, he⟩ := h.unexpired
  exact ⟨h.revision, h.receipt, now, hl.grow hg, he⟩

theorem logged_tick (hg : Grow i w₀ w) (now : Int) : Logged w₀ i (w.tick i now) (.reading now) := by
  obtain ⟨new, hn⟩ := hg.log
  exact ⟨.reading now :: new, by simp [World.tick, hn], by simp⟩

/-- A cached credential that a clock reading of the call finds unexpired. -/
theorem served_of_cached {c : BrokerCredential} (hinv : Inv w) (hg : Grow i w₀ w) {now : Int}
    (hc : w.connection.cached = some c) (he : isExpired c now = false) : Served w₀ i c (w.tick i now) :=
  ⟨(hinv.cached c hc).1, fun n hn => (hinv.cached c hc).2 n (hg.processed n hn), now, logged_tick hg now, he⟩

theorem usableCredential_some {connection : SharedConnection} {now : Int} {c : BrokerCredential}
    (h : connection.usableCredential now = some c) : connection.cached = some c ∧ isExpired c now = false := by
  unfold SharedConnection.usableCredential at h
  split at h
  · cases h
  rename_i cached hc
  split at h
  · cases h
  rename_i he
  split at h
  · cases h
  · cases h
    exact ⟨hc, by simpa using he⟩

theorem unexpiredCredential_some {connection : SharedConnection} {now : Int} {c : BrokerCredential}
    (h : connection.unexpiredCredential now = some c) : connection.cached = some c ∧ isExpired c now = false := by
  unfold SharedConnection.unexpiredCredential at h
  split at h
  · cases h
  rename_i cached hc
  split at h
  · cases h
  · rename_i he
    cases h
    exact ⟨hc, by simpa using he⟩

theorem supersedingCredential_some {connection : SharedConnection} {now : Int} {issued : IssuedCredential}
    {c : BrokerCredential} (h : connection.supersedingCredential issued now = some c) :
    connection.cached = some c ∧ isExpired c now = false ∧ issued.revision ≠ c.revision := by
  unfold SharedConnection.supersedingCredential at h
  split at h
  · cases h
  rename_i cached hc
  split at h
  · cases h
  rename_i he
  split at h
  · cases h
  split at h
  · rename_i hne
    cases h
    exact ⟨hc, by simpa using he, hne⟩
  · cases h

theorem served_of_usable {w' : World ι} {a : Option BrokerCredential} {c : BrokerCredential} (hinv : Inv w)
    (hg : Grow i w₀ w) (hs : step i .usableCredential w a w') (ha : a = some c) : Served w₀ i c w' := by
  obtain ⟨now, -, h, rfl⟩ := hs
  obtain ⟨hc, he⟩ := usableCredential_some (h.symm.trans ha)
  exact served_of_cached hinv hg hc he

theorem served_of_unexpired {w' : World ι} {a : Option BrokerCredential} {c : BrokerCredential} (hinv : Inv w)
    (hg : Grow i w₀ w) (hs : step i .unexpiredCredential w a w') (ha : a = some c) : Served w₀ i c w' := by
  obtain ⟨-, h, rfl⟩ | ⟨-, now, -, h, rfl⟩ := hs
  · cases h.symm.trans ha
  · obtain ⟨hc, he⟩ := unexpiredCredential_some (h.symm.trans ha)
    exact served_of_cached hinv hg hc he

theorem served_of_superseding {w' : World ι} {issued : IssuedCredential} {a : Option BrokerCredential}
    {c : BrokerCredential} (hinv : Inv w) (hg : Grow i w₀ w) (hs : step i (.supersedingCredential issued) w a w')
    (ha : a = some c) : Served w₀ i c w' ∧ issued.revision ≠ c.revision := by
  obtain ⟨-, h, rfl⟩ | ⟨-, now, -, h, rfl⟩ := hs
  · cases h.symm.trans ha
  · obtain ⟨hc, he, hne⟩ := supersedingCredential_some (h.symm.trans ha)
    exact ⟨served_of_cached hinv hg hc he, hne⟩

/-- What a program leaves: a served credential, or an error. -/
structure Outcome (w₀ : World ι) (i : ι) (result : Except Err BrokerCredential) (w : World ι) : Prop where
  grow   : Grow i w₀ w
  served : ∀ c, result = .ok c → Served w₀ i c w

omit [DecidableEq ι] in
theorem Outcome.next {result : Except Err BrokerCredential} {w' : World ι} (h : Outcome w₀ i result w) (hg : Grow i w w') :
    Outcome w₀ i result w' :=
  ⟨h.grow.trans hg, fun c hc => (h.served c hc).grow hg⟩

theorem decode_ready {outcome : BrokerOutcome} {receipt : Nat} {c : BrokerCredential}
    (h : outcome.answer receipt = .ok (.ready c)) : c.revision ≠ 0 ∧ c.receipt = receipt := by
  cases outcome with
  | unavailable | failed | canceled => cases h
  | response decoded =>
    simp only [BrokerOutcome.answer, decodeCredentialBrokerAnswer] at h
    split at h
    · cases h
    · cases h
    · cases h
    split at h
    · cases h
    split at h
    · cases h
    · rename_i hrev
      cases h
      exact ⟨hrev, rfl⟩

theorem decode_ne_notRefreshed {outcome : BrokerOutcome} {receipt : Nat} {err : Err}
    (h : outcome.answer receipt = .error err) : err ≠ .rejectedCredentialNotRefreshed := by
  rintro rfl
  cases outcome with
  | unavailable | failed | canceled => cases h
  | response decoded =>
    simp only [BrokerOutcome.answer, decodeCredentialBrokerAnswer] at h
    split at h
    · cases h
    · cases h
    · cases h
    split at h
    · cases h
    split at h
    · cases h
    · cases h

/-- What `read` leaves, still inside the slot. -/
structure ReadPost (w₀ : World ι) (i : ι) (rejectedRevision : Nat) (result : Except Err BrokerCredential)
    (w : World ι) : Prop where
  inside  : Inside w₀ i w
  asked   : Logged w₀ i w (.asked rejectedRevision)
  served  : ∀ c, result = .ok c → Served w₀ i c w
  refused : result ≠ .error .rejectedCredentialNotRefreshed

omit [DecidableEq ι] in
theorem ReadPost.rely {rejectedRevision : Nat} {result : Except Err BrokerCredential} {w' : World ι}
    (h : ReadPost w₀ i rejectedRevision result w) (hr : Rely i w w') : ReadPost w₀ i rejectedRevision result w' :=
  ⟨h.inside.rely hr, h.asked.grow hr.grow, fun c hc => (h.served c hc).grow hr.grow, h.refused⟩

/-- An answer that ends the read with an error, with nothing cached. -/
theorem read_error {rejectedRevision : Nat} {err : Err} (hin : Inside w₀ i w)
    (hasked : Logged w₀ i w (.asked rejectedRevision)) (herr : err ≠ .rejectedCredentialNotRefreshed) :
    protocol.Safe i (ReadPost w₀ i rejectedRevision) (.ret (.error err)) w :=
  safe_ret fun _ hr => ReadPost.rely ⟨hin, hasked, fun _ hc => (by cases hc), fun h => herr (by cases h; rfl)⟩ hr

theorem read_forget {rejectedRevision receipt : Nat} {err : Err} (hin : Inside w₀ i w)
    (hasked : Logged w₀ i w (.asked rejectedRevision)) (hrec : w.received = receipt)
    (herr : err ≠ .rejectedCredentialNotRefreshed) :
    protocol.Safe i (ReadPost w₀ i rejectedRevision) (.call (.forget receipt) fun _ => .ret (.error err)) w := by
  refine safe_call (fun w' hr _ => ?_) (fun w' a w'' hr _ hs _ hg => ?_)
  · exact ⟨(hin.rely hr).slot, Nat.le_of_eq (hrec.symm.trans (hr.held hin.slot).2.1.symm)⟩
  · exact read_error (hin.next hr hs rfl hg) (hasked.grow hg) herr

theorem read_ready {rejectedRevision : Nat} {c : BrokerCredential} (hin : Inside w₀ i w)
    (hasked : Logged w₀ i w (.asked rejectedRevision)) (hrev : c.revision ≠ 0)
    (hproc : ∀ n ∈ w.processed, n < c.receipt) :
    protocol.Safe i (ReadPost w₀ i rejectedRevision)
      (.call .now fun now => if isExpired c now then
          .ret (.error (.credentialBrokerUnavailable "the credential has already expired"))
        else .call .now fun readAt => .call (.remember c readAt) fun remembered => .ret (.ok remembered)) w := by
  refine safe_call (fun _ _ _ => trivial) (fun w₁ now w₂ hr _ hs _ hg => ?_)
  have hin₂ := hin.next hr hs rfl hg
  have hlog₂ : Logged w₀ i w₂ (.reading now) := by
    obtain ⟨-, rfl⟩ := hs
    exact logged_tick (hin.rely hr).grow now
  have hproc₂ : ∀ n ∈ w₂.processed, n < c.receipt := by
    obtain ⟨-, rfl⟩ := hs
    intro n hn
    refine hproc n ?_
    rw [← (hr.held hin.slot).2.2.1]
    exact hn
  split
  · exact read_error hin₂ (hasked.grow hg) (by simp)
  rename_i hexp
  refine safe_call (fun _ _ _ => trivial) (fun w₃ readAt w₄ hr' _ hs' _ hg' => ?_)
  have hin₄ := hin₂.next hr' hs' rfl hg'
  have hproc₄ : ∀ n ∈ w₄.processed, n < c.receipt := by
    obtain ⟨-, rfl⟩ := hs'
    intro n hn
    refine hproc₂ n ?_
    rw [← (hr'.held hin₂.slot).2.2.1]
    exact hn
  refine safe_call (fun w₅ hr'' _ => ⟨(hin₄.rely hr'').slot, hrev, ?_⟩) (fun w₅ a w₆ hr'' _ hs'' _ hg'' => ?_)
  · rw [(hr''.held hin₄.slot).2.2.1]
    exact hproc₄
  · have hgrow := hg'.trans hg''
    refine safe_ret fun w' hrw => ReadPost.rely ⟨hin₄.next hr'' hs'' rfl hg'', hasked.grow (hg.trans hgrow), ?_, by simp⟩ hrw
    intro c' hc'
    cases hc'
    obtain ⟨rfl, -⟩ := hs''
    refine ⟨hrev, fun n hn => hproc₄ n (hin₄.grow.processed n hn), now, hlog₂.grow hgrow, ?_⟩
    simpa [isExpired] using hexp

/-- **A broker read serves only what the broker just answered.** -/
theorem read_safe (rejectedRevision : Nat) (hin : Inside w₀ i w) :
    protocol.Safe i (ReadPost w₀ i rejectedRevision) (read rejectedRevision) w := by
  refine safe_call (fun w' hr _ => ⟨(hin.rely hr).slot, (hin.rely hr).flight⟩) (fun w₁ a w₂ hr _ hs _ hg => ?_)
  have hin₁ := hin.rely hr
  have hs₂ : w₂.slot = some i ∧ w₂.inFlight = [i] := by
    rw [show w₂ = _ from hs]
    exact ⟨hin₁.slot, by simp [hin₁.flight]⟩
  have hasked₂ : Logged w₀ i w₂ (.asked rejectedRevision) := by
    rw [show w₂ = _ from hs]
    obtain ⟨new, hn⟩ := hin₁.grow.log
    exact ⟨.asked rejectedRevision :: new, by simp [hn], by simp⟩
  refine safe_call (fun w' hr' _ => ?_) (fun w₃ received w₄ hr' hinv₃ hs' _ hg' => ?_)
  · exact ⟨hr'.slot.2 hs₂.1, ((hr'.held hs₂.1).2.2.2).trans hs₂.2⟩
  obtain ⟨hnum, rfl⟩ := hs'
  have hin₄ : Inside w₀ i { w₃ with inFlight := w₃.inFlight.erase i, received := w₃.received + 1 } :=
    ⟨(hin.grow.trans hg).trans hg', hr'.slot.2 hs₂.1, by simp [(hr'.held hs₂.1).2.2.2, hs₂.2]⟩
  have hasked₄ := hasked₂.grow hg'
  have hbind : ∀ f : BrokerOutcome × Nat → P (Except Err BrokerCredential), Prog.bind (.ret received) f = f received :=
    fun _ => rfl
  erw [hbind]
  split
  · rename_i err herr
    exact read_error hin₄ hasked₄ (decode_ne_notRefreshed herr)
  · rename_i c hc
    obtain ⟨hrev, hrec⟩ := decode_ready hc
    refine read_ready hin₄ hasked₄ hrev fun n hn => ?_
    have := hinv₃.received n hn
    omega
  · exact read_forget hin₄ hasked₄ hnum.symm (by simp)
  · exact read_forget hin₄ hasked₄ hnum.symm (by simp)

end Shared
end Dex
