import DexConnectors.FenceModel
/-!
# FenceOnce — at most one dispatch per call (`sdkgo/singledispatch/fence.go`)

`Inv` is what every step keeps.  An attempt that may send, or has sent, has dispatched and never took the pre-send
retry; an attempt that stored any marker was allowed to send; a stored `notSent` marker belongs to an attempt that can
no longer send.  So permission passes from attempt `k` to `k + 1` only through a `notSent` or `canResend` marker of `k`,
and a send of `k` without `canResend` ends the chain (`noSendAfter`).
-/
namespace Dex
namespace SingleDispatch

/-- The fence decided that this attempt may send. -/
def Fence.maySend (fence : Fence) : Prop := fence.hasDecision = true ∧ fence.decision.kind = .sendAllowed

/-- The claim marker of attempt `k`. -/
def claimOf (callID : String) (k : Int) : Marker := ⟨callID, k, .claimed, ""⟩

/-- A stored marker that lets the next attempt send. -/
def releases (marker : Marker) : Prop := marker.state = .notSent ∨ marker.state = .canResend

/-- **What holds of attempt `k` in every state of a run.** -/
structure AttemptInv (callID : String) (log : List Event) (k : Int) (a : Attempt) : Prop where
  number     : a.fence.attempt = k
  call       : a.fence.callID = callID
  positive   : 1 ≤ k
  once       : log.count (.sent k) + a.waiting ≤ 1
  claimed    : 0 < log.count (.sent k) + a.waiting →
    a.fence.hasDispatched = true ∧ Event.recorded (claimOf callID k) ∈ log
  preSend    : a.fence.hasPreSendRetry = true → log.count (.sent k) + a.waiting = 0
  dispatched : a.fence.hasDispatched = true → a.fence.maySend
  retried    : a.fence.hasPreSendRetry = true → a.fence.maySend
  sending    : a.sending ≤ log.count (.sent k)
  finished   : a.fence.hasSendFinished = true → 0 < log.count (.sent k)
  repeating  : 0 < a.repeaters → a.fence.hasDispatched = true
  permitted  : a.fence.decision.kind = .sendAllowed →
    k = 1 ∨ ∃ m, Event.stored m ∈ log ∧ m.attempt = k - 1 ∧ releases m

/-- **What holds of every state of a run.** -/
structure Inv (callID : String) (w : World) : Prop where
  attempt   : ∀ k a, w.attempts k = some a → AttemptInv callID w.log k a
  stored    : ∀ m, Event.stored m ∈ w.log → ∃ a, w.attempts m.attempt = some a ∧ a.fence.maySend ∧
    (m.state = .notSent → a.fence.hasPreSendRetry = true)
  unstarted : ∀ k, w.attempts k = none → Event.sent k ∉ w.log
  ordered   : ∀ k pre post, w.log = pre ++ .sent k :: post → Event.recorded (claimOf callID k) ∈ pre

/-! ## The locked sections -/

/-- What `Dispatch` and `RecordNotSent` require of the fence. -/
def Fence.isOpen (fence : Fence) : Prop :=
  fence.maySend ∧ fence.hasDispatched = false ∧ fence.hasPreSendRetry = false

theorem isOpen_of_guard {fence : Fence} (h : ¬ (!fence.hasDecision || fence.decision.kind ≠ .sendAllowed ||
    fence.hasDispatched || fence.hasPreSendRetry) = true) : fence.isOpen := by
  simp only [Bool.or_eq_true, Bool.not_eq_true', decide_eq_true_eq, not_or, ne_eq, not_not, Bool.not_eq_false,
    Bool.not_eq_true] at h
  exact ⟨⟨h.1.1.1, h.1.1.2⟩, h.1.2, h.2⟩

/-- **What the first locked section of `Dispatch` can do.** -/
theorem enterDispatch_cases (fence : Fence) (now : Int) (claim notSent : Recorded) :
    ((fence.enterDispatch now claim notSent).1 = .notAllowed ∧ (fence.enterDispatch now claim notSent).2 = fence) ∨
    ((fence.enterDispatch now claim notSent).1 = .insufficientTime ∧
      (fence.enterDispatch now claim notSent).2 = fence) ∨
    (fence.isOpen ∧ claim = .ok ∧ fence.enterDispatch now claim notSent =
      (.claimed, { fence with hasDispatched := true, marker := fence.own .claimed "" })) ∨
    (fence.isOpen ∧ claim ≠ .ok ∧ (fence.enterDispatch now claim notSent).1 = .checkpointFailed ∧
      ∃ m, (fence.enterDispatch now claim notSent).2 =
        { fence with hasDispatched := true, hasPreSendRetry := true, marker := m }) := by
  unfold Fence.enterDispatch
  split
  · exact .inl ⟨rfl, rfl⟩
  rename_i hopen
  split
  · exact .inr (.inl ⟨rfl, rfl⟩)
  have hopen := isOpen_of_guard hopen
  cases claim with
  | ok => exact .inr (.inr (.inl ⟨hopen, rfl, rfl⟩))
  | failedStored | failedLost =>
    refine .inr (.inr (.inr ⟨hopen, by simp, rfl, ?_⟩))
    cases notSent
    · exact ⟨fence.own .notSent "", rfl⟩
    · exact ⟨fence.marker, rfl⟩
    · exact ⟨fence.marker, rfl⟩

/-- **What `RecordNotSent` can do.** -/
theorem recordNotSent_cases (fence : Fence) (written : Recorded) :
    fence.recordNotSent written = (some .dispatchNotAllowed, fence) ∨
    (fence.isOpen ∧ (fence.recordNotSent written).1 ≠ some .dispatchNotAllowed ∧
      ∃ m, (fence.recordNotSent written).2 = { fence with hasPreSendRetry := true, marker := m }) := by
  unfold Fence.recordNotSent
  split
  · exact .inl rfl
  rename_i hopen
  refine .inr ⟨isOpen_of_guard hopen, ?_⟩
  cases written
  · exact ⟨by simp [Fence.record], fence.own .notSent "", rfl⟩
  · exact ⟨by simp [Fence.record], fence.marker, rfl⟩
  · exact ⟨by simp [Fence.record], fence.marker, rfl⟩

/-- `record` changes the last marker only. -/
theorem record_snd (fence : Fence) (marker : Marker) (written : Recorded) :
    ∃ m, (fence.record marker written).2 = { fence with marker := m } := by
  cases written
  · exact ⟨marker, rfl⟩
  · exact ⟨fence.marker, rfl⟩
  · exact ⟨fence.marker, rfl⟩

/-- **A decision to send rests on attempt one, or on a releasing marker of the attempt before.** -/
theorem decisionFor_sendAllowed {fence : Fence} {last : LastHeartbeat}
    (h : (fence.decisionFor last).kind = .sendAllowed) :
    fence.attempt = 1 ∨ ∃ m, last = .value m ∧ m.attempt = fence.attempt - 1 ∧ releases m := by
  unfold Fence.decisionFor at h
  cases last with
  | error text => simp at h
  | nothing =>
    simp only at h
    split at h
    · exact .inl ‹_›
    · simp at h
  | value previous =>
    simp only at h
    split at h
    · simp at h
    · split at h
      · simp at h
      · split at h
        · rename_i hrel
          exact .inr ⟨previous, rfl, hrel.2.1, hrel.2.2.1⟩
        · simp at h

/-! ## Events -/

theorem sent_not_mem_heartbeatEvents (k : Int) (marker : Marker) (written : Recorded) :
    Event.sent k ∉ heartbeatEvents marker written := by
  cases written <;> simp [heartbeatEvents]

theorem stored_of_mem_heartbeatEvents {m marker : Marker} {written : Recorded}
    (h : Event.stored m ∈ heartbeatEvents marker written) : m = marker := by
  cases written <;> simp_all [heartbeatEvents]

theorem count_sent_append_of_not_mem (log : List Event) {evs : List Event} {k : Int} (h : Event.sent k ∉ evs) :
    (log ++ evs).count (.sent k) = log.count (.sent k) := by
  rw [List.count_append, List.count_eq_zero_of_not_mem h, Nat.add_zero]

/-- **Events without a send of `k` keep what holds of attempt `k`.** -/
theorem AttemptInv.append {callID : String} {log evs : List Event} {k : Int} {a : Attempt}
    (h : AttemptInv callID log k a) (hn : Event.sent k ∉ evs) : AttemptInv callID (log ++ evs) k a := by
  have hc := count_sent_append_of_not_mem log hn
  refine ⟨h.number, h.call, h.positive, by rw [hc]; exact h.once, fun hp => ?_, fun hp => by rw [hc]; exact h.preSend hp,
    h.dispatched, h.retried, by rw [hc]; exact h.sending, fun hf => by rw [hc]; exact h.finished hf, h.repeating,
    fun hs => ?_⟩
  · rw [hc] at hp
    exact ⟨(h.claimed hp).1, List.mem_append_left _ (h.claimed hp).2⟩
  · rcases h.permitted hs with h1 | ⟨m, hm, hrest⟩
    · exact .inl h1
    · exact .inr ⟨m, List.mem_append_left _ hm, hrest⟩

/-- What attempt `k`, now `a`, may add to the log. -/
def EventOk (callID : String) (log : List Event) (k : Int) (a : Attempt) : Event → Prop
  | .stored m   => m.attempt = k ∧ a.fence.maySend ∧ (m.state = .notSent → a.fence.hasPreSendRetry = true)
  | .recorded _ => True
  | .sent j     => j = k ∧ Event.recorded (claimOf callID k) ∈ log

/-- The heartbeats of an own marker are `EventOk`. -/
theorem eventOk_heartbeat {callID : String} {log : List Event} {k : Int} {a : Attempt} {marker : Marker}
    {written : Recorded} (hn : marker.attempt = k) (hs : a.fence.maySend)
    (hp : marker.state = .notSent → a.fence.hasPreSendRetry = true) :
    ∀ e ∈ heartbeatEvents marker written, EventOk callID log k a e := by
  intro e he
  cases written <;> simp only [heartbeatEvents, List.mem_cons, List.not_mem_nil, or_false] at he
  · rcases he with rfl | rfl
    · exact ⟨hn, hs, hp⟩
    · trivial
  · subst he; exact ⟨hn, hs, hp⟩

/-- **Putting back a changed attempt keeps the invariant**, once the attempt's own part holds, its permissions were not
withdrawn and its events are its own. -/
theorem Inv.put {callID : String} {w : World} {k : Int} {a a' : Attempt} {evs : List Event} (h : Inv callID w)
    (ha : w.attempts k = some a) (ha' : AttemptInv callID (w.log ++ evs) k a')
    (hsend : a.fence.maySend → a'.fence.maySend)
    (hpre : a.fence.hasPreSendRetry = true → a'.fence.hasPreSendRetry = true)
    (hev : ∀ e ∈ evs, EventOk callID w.log k a' e) : Inv callID (w.put k a' evs) := by
  have hother : ∀ j, j ≠ k → Event.sent j ∉ evs := fun j hj hm => hj (hev _ hm).1
  refine ⟨fun j b hb => ?_, fun m hm => ?_, fun j hj => ?_, fun j pre post hlog => ?_⟩
  · by_cases hjk : j = k
    · subst hjk
      simp only [World.put, if_true, Option.some.injEq] at hb
      exact hb ▸ ha'
    · simp only [World.put, if_neg hjk] at hb
      exact (h.attempt j b hb).append (hother j hjk)
  · rcases List.mem_append.1 hm with hm | hm
    · obtain ⟨b, hb, hmay, hns⟩ := h.stored m hm
      by_cases hmk : m.attempt = k
      · rw [hmk, ha, Option.some.injEq] at hb
        subst hb
        exact ⟨a', by simp [World.put, hmk], hsend hmay, fun hs => hpre (hns hs)⟩
      · exact ⟨b, by simp [World.put, hmk, hb], hmay, hns⟩
    · obtain ⟨hmk, hmay, hns⟩ := hev _ hm
      exact ⟨a', by simp [World.put, hmk], hmay, hns⟩
  · by_cases hjk : j = k
    · subst hjk; simp [World.put] at hj
    · simp only [World.put, if_neg hjk] at hj ⊢
      simp only [List.mem_append, not_or]
      exact ⟨h.unstarted j hj, hother j hjk⟩
  · simp only [World.put] at hlog
    rcases List.append_eq_append_iff.1 hlog with ⟨as, hpre', hevs⟩ | ⟨cs, hw, hcs⟩
    · obtain ⟨rfl, hrec⟩ := hev (.sent j) (by rw [hevs]; simp)
      rw [hpre']
      exact List.mem_append_left _ hrec
    · cases cs with
      | nil =>
        simp only [List.append_nil, List.nil_append] at hw hcs
        obtain ⟨rfl, hrec⟩ := hev (.sent j) (by rw [← hcs]; simp)
        exact hw ▸ hrec
      | cons c cs =>
        simp only [List.cons_append, List.cons.injEq] at hcs
        exact h.ordered j pre cs (by rw [hw, hcs.1])

/-! ## The steps -/

theorem inv_start {callID : String} {w : World} (h : Inv callID w) (k wd mr : Int) (hk : 1 ≤ k)
    (hnew : ∀ j, (w.attempts j).isSome → j < k) :
    Inv callID (w.put k { fence := { callID, attempt := k, writeDeadline := wd, minimumRequestTime := mr } } []) := by
  have hnone : w.attempts k = none := by
    cases hw : w.attempts k with
    | none => rfl
    | some a =>
      have := hnew k (by simp [hw])
      omega
  have hcount : w.log.count (.sent k) = 0 := List.count_eq_zero_of_not_mem (h.unstarted k hnone)
  refine ⟨fun j b hb => ?_, fun m hm => ?_, fun j hj => ?_, fun j pre post hlog => ?_⟩
  · simp only [World.put, List.append_nil] at hb ⊢
    by_cases hjk : j = k
    · subst hjk
      simp only [if_true, Option.some.injEq] at hb
      subst hb
      constructor <;> simp_all [Decision.zero]
    · rw [if_neg hjk] at hb
      exact h.attempt j b hb
  · simp only [World.put, List.append_nil] at hm ⊢
    obtain ⟨b, hb, hrest⟩ := h.stored m hm
    have hne : m.attempt ≠ k := fun he => by rw [he, hnone] at hb; cases hb
    exact ⟨b, by rw [if_neg hne]; exact hb, hrest⟩
  · simp only [World.put, List.append_nil] at hj ⊢
    by_cases hjk : j = k
    · subst hjk; simp at hj
    · rw [if_neg hjk] at hj
      exact h.unstarted j hj
  · simp only [World.put, List.append_nil] at hlog
    exact h.ordered j pre post hlog

theorem inv_decide {callID : String} {w : World} (h : Inv callID w) {k : Int} {a : Attempt} {last : LastHeartbeat}
    (ha : w.attempts k = some a) (hlast : w.mayRead k last) :
    Inv callID (w.put k { a with fence := (a.fence.decide last).2 } []) := by
  have hi := h.attempt k a ha
  unfold Fence.decide
  split
  · exact h.put ha (by rw [List.append_nil]; exact hi) id id (by simp)
  rename_i hd
  -- an undecided fence has neither dispatched nor retried, so nothing rests on its decision yet
  have hmay : ¬ a.fence.maySend := fun hm => hd hm.1
  have hdis : a.fence.hasDispatched = false := by
    cases hx : a.fence.hasDispatched
    · rfl
    · exact absurd (hi.dispatched hx) hmay
  have hpre : a.fence.hasPreSendRetry = false := by
    cases hx : a.fence.hasPreSendRetry
    · rfl
    · exact absurd (hi.retried hx) hmay
  refine h.put ha ?_ (fun hm => absurd hm hmay) id (by simp)
  rw [List.append_nil]
  refine ⟨hi.number, hi.call, hi.positive, hi.once, hi.claimed, hi.preSend, fun hx => ?_, fun hx => ?_, hi.sending,
    hi.finished, hi.repeating, fun hs => ?_⟩
  · simp only at hx; rw [hdis] at hx; cases hx
  · simp only at hx; rw [hpre] at hx; cases hx
  · rcases decisionFor_sendAllowed hs with h1 | ⟨m, hm, hnum, hrel⟩
    · exact .inl (hi.number ▸ h1)
    · rw [hm] at hlast
      exact .inr ⟨m, hlast.1, hi.number ▸ hnum, hrel⟩

/-- An open fence has sent nothing and waits for nothing. -/
theorem count_eq_zero_of_not_dispatched {callID : String} {log : List Event} {k : Int} {a : Attempt}
    (hi : AttemptInv callID log k a) (hd : a.fence.hasDispatched = false) : log.count (.sent k) + a.waiting = 0 := by
  by_contra hne
  have := (hi.claimed (Nat.pos_of_ne_zero hne)).1
  rw [hd] at this; cases this

/-- **A failed claim ends the attempt's sending**, whether the two heartbeats were stored or not. -/
theorem inv_checkpointFailed {callID : String} {w : World} (h : Inv callID w) {k : Int} {a : Attempt} {m : Marker}
    {claim notSent : Recorded} {crashed : Bool} (ha : w.attempts k = some a) (hopen : a.fence.isOpen) :
    Inv callID (w.put k
      { a with fence := { a.fence with hasDispatched := true, hasPreSendRetry := true, marker := m }, crashed := crashed }
      (enterEvents a.fence claim notSent .checkpointFailed)) := by
  have hi := h.attempt k a ha
  have hzero := count_eq_zero_of_not_dispatched hi hopen.2.1
  have hn : Event.sent k ∉ enterEvents a.fence claim notSent .checkpointFailed := by
    simp [enterEvents, sent_not_mem_heartbeatEvents]
  have hc := count_sent_append_of_not_mem w.log hn
  refine h.put ha ?_ id (fun _ => rfl) (fun e he => ?_)
  · have hi' := hi.append hn
    refine ⟨hi.number, hi.call, hi.positive, hi'.once, fun hp => ?_, fun _ => by rw [hc]; exact hzero,
      fun _ => hopen.1, fun _ => hopen.1, hi'.sending, hi'.finished, fun _ => rfl, hi'.permitted⟩
    simp only at hp
    omega
  · simp only [enterEvents, List.mem_append] at he
    rcases he with he | he
    · refine eventOk_heartbeat hi.number ?_ ?_ e he
      · exact hopen.1
      · simp [Fence.own]
    · refine eventOk_heartbeat hi.number ?_ ?_ e he
      · exact hopen.1
      · simp

theorem inv_dispatch {callID : String} {w : World} (h : Inv callID w) {k : Int} {a : Attempt} (now : Int)
    (claim notSent : Recorded) (ha : w.attempts k = some a) :
    Inv callID (w.put k
      { a with
        fence := (a.fence.enterDispatch now claim notSent).2
        waiting := if (a.fence.enterDispatch now claim notSent).1 = .claimed then a.waiting + 1 else a.waiting
        repeaters := if (a.fence.enterDispatch now claim notSent).1 = .claimed then a.repeaters + 1 else a.repeaters }
      (enterEvents a.fence claim notSent (a.fence.enterDispatch now claim notSent).1)) := by
  have hi := h.attempt k a ha
  rcases enterDispatch_cases a.fence now claim notSent with ⟨h1, h2⟩ | ⟨h1, h2⟩ | ⟨hopen, rfl, heq⟩ | ⟨hopen, -, h1, m, h2⟩
  · rw [h1, h2]
    exact h.put ha (by simpa [enterEvents] using hi) id id (by simp [enterEvents])
  · rw [h1, h2]
    exact h.put ha (by simpa [enterEvents] using hi) id id (by simp [enterEvents])
  · rw [heq]
    have hzero := count_eq_zero_of_not_dispatched hi hopen.2.1
    have hn : Event.sent k ∉ enterEvents a.fence .ok notSent .claimed := by
      simp [enterEvents, sent_not_mem_heartbeatEvents]
    have hc := count_sent_append_of_not_mem w.log hn
    have hclaim : a.fence.own .claimed "" = claimOf callID k := by simp [Fence.own, claimOf, hi.number, hi.call]
    simp only [if_true]
    refine h.put ha ?_ id id (fun e he => ?_)
    · have hi' := hi.append hn
      refine ⟨hi.number, hi.call, hi.positive, ?_, fun _ => ⟨rfl, ?_⟩, fun hp => ?_, fun _ => hopen.1, hi'.retried,
        hi'.sending, hi'.finished, fun _ => rfl, hi'.permitted⟩
      · rw [hc]; simp only; omega
      · simp [enterEvents, heartbeatEvents, hclaim]
      · simp only at hp; rw [hopen.2.2] at hp; cases hp
    · simp only [enterEvents] at he
      refine eventOk_heartbeat hi.number ?_ ?_ e he
      · exact hopen.1
      · simp [Fence.own]
  · rw [h1, h2]
    exact inv_checkpointFailed h ha hopen

theorem inv_send {callID : String} {w : World} (h : Inv callID w) {k : Int} {a : Attempt} (ha : w.attempts k = some a)
    (hwait : 0 < a.waiting) :
    Inv callID (w.put k { a with waiting := a.waiting - 1, sending := a.sending + 1 } [.sent k]) := by
  have hi := h.attempt k a ha
  have hc : (w.log ++ [Event.sent k]).count (.sent k) = w.log.count (.sent k) + 1 := by
    rw [List.count_append, List.count_singleton_self]
  obtain ⟨hdis, hrec⟩ := hi.claimed (by omega)
  have honce := hi.once
  have hsend := hi.sending
  refine h.put ha ?_ id id (fun e he => ?_)
  · refine ⟨hi.number, hi.call, hi.positive, ?_, fun _ => ⟨hdis, List.mem_append_left _ hrec⟩, fun hp => ?_,
      hi.dispatched, hi.retried, ?_, fun _ => ?_, hi.repeating, fun hs => ?_⟩
    · rw [hc]; simp only; omega
    · have := hi.preSend hp; omega
    · rw [hc]; simp only; omega
    · rw [hc]; omega
    · rcases hi.permitted hs with h1 | ⟨m, hm, hrest⟩
      · exact .inl h1
      · exact .inr ⟨m, List.mem_append_left _ hm, hrest⟩
  · rw [List.mem_singleton.1 he]
    exact ⟨rfl, hrec⟩

theorem inv_sendReturned {callID : String} {w : World} (h : Inv callID w) {k : Int} {a : Attempt}
    (ha : w.attempts k = some a) (hsend : 0 < a.sending) :
    Inv callID (w.put k { a with fence := a.fence.finishSend, sending := a.sending - 1 } []) := by
  have hi := h.attempt k a ha
  have hle := hi.sending
  refine h.put ha ?_ id id (by simp)
  rw [List.append_nil]
  refine ⟨hi.number, hi.call, hi.positive, hi.once, hi.claimed, hi.preSend, hi.dispatched, hi.retried, ?_, fun _ => ?_,
    hi.repeating, hi.permitted⟩
  · simp only; omega
  · omega

/-- **A heartbeat of an own marker that is not `notSent`**, by an attempt that has dispatched, and a change of the last
marker keep the invariant. -/
theorem inv_heartbeat {callID : String} {w : World} (h : Inv callID w) {k : Int} {a : Attempt} {m marker : Marker}
    {written : Recorded} (ha : w.attempts k = some a) (hdis : a.fence.hasDispatched = true)
    (hown : marker.attempt = k) (hstate : marker.state ≠ .notSent) :
    Inv callID (w.put k { a with fence := { a.fence with marker := m } } (heartbeatEvents marker written)) := by
  have hi := h.attempt k a ha
  have hi' := hi.append (sent_not_mem_heartbeatEvents k marker written)
  refine h.put ha ⟨hi'.number, hi'.call, hi'.positive, hi'.once, hi'.claimed, hi'.preSend, hi'.dispatched, hi'.retried,
    hi'.sending, hi'.finished, hi'.repeating, hi'.permitted⟩ id id ?_
  exact eventOk_heartbeat hown (hi.dispatched hdis) (fun hs => absurd hs hstate)

/-- A finished send was dispatched. -/
theorem AttemptInv.dispatched_of_finished {callID : String} {log : List Event} {k : Int} {a : Attempt}
    (hi : AttemptInv callID log k a) (hf : a.fence.hasSendFinished = true) : a.fence.hasDispatched = true :=
  (hi.claimed (Nat.lt_of_lt_of_le (hi.finished hf) (Nat.le_add_right _ _))).1

/-- **Every step keeps the invariant.** -/
theorem inv_step {callID : String} {w w' : World} (h : Inv callID w) (hs : Step callID w w') : Inv callID w' := by
  cases hs with
  | start k wd mr hk hnew => exact inv_start h k wd mr hk hnew
  | decide k a last ha hlive hlast => exact inv_decide h ha hlast
  | dispatch k a now claim notSent ha hlive => exact inv_dispatch h now claim notSent ha
  | crashInDispatch k a now claim ha hlive hfail =>
    rcases enterDispatch_cases a.fence now claim .failedLost with ⟨h1, -⟩ | ⟨h1, -⟩ | ⟨-, -, heq⟩ | ⟨hopen, -, -, m, h2⟩
    · rw [h1] at hfail; cases hfail
    · rw [h1] at hfail; cases hfail
    · rw [heq] at hfail; cases hfail
    · rw [h2]
      exact inv_checkpointFailed h ha hopen
  | send k a ha hlive hwait => exact inv_send h ha hwait
  | sendReturned k a ha hlive hsend => exact inv_sendReturned h ha hsend
  | tick k a written ha hlive hrep =>
    have hi := h.attempt k a ha
    split
    · exact inv_heartbeat (m := a.fence.marker) h ha (hi.repeating hrep) hi.number (by simp [Fence.own])
    · exact h.put ha (by rw [List.append_nil]; exact hi) id id (by simp)
  | repeaterStopped k a ha hlive hrep =>
    have hi := h.attempt k a ha
    refine h.put ha ?_ id id (by simp)
    rw [List.append_nil]
    exact ⟨hi.number, hi.call, hi.positive, hi.once, hi.claimed, hi.preSend, hi.dispatched, hi.retried, hi.sending,
      hi.finished, fun _ => hi.repeating hrep, hi.permitted⟩
  | recordNotSent k a written ha hlive =>
    have hi := h.attempt k a ha
    rcases recordNotSent_cases a.fence written with heq | ⟨hopen, hne, m, h2⟩
    · rw [heq]
      exact h.put ha (by simpa using hi) id id (by simp)
    · rw [h2, if_neg hne]
      have hzero := count_eq_zero_of_not_dispatched hi hopen.2.1
      have hn := sent_not_mem_heartbeatEvents k (a.fence.own .notSent "") written
      have hi' := hi.append hn
      refine h.put ha ?_ id (fun _ => rfl) (eventOk_heartbeat hi.number hopen.1 (fun _ => rfl))
      exact ⟨hi'.number, hi'.call, hi'.positive, hi'.once, hi'.claimed,
        fun _ => by rw [count_sent_append_of_not_mem w.log hn]; exact hzero, hi'.dispatched, fun _ => hopen.1, hi'.sending,
        hi'.finished, hi'.repeating, hi'.permitted⟩
  | recordCanResend k a written ha hlive =>
    have hi := h.attempt k a ha
    unfold Fence.recordCanResend
    split
    · rename_i hg
      obtain ⟨m, hm⟩ := record_snd a.fence (a.fence.own .canResend "") written
      simp only [Fence.canRecordCanResend, Bool.and_eq_true] at hg
      rw [hm]
      exact inv_heartbeat h ha (hi.dispatched_of_finished hg.1.1) hi.number (by simp [Fence.own])
    · exact h.put ha (by rw [List.append_nil]; exact hi) id id (by simp)
  | recordProviderID k a providerID written ha hlive =>
    have hi := h.attempt k a ha
    unfold Fence.recordProviderID
    split
    · rename_i hg
      obtain ⟨m, hm⟩ := record_snd a.fence (a.fence.own .claimed providerID) written
      simp only [Fence.canRecordProviderID, Bool.and_eq_true] at hg
      rw [hm]
      exact inv_heartbeat h ha (hi.dispatched_of_finished hg.1.1) hi.number (by simp [Fence.own])
    · exact h.put ha (by rw [List.append_nil]; exact hi) id id (by simp)
  | crash k a ha =>
    have hi := h.attempt k a ha
    refine h.put ha ?_ id id (by simp)
    rw [List.append_nil]
    exact ⟨hi.number, hi.call, hi.positive, hi.once, hi.claimed, hi.preSend, hi.dispatched, hi.retried, hi.sending,
      hi.finished, hi.repeating, hi.permitted⟩

theorem inv_run {callID : String} {w : World} (h : Run callID w) : Inv callID w := by
  induction h with
  | init =>
    refine ⟨fun k a hk => ?_, fun m hm => ?_, fun k _ hm => ?_, fun k pre post hlog => ?_⟩
    · cases hk
    · cases hm
    · cases hm
    · cases pre <;> cases hlog
  | step _ hs ih => exact inv_step ih hs

/-! ## The guarantee -/

/-- **No attempt after a send without `canResend` is ever allowed to send.**  The induction is on the distance from the
sending attempt: permission for `j` needs a releasing marker of `j - 1`, and whoever stored it was allowed to send. -/
theorem not_maySend_after {callID : String} {w : World} (h : Inv callID w) {k : Int} (hsent : Event.sent k ∈ w.log)
    (hno : ∀ m, Event.stored m ∈ w.log → m.attempt = k → m.state ≠ .canResend) :
    ∀ (n : Nat) (a : Attempt), w.attempts (k + n + 1) = some a → ¬ a.fence.maySend := by
  have hk1 : 1 ≤ k := by
    cases hk : w.attempts k with
    | none => exact absurd hsent (h.unstarted k hk)
    | some b => exact (h.attempt k b hk).positive
  intro n
  induction n with
  | zero =>
    intro a ha hmay
    rcases (h.attempt _ a ha).permitted hmay.2 with h1 | ⟨m, hm, hnum, hrel⟩
    · omega
    · have hmk : m.attempt = k := by omega
      obtain ⟨b, hb, -, hns⟩ := h.stored m hm
      rcases hrel with hrel | hrel
      · rw [hmk] at hb
        have := (h.attempt k b hb).preSend (hns hrel)
        have := List.count_pos_iff.2 hsent
        omega
      · exact hno m hm hmk hrel
  | succ n ih =>
    intro a ha hmay
    rcases (h.attempt _ a ha).permitted hmay.2 with h1 | ⟨m, hm, hnum, -⟩
    · omega
    · obtain ⟨b, hb, hbmay, -⟩ := h.stored m hm
      refine ih b ?_ hbmay
      rw [← hb]
      congr 1
      rw [hnum]
      push_cast
      omega

theorem maySend_of_sent {callID : String} {w : World} (h : Inv callID w) {k : Int} (hsent : Event.sent k ∈ w.log) :
    ∃ a, w.attempts k = some a ∧ a.fence.maySend := by
  cases hk : w.attempts k with
  | none => exact absurd hsent (h.unstarted k hk)
  | some a =>
    have hi := h.attempt k a hk
    have := List.count_pos_iff.2 hsent
    exact ⟨a, rfl, hi.dispatched (hi.claimed (by omega)).1⟩

/-- **At-most-once dispatch.**  In every run: each attempt invokes `send` at most once, and only after its own claim was
recorded without error; and an attempt that invoked `send` and never stored `canResend` is the last one to send. -/
theorem dispatch_at_most_once {callID : String} {w : World} (h : Run callID w) :
    (∀ k, w.log.count (.sent k) ≤ 1) ∧
    (∀ k pre post, w.log = pre ++ .sent k :: post → Event.recorded (claimOf callID k) ∈ pre) ∧
    (∀ k, Event.sent k ∈ w.log → (∀ m, Event.stored m ∈ w.log → m.attempt = k → m.state ≠ .canResend) →
      ∀ j, k < j → Event.sent j ∉ w.log) := by
  have hi := inv_run h
  refine ⟨fun k => ?_, hi.ordered, fun k hsent hno j hj hsj => ?_⟩
  · cases hk : w.attempts k with
    | none => rw [List.count_eq_zero_of_not_mem (hi.unstarted k hk)]; omega
    | some a => have := (hi.attempt k a hk).once; omega
  · obtain ⟨a, ha, hmay⟩ := maySend_of_sent hi hsj
    have hj' : j = k + ((j - k - 1).toNat : Nat) + 1 := by omega
    exact not_maySend_after hi hsent hno _ a (hj' ▸ ha) hmay

/-- Attempt one claims, sends and crashes; attempt two, which then starts, has sent nothing. -/
theorem dispatch_at_most_once_crashed_attempt : ∃ w, Run "call" w ∧ Event.sent 1 ∈ w.log ∧ (w.attempts 2).isSome ∧
    w.log.count (.sent 1) ≤ 1 ∧ Event.sent 2 ∉ w.log := by
  have h1 := Run.step (@Run.init "call") (.start _ 1 100 10 (by decide) (by simp [World.init]))
  have h2 := Run.step h1 (.decide _ 1 _ .nothing rfl rfl trivial)
  have h3 := Run.step h2 (.dispatch _ 1 _ 0 .ok .ok rfl rfl)
  have h4 := Run.step h3 (.send _ 1 _ rfl rfl (by decide))
  have h5 := Run.step h4 (.crash _ 1 _ rfl)
  have h6 := Run.step h5 (.start _ 2 200 10 (by decide) (fun j hj => by
    by_cases hj1 : j = 1
    · omega
    · simp [World.put, World.init, hj1] at hj))
  refine ⟨_, h6, by decide, rfl, (dispatch_at_most_once h6).1 1, (dispatch_at_most_once h6).2.2 1 (by decide) ?_ 2 (by decide)⟩
  intro m hm hk
  have hm' : m = claimOf "call" 1 := by
    simpa [World.put, World.init, enterEvents, heartbeatEvents, Fence.enterDispatch, Fence.decide, Fence.decisionFor,
      Fence.record, Fence.own, claimOf] using hm
  rw [hm']
  decide

end SingleDispatch
end Dex
