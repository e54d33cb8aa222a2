import DexConnectors.FenceAsyncPython
/-!
# FenceAsyncTypeScript — the promise fence (`sdkts/src/singledispatch/fence.ts`) and the protocol

There is no lock: what is atomic is what runs between two awaits, and a promise that settled is seen by its awaiter some turns
later.  So a record is a write, the turn that keeps its marker, and the turn of its caller.  A `dispatch` that sends has a
ticker and a chain of `queued` heartbeat callbacks of its own, at most the first of them `writing`; `ended` is how `send`
settled.

`fences_dispatch_once` is about the runs of both fences.
-/
namespace Dex
namespace AsyncFence
namespace TypeScript

open SingleDispatch

structure Fence where
  callID                   : String
  attempt                  : Int
  writeDeadline            : Int
  minimumRequestTime       : Int
  decision                 : Option Exposed
  hasDispatched            : Bool
  hasSendFinished          : Bool
  hasPreSendRetry          : Bool
  hasTerminalRecordPending : Bool
  marker                   : Option Marker

def Fence.own (f : Fence) (state : DispatchState) (providerID : String) : Marker := ⟨f.callID, f.attempt, state, providerID⟩

/-- Which method records a marker. -/
inductive Purpose where
  | shortBudget      -- `recordNotSent` in `dispatch`
  | notSent
  | terminal         -- `recordCanResend`, `recordProviderId`
  deriving DecidableEq

inductive Task where
  | entering (op : Op)
  | claiming
  | claimRecorded                                      -- `#record` keeps the claim next
  | claimed                                            -- `dispatch` sends next
  | claimFailed                                        -- its catch runs next
  | compensating
  | sending (queued : Nat) (writing : Bool) (ended : Option Outcome)
  | recording (marker : Marker) (purpose : Purpose)
  | recorded (marker : Marker) (purpose : Purpose)     -- `#record` keeps the marker next
  | clearing (outcome : Outcome)                       -- the finally of a terminal record runs next
  | finished (outcome : Outcome)
  deriving DecidableEq

structure Attempt where
  fence : Fence
  tasks : List Task
  begun : List Marker

inductive Input where
  | go (last : Last) (now : Int)
  | ok                               -- the heartbeat resolved
  | fail                             -- it rejected
  | tick                             -- the interval
  | callback                         -- the next callback of the chain
  | settled (outcome : Outcome)      -- `send`
  deriving DecidableEq

structure Resumed where
  fence  : Fence
  task   : Task
  events : List Event
  begun  : List Marker
  read   : Option Last

def Resumed.quiet (f : Fence) (t : Task) : Resumed := ⟨f, t, [], [], none⟩

section Fences

variable (isZodUUID : String → Bool)

def Fence.decisionFor (f : Fence) : Last → Exposed
  | .error => (.failClosed, none)
  | .nothing => decideDispatchTypeScript isZodUUID f.callID f.attempt none
  | .value m => decideDispatchTypeScript isZodUUID f.callID f.attempt (some (wire m))

def Fence.isOpen (f : Fence) : Bool :=
  f.decision.map Prod.fst == some .sendAllowed && !f.hasDispatched && !f.hasPreSendRetry

def Fence.isShort (f : Fence) (now : Int) : Bool :=
  f.minimumRequestTime ≤ 0 || f.writeDeadline - now < f.minimumRequestTime

def isClaim (marker : Option Marker) (bare : Bool) : Bool :=
  match marker with
  | some m => m.state == .claimed && (!bare || m.providerID == "")
  | none => false

/-- `recordNotSent`, once allowed. -/
def Fence.beginNotSent (f : Fence) (purpose : Purpose) : Resumed :=
  ⟨{ f with hasPreSendRetry := true }, .recording (f.own .notSent "") purpose, [], [f.own .notSent ""], none⟩

/-- A terminal record, once allowed. -/
def Fence.beginTerminal (f : Fence) (m : Marker) : Resumed :=
  ⟨{ f with hasTerminalRecordPending := true }, .recording m .terminal, [], [m], none⟩

def Fence.mayFinish (f : Fence) (bare : Bool) : Bool :=
  f.hasSendFinished && !f.hasTerminalRecordPending && isClaim f.marker bare

/-- A call, to its first await. -/
def Fence.enter (f : Fence) (last : Last) (now : Int) : Op → Resumed
  | .decide =>
    if f.decision.isSome then .quiet f (.finished .returned)
    else ⟨{ f with decision := some (f.decisionFor isZodUUID last) }, .finished .returned, [], [], some last⟩
  | .dispatch =>
    if !f.isOpen then .quiet f (.finished .notAllowed)
    else if f.isShort now then f.beginNotSent .shortBudget
    else ⟨{ f with hasDispatched := true }, .claiming, [], [f.own .claimed ""], none⟩
  | .recordNotSent => if !f.isOpen then .quiet f (.finished .notAllowed) else f.beginNotSent .notSent
  | .recordCanResend =>
    if f.mayFinish true then f.beginTerminal (f.own .canResend "") else .quiet f (.finished .notAllowed)
  | .recordProviderID providerID =>
    if f.mayFinish false && providerID != "" then f.beginTerminal (f.own .claimed providerID)
    else .quiet f (.finished .notAllowed)

/-- How a call goes on whose marker is kept. -/
def Purpose.kept : Purpose → Task
  | .shortBudget => .finished .insufficientTime
  | .notSent => .finished .returned
  | .terminal => .clearing .returned

/-- How a call goes on whose heartbeat rejected. -/
def Purpose.failed : Purpose → Task
  | .shortBudget => .finished .aggregate
  | .notSent => .finished .heartbeat
  | .terminal => .clearing .heartbeat

/-- A task, from its await to the next; none while it goes on waiting. -/
def Fence.resume (f : Fence) : Task → Input → Option Resumed
  | .entering op, .go last now => some (f.enter isZodUUID last now op)
  | .claiming, .ok =>
    some ⟨f, .claimRecorded, [.stored (f.own .claimed ""), .recorded (f.own .claimed "")], [], none⟩
  | .claiming, .fail => some (.quiet f .claimFailed)
  | .claimRecorded, .go _ _ => some (.quiet { f with marker := some (f.own .claimed "") } .claimed)
  | .claimed, .go _ _ => some ⟨f, .sending 0 false none, [.sent f.attempt], [], none⟩
  | .claimFailed, .go _ _ => some ⟨{ f with hasPreSendRetry := true }, .compensating, [], [f.own .notSent ""], none⟩
  | .compensating, .ok =>
    some ⟨f, .finished .checkpoint, [.stored (f.own .notSent ""), .recorded (f.own .notSent "")], [], none⟩
  | .compensating, .fail => some (.quiet f (.finished .checkpoint))
  | .sending queued writing none, .tick =>
    some (.quiet f (.sending (if isClaim f.marker true then queued + 1 else queued) writing none))
  | .sending queued writing none, .settled outcome => some (.quiet f (.sending queued writing (some outcome)))
  | .sending queued writing ended, .callback =>
    if queued = 0 ∨ writing = true then none
    else if isClaim f.marker true then
      some ⟨f, .sending queued true ended, [.repeats (f.own .claimed "")], [f.own .claimed ""], none⟩
    else some (.quiet f (.sending (queued - 1) false ended))
  | .sending queued true ended, .ok =>
    some ⟨f, .sending (queued - 1) false ended, [.stored (f.own .claimed ""), .recorded (f.own .claimed "")], [], none⟩
  | .sending queued true ended, .fail => some (.quiet f (.sending (queued - 1) false ended))
  | .sending 0 _ (some outcome), .go _ _ =>
    -- the chain that the finally awaits has settled
    some (.quiet { f with hasSendFinished := true } (.finished outcome))
  | .recording m purpose, .ok => some ⟨f, .recorded m purpose, [.stored m, .recorded m], [], none⟩
  | .recording _ purpose, .fail => some (.quiet f purpose.failed)
  | .recorded m purpose, .go _ _ => some (.quiet { f with marker := some m } purpose.kept)
  | .clearing outcome, .go _ _ => some (.quiet { f with hasTerminalRecordPending := false } (.finished outcome))
  | _, _ => none

inductive Act where
  | call (op : Op)
  | resume (i : Nat) (input : Input)
  | arrive (marker : Marker)

def Attempt.act (a : Attempt) : Act → Option (Option Last × List Event × Attempt)
  | .call op => some (none, [], { a with tasks := a.tasks ++ [.entering op] })
  | .resume i input =>
    match a.tasks[i]? with
    | none => none
    | some t =>
      (a.fence.resume isZodUUID t input).map
        (fun r => (r.read, r.events, ⟨r.fence, a.tasks.set i r.task, r.begun ++ a.begun⟩))
  | .arrive m => if m ∈ a.begun then some (none, [.stored m], a) else none

def system (callID : String) : System where
  State := Attempt
  start := fun k a => ∃ writeDeadline minimumRequestTime,
    a = ⟨⟨callID, k, writeDeadline, minimumRequestTime, none, false, false, false, false, none⟩, [], []⟩
  step := fun a read evs a' => ∃ act, a.act isZodUUID act = some (read, evs, a')

end Fences

/-! ## Refinement -/

def Task.stage : Task → Option Stage
  | .claiming => some .claiming
  | .claimRecorded | .claimed => some .claimed
  | .claimFailed => some .abandoned
  | .sending _ _ _ => some .sending
  | _ => none

def Task.writes (callID : String) (k : Int) : Task → Option Marker
  | .claiming | .sending _ true _ => some (claimOf callID k)
  | .compensating => some (notSentOf callID k)
  | .recording m _ => some m
  | _ => none

structure Rel (callID : String) (a : Attempt) (l : Ledger) : Prop where
  call       : a.fence.callID = callID
  number     : a.fence.attempt = l.number
  decided    : l.decided = a.fence.decision.isSome
  allowed    : a.fence.decision.map Prod.fst = some .sendAllowed → l.allowed = true
  retried    : l.retried = a.fence.hasPreSendRetry
  idle       : a.fence.hasDispatched = false → l.stage = .idle
  settled    : a.fence.hasSendFinished = true → l.stage = .settled
  begun      : a.begun = l.begun
  stages     : Exclusive Task.stage a.tasks l.stage
  writes     : ∀ t ∈ a.tasks, ∀ m, t.writes callID l.number = some m → m ∈ l.begun

variable {isZodUUID : String → Bool} {callID : String}

theorem decideDispatchTypeScript_sendAllowed {attempt : Int} {heartbeat : Option WireMarker}
    (h : (decideDispatchTypeScript isZodUUID callID attempt heartbeat).1 = .sendAllowed) :
    attempt = 1 ∨ ∃ wire, heartbeat = some wire ∧ wire.attempt = attempt - 1 ∧ releases wire.marker := by
  unfold decideDispatchTypeScript at h
  split at h
  · cases h
  cases heartbeat with
  | none =>
    dsimp only at h
    split at h
    next hone => exact .inl hone
    · cases h
  | some wire =>
    dsimp only at h
    cases hwire : markerSchema isZodUUID wire with
    | none =>
      rw [hwire] at h
      cases h
    | some marker =>
      rw [hwire] at h
      dsimp only at h
      have hmarker : wire.marker = marker := by
        unfold markerSchema at hwire
        split at hwire
        · exact Option.some.inj hwire
        · cases hwire
      split at h
      · cases h
      split at h
      next hrel =>
        subst hmarker
        exact .inr ⟨wire, rfl, hrel.1, hrel.2.1⟩
      · cases h

theorem decisionFor_sendAllowed {f : Fence} {last : Last} (h : (f.decisionFor isZodUUID last).1 = .sendAllowed) :
    f.attempt = 1 ∨ ∃ m, last = .value m ∧ m.attempt = f.attempt - 1 ∧ releases (wire m).marker := by
  cases last with
  | error => cases h
  | nothing =>
    rcases decideDispatchTypeScript_sendAllowed h with hone | ⟨w, hw, -⟩
    · exact .inl hone
    · cases hw
  | value m =>
    rcases decideDispatchTypeScript_sendAllowed h with hone | ⟨w, hw, hnum, hrel⟩
    · exact .inl hone
    · cases hw
      exact .inr ⟨m, rfl, hnum, hrel⟩

section Steps

variable {a : Attempt} {l : Ledger} {i : Nat} {t : Task}

theorem Rel.own_claim (h : Rel callID a l) : a.fence.own .claimed "" = claimOf callID l.number := by
  rw [Fence.own, claimOf, h.call, h.number]

theorem Rel.own_notSent (h : Rel callID a l) : a.fence.own .notSent "" = notSentOf callID l.number := by
  rw [Fence.own, notSentOf, h.call, h.number]

/-- The writes of the tasks once one went on. -/
theorem Rel.writes_set (h : Rel callID a l) {begun : List Marker} (hsub : ∀ m ∈ l.begun, m ∈ begun) {t' : Task}
    (ht' : ∀ m, t'.writes callID l.number = some m → m ∈ begun) :
    ∀ u ∈ a.tasks.set i t', ∀ m, u.writes callID l.number = some m → m ∈ begun := by
  intro u hu m hm
  rcases List.mem_or_eq_of_mem_set hu with hu | rfl
  · exact hsub m (h.writes u hu m hm)
  · exact ht' m hm

/-- **A task goes on without driving or writing anything**; only the fence's last marker or its pending record changes. -/
theorem Rel.quiet (h : Rel callID a l) (marker : Option Marker) (pending : Bool) (t' : Task) (hs : t'.stage = none)
    (hw : t'.writes callID l.number = none) :
    Rel callID ⟨{ a.fence with marker := marker, hasTerminalRecordPending := pending }, a.tasks.set i t', a.begun⟩ l :=
  { h with
    stages := h.stages.drop hs
    writes := h.writes_set (fun _ hm => hm) (fun m hm => by cases hw.symm.trans hm) }

theorem Rel.isOpen (h : Rel callID a l) (ho : ¬ (!a.fence.isOpen) = true) :
    l.allowed = true ∧ l.stage = .idle ∧ l.retried = false := by
  simp only [Fence.isOpen, Bool.not_and, Bool.or_eq_true, Bool.not_eq_true', not_or, Bool.not_eq_false, beq_iff_eq,
    Bool.not_not, Bool.not_eq_true] at ho
  obtain ⟨⟨hd, hdispatched⟩, hretried⟩ := ho
  exact ⟨h.allowed hd, h.idle hdispatched, h.retried.trans hretried⟩

theorem stage_ne_idle (u : Task) : u.stage ≠ some .idle := by
  cases u <;> simp [Task.stage]

theorem Rel.stage_eq (h : Rel callID a l) (hi : a.tasks[i]? = some t) {stage : Stage} (ht : t.stage = some stage) :
    l.stage = stage := (h.stages i t stage hi ht).1.symm

theorem Rel.not_settled (h : Rel callID a l) (hs : l.stage ≠ .settled) : a.fence.hasSendFinished ≠ true :=
  fun hf => hs (h.settled hf)

theorem Rel.dispatched (h : Rel callID a l) (hs : l.stage ≠ .idle) : a.fence.hasDispatched ≠ false :=
  fun hd => hs (h.idle hd)

def Simulates (callID : String) (l : Ledger) (read : Option Last) (evs : List Event) (a' : Attempt) : Prop :=
  ∃ l', Ledger.Steps callID l l' ∧ Rel callID a' l' ∧ l'.hist = l.hist ++ evs ∧ l'.reads = l.reads ++ read.toList

theorem Rel.stay {a' : Attempt} (h : Rel callID a' l) : Simulates callID l none [] a' :=
  ⟨l, .refl, h, (List.append_nil _).symm, (List.append_nil _).symm⟩

theorem Rel.decides (h : Rel callID a l) (hd : ¬ a.fence.decision.isSome = true) (last : Last) :
    Simulates callID l (some last) []
      ⟨{ a.fence with decision := some (a.fence.decisionFor isZodUUID last) }, a.tasks.set i (.finished .returned), a.begun⟩ := by
  have hundecided : l.decided = false := by
    rw [h.decided, Bool.not_eq_true] at *
    exact hd
  have hstep := @Ledger.Step.decide callID l last (decide ((a.fence.decisionFor isZodUUID last).1 = .sendAllowed))
    hundecided (fun hallowed => ?_)
  · refine ⟨_, .single hstep, ?_, (List.append_nil _).symm, rfl⟩
    exact { h with
      decided := rfl
      allowed := fun hs => decide_eq_true (Option.some.inj hs)
      stages := h.stages.drop rfl
      writes := h.writes_set (fun _ hm => hm) (fun m hm => by cases hm) }
  · rcases decisionFor_sendAllowed (of_decide_eq_true hallowed) with hone | ⟨m, hlast, hnum, hrel⟩
    · exact .inl (h.number.symm.trans hone)
    · exact .inr ⟨m, hlast, by rw [← h.number]; exact hnum, hrel⟩

theorem Rel.giveUp (h : Rel callID a l) (ho : ¬ (!a.fence.isOpen) = true) (purpose : Purpose) :
    Simulates callID l none [] ⟨{ a.fence with hasPreSendRetry := true },
      a.tasks.set i (.recording (a.fence.own .notSent "") purpose), a.fence.own .notSent "" :: a.begun⟩ := by
  obtain ⟨hallowed, hidle, -⟩ := h.isOpen ho
  rw [h.own_notSent]
  refine ⟨_, .single (.giveUp l hallowed (.inl hidle)), ?_, (List.append_nil _).symm, (List.append_nil _).symm⟩
  exact { h with
    retried := rfl
    begun := by rw [h.begun]
    stages := h.stages.drop rfl
    writes := h.writes_set (fun _ hm => List.mem_cons_of_mem _ hm) (fun m hm => by
      cases hm
      exact List.mem_cons_self) }

theorem Rel.claim (h : Rel callID a l) (ho : ¬ (!a.fence.isOpen) = true) :
    Simulates callID l none [] ⟨{ a.fence with hasDispatched := true }, a.tasks.set i .claiming,
      a.fence.own .claimed "" :: a.begun⟩ := by
  obtain ⟨hallowed, hidle, hretried⟩ := h.isOpen ho
  have hunsettled := h.not_settled (by rw [hidle]; decide)
  rw [h.own_claim]
  refine ⟨_, .single (.claim l hallowed hidle hretried), ?_, (List.append_nil _).symm, (List.append_nil _).symm⟩
  exact { h with
    idle := fun hd => by cases hd
    settled := fun hf => absurd hf hunsettled
    begun := by rw [h.begun]
    stages := h.stages.enter (fun u => by rw [hidle]; exact stage_ne_idle u) (fun stage hs => (Option.some.inj hs).symm)
    writes := h.writes_set (fun _ hm => List.mem_cons_of_mem _ hm) (fun m hm => by
      cases hm
      exact List.mem_cons_self) }

theorem Rel.finish (h : Rel callID a l) {bare : Bool} (hc : a.fence.mayFinish bare = true) {m : Marker}
    (hm : IsTerminal callID l.number m) :
    Simulates callID l none [] ⟨{ a.fence with hasTerminalRecordPending := true }, a.tasks.set i (.recording m .terminal),
      m :: a.begun⟩ := by
  have hfinished : a.fence.hasSendFinished = true := by
    rw [Fence.mayFinish, Bool.and_eq_true, Bool.and_eq_true] at hc
    exact hc.1.1
  refine ⟨_, .single (.finish l m (h.settled hfinished) hm), ?_, (List.append_nil _).symm, (List.append_nil _).symm⟩
  exact { h with
    begun := by rw [h.begun]
    stages := h.stages.drop rfl
    writes := h.writes_set (fun _ hm => List.mem_cons_of_mem _ hm) (fun m' hm' => by
      cases hm'
      exact List.mem_cons_self) }

theorem Rel.enter (h : Rel callID a l) (last : Last) (now : Int) (op : Op) :
    let r := a.fence.enter isZodUUID last now op
    Simulates callID l r.read r.events ⟨r.fence, a.tasks.set i r.task, r.begun ++ a.begun⟩ := by
  have hquiet : ∀ outcome, Simulates callID l none [] ⟨a.fence, a.tasks.set i (.finished outcome), [] ++ a.begun⟩ :=
    fun outcome => (h.quiet a.fence.marker a.fence.hasTerminalRecordPending (.finished outcome) rfl rfl).stay
  cases op with
  | decide =>
    dsimp only [Fence.enter]
    by_cases hd : a.fence.decision.isSome = true
    · rw [if_pos hd]
      exact hquiet .returned
    · rw [if_neg hd]
      exact h.decides hd last
  | dispatch =>
    dsimp only [Fence.enter]
    by_cases ho : (!a.fence.isOpen) = true
    · rw [if_pos ho]
      exact hquiet .notAllowed
    · rw [if_neg ho]
      by_cases hshort : a.fence.isShort now = true
      · rw [if_pos hshort]
        exact h.giveUp ho .shortBudget
      · rw [if_neg hshort]
        exact h.claim ho
  | recordNotSent =>
    dsimp only [Fence.enter]
    by_cases ho : (!a.fence.isOpen) = true
    · rw [if_pos ho]
      exact hquiet .notAllowed
    · rw [if_neg ho]
      exact h.giveUp ho .notSent
  | recordCanResend =>
    dsimp only [Fence.enter]
    by_cases hc : a.fence.mayFinish true = true
    · rw [if_pos hc]
      exact h.finish hc ⟨h.call, h.number, .inl rfl⟩
    · rw [if_neg hc]
      exact hquiet .notAllowed
  | recordProviderID providerID =>
    dsimp only [Fence.enter]
    by_cases hc : (a.fence.mayFinish false && providerID != "") = true
    · rw [if_pos hc]
      rw [Bool.and_eq_true, bne_iff_ne] at hc
      exact h.finish hc.1 ⟨h.call, h.number, .inr ⟨rfl, hc.2⟩⟩
    · rw [if_neg hc]
      exact hquiet .notAllowed

/-- The task that drives the dispatch goes on at the same stage. -/
theorem Rel.drive (h : Rel callID a l) (hi : a.tasks[i]? = some t) {stage : Stage} (ht : t.stage = some stage)
    (marker : Option Marker) {t' : Task} (ht' : t'.stage = some stage)
    (hw : ∀ m, t'.writes callID l.number = some m → m ∈ l.begun) :
    Rel callID ⟨{ a.fence with marker := marker }, a.tasks.set i t', a.begun⟩ l :=
  { h with
    stages := h.stages.consume hi ht (fun stage' hs => by
      rw [h.stage_eq hi ht]
      exact Option.some.inj (hs.symm.trans ht'))
    writes := h.writes_set (fun _ hm => hm) hw }

/-- The claim was recorded. -/
theorem Rel.claims (h : Rel callID a l) (hi : a.tasks[i]? = some .claiming) :
    Simulates callID l none [.stored (a.fence.own .claimed ""), .recorded (a.fence.own .claimed "")]
      ⟨a.fence, a.tasks.set i .claimRecorded, a.begun⟩ := by
  have hstage : l.stage = .claiming := h.stage_eq hi rfl
  have hbegun : claimOf callID l.number ∈ l.begun := h.writes .claiming (List.mem_of_getElem? hi) _ rfl
  have hrecorded : Ledger.Steps callID l _ := Ledger.steps_recorded hbegun
  have hdispatched := h.dispatched (by rw [hstage]; decide)
  have hunsettled := h.not_settled (by rw [hstage]; decide)
  rw [h.own_claim]
  refine ⟨_, hrecorded.tail (.claimed _ hstage (List.mem_append_right _ (by simp))), ?_, rfl, (List.append_nil _).symm⟩
  exact { h with
    idle := fun hd => absurd hd hdispatched
    settled := fun hf => absurd hf hunsettled
    stages := h.stages.consume hi rfl (fun stage hs => (Option.some.inj hs).symm)
    writes := h.writes_set (fun _ hm => hm) (fun m hm => by cases hm) }

/-- The claim failed. -/
theorem Rel.abandons (h : Rel callID a l) (hi : a.tasks[i]? = some .claiming) :
    Simulates callID l none [] ⟨a.fence, a.tasks.set i .claimFailed, a.begun⟩ := by
  have hstage : l.stage = .claiming := h.stage_eq hi rfl
  have hdispatched := h.dispatched (by rw [hstage]; decide)
  have hunsettled := h.not_settled (by rw [hstage]; decide)
  refine ⟨_, .single (.abandon l hstage), ?_, (List.append_nil _).symm, (List.append_nil _).symm⟩
  exact { h with
    idle := fun hd => absurd hd hdispatched
    settled := fun hf => absurd hf hunsettled
    stages := h.stages.consume hi rfl (fun stage hs => (Option.some.inj hs).symm)
    writes := h.writes_set (fun _ hm => hm) (fun m hm => by cases hm) }

theorem Rel.compensates (h : Rel callID a l) (hinv : Ledger.Inv callID l) (hi : a.tasks[i]? = some .claimFailed) :
    Simulates callID l none [] ⟨{ a.fence with hasPreSendRetry := true }, a.tasks.set i .compensating,
      a.fence.own .notSent "" :: a.begun⟩ := by
  have hstage : l.stage = .abandoned := h.stage_eq hi rfl
  rw [h.own_notSent]
  refine ⟨_, .single (.giveUp l (hinv.moved (by rw [hstage]; decide)) (.inr hstage)), ?_, (List.append_nil _).symm,
    (List.append_nil _).symm⟩
  exact { h with
    retried := rfl
    begun := by rw [h.begun]
    stages := h.stages.consume hi rfl (fun stage hs => by cases hs)
    writes := h.writes_set (fun _ hm => List.mem_cons_of_mem _ hm) (fun m hm => by
      cases hm
      exact List.mem_cons_self) }

theorem Rel.sends (h : Rel callID a l) (hi : a.tasks[i]? = some .claimed) :
    Simulates callID l none [.sent a.fence.attempt] ⟨a.fence, a.tasks.set i (.sending 0 false none), a.begun⟩ := by
  have hstage : l.stage = .claimed := h.stage_eq hi rfl
  have hdispatched := h.dispatched (by rw [hstage]; decide)
  have hunsettled := h.not_settled (by rw [hstage]; decide)
  rw [h.number]
  refine ⟨_, .single (.send l hstage), ?_, rfl, (List.append_nil _).symm⟩
  exact { h with
    idle := fun hd => absurd hd hdispatched
    settled := fun hf => absurd hf hunsettled
    stages := h.stages.consume hi rfl (fun stage hs => (Option.some.inj hs).symm)
    writes := h.writes_set (fun _ hm => hm) (fun m hm => by cases hm) }

/-- A callback of the chain begins to write the claim again; nothing but the claim was recorded while the send is not
settled. -/
theorem Rel.repeats (h : Rel callID a l) (hinv : Ledger.Inv callID l) {queued : Nat} {writing : Bool} {ended : Option Outcome}
    (hi : a.tasks[i]? = some (.sending queued writing ended)) :
    Simulates callID l none [.repeats (a.fence.own .claimed "")]
      ⟨a.fence, a.tasks.set i (.sending queued true ended), a.fence.own .claimed "" :: a.begun⟩ := by
  have hstage : l.stage = .sending := h.stage_eq hi rfl
  rw [h.own_claim]
  refine ⟨_, .single (.repeats l (.inl hstage) (fun m hm => hinv.recorded_claim (.inr (.inr hstage)) hm)), ?_, rfl,
    (List.append_nil _).symm⟩
  exact { h with
    begun := by rw [h.begun]
    stages := h.stages.consume hi rfl (fun stage hs => (Option.some.inj hs).symm.trans hstage.symm)
    writes := h.writes_set (fun _ hm => List.mem_cons_of_mem _ hm) (fun m hm => by
      cases hm
      exact List.mem_cons_self) }

theorem Rel.settles (h : Rel callID a l) {writing : Bool} {outcome : Outcome}
    (hi : a.tasks[i]? = some (.sending 0 writing (some outcome))) :
    Simulates callID l none [] ⟨{ a.fence with hasSendFinished := true }, a.tasks.set i (.finished outcome), a.begun⟩ := by
  have hstage : l.stage = .sending := h.stage_eq hi rfl
  have hdispatched := h.dispatched (by rw [hstage]; decide)
  refine ⟨_, .single (.settle l hstage), ?_, (List.append_nil _).symm, (List.append_nil _).symm⟩
  exact { h with
    idle := fun hd => absurd hd hdispatched
    settled := fun _ => rfl
    stages := h.stages.consume hi rfl (fun stage hs => by cases hs)
    writes := h.writes_set (fun _ hm => hm) (fun m hm => by cases hm) }

/-- A heartbeat resolved. -/
theorem Rel.recorded {a' : Attempt} (h : Rel callID a' l) {m : Marker} (hm : m ∈ l.begun) :
    Simulates callID l none [.stored m, .recorded m] a' :=
  ⟨_, Ledger.steps_recorded hm, { h with }, rfl, (List.append_nil _).symm⟩

theorem stage_kept (purpose : Purpose) : purpose.kept.stage = none ∧ ∀ k, purpose.kept.writes callID k = none := by
  cases purpose <;> exact ⟨rfl, fun _ => rfl⟩

theorem stage_failed (purpose : Purpose) : purpose.failed.stage = none ∧ ∀ k, purpose.failed.writes callID k = none := by
  cases purpose <;> exact ⟨rfl, fun _ => rfl⟩

/-- A sending task that goes on. -/
theorem Rel.resume_sending (h : Rel callID a l) (hinv : Ledger.Inv callID l) {queued : Nat} {writing : Bool}
    {ended : Option Outcome} (hi : a.tasks[i]? = some (.sending queued writing ended)) {input : Input} {r : Resumed}
    (hr : a.fence.resume isZodUUID (.sending queued writing ended) input = some r) :
    Simulates callID l r.read r.events ⟨r.fence, a.tasks.set i r.task, r.begun ++ a.begun⟩ := by
  have hwriting : writing = true → claimOf callID l.number ∈ l.begun := by
    rintro rfl
    exact h.writes _ (List.mem_of_getElem? hi) _ rfl
  have hdrive : ∀ queued' writing' ended', (writing' = true → writing = true) →
      Rel callID ⟨a.fence, a.tasks.set i (.sending queued' writing' ended'), a.begun⟩ l := by
    intro queued' writing' ended' hw
    refine h.drive hi rfl a.fence.marker rfl (fun m hm => ?_)
    cases writing' with
    | false => cases hm
    | true =>
      cases hm
      exact hwriting (hw rfl)
  cases input with
  | go last now =>
    cases queued with
    | succ n =>
      cases ended <;> cases hr
    | zero =>
      cases ended with
      | none => cases hr
      | some outcome =>
        cases hr
        exact h.settles hi
  | ok =>
    cases writing with
    | false => cases ended <;> cases hr
    | true =>
      have hrecorded := (hdrive (queued - 1) false ended (fun hw => by cases hw)).recorded (hwriting rfl)
      rw [← h.own_claim] at hrecorded
      cases ended <;> cases hr <;> exact hrecorded
  | fail =>
    cases writing with
    | false => cases ended <;> cases hr
    | true => cases ended <;> cases hr <;> exact (hdrive (queued - 1) false _ (fun hw => by cases hw)).stay
  | tick =>
    cases ended with
    | some outcome => cases hr
    | none =>
      cases hr
      exact (hdrive _ writing none id).stay
  | callback =>
    have hcallback : a.fence.resume isZodUUID (.sending queued writing ended) .callback =
        if queued = 0 ∨ writing = true then none
        else if isClaim a.fence.marker true then
          some ⟨a.fence, .sending queued true ended, [.repeats (a.fence.own .claimed "")], [a.fence.own .claimed ""], none⟩
        else some (.quiet a.fence (.sending (queued - 1) false ended)) := by
      cases ended <;> rfl
    rw [hcallback] at hr
    split at hr
    · cases hr
    split at hr
    · cases hr
      exact h.repeats hinv hi
    · cases hr
      exact (hdrive (queued - 1) false ended (fun hw => by cases hw)).stay
  | settled outcome =>
    cases ended with
    | some outcome' => cases hr
    | none =>
      cases hr
      exact (hdrive queued writing (some outcome) id).stay

/-- **What a task does from one await to the next is what the protocol lets the attempt do.** -/
theorem Rel.resume (h : Rel callID a l) (hinv : Ledger.Inv callID l) (hi : a.tasks[i]? = some t) {input : Input} {r : Resumed}
    (hr : a.fence.resume isZodUUID t input = some r) :
    Simulates callID l r.read r.events ⟨r.fence, a.tasks.set i r.task, r.begun ++ a.begun⟩ := by
  have hmem := List.mem_of_getElem? hi
  have hquiet : ∀ (t' : Task), t'.stage = none → t'.writes callID l.number = none →
      Rel callID ⟨a.fence, a.tasks.set i t', a.begun⟩ l :=
    fun t' hs hw => h.quiet a.fence.marker a.fence.hasTerminalRecordPending t' hs hw
  cases t with
  | entering op =>
    cases input with
    | go last now =>
      cases hr
      exact h.enter last now op
    | ok | fail | tick | callback | settled => cases hr
  | claiming =>
    cases input with
    | ok =>
      cases hr
      exact h.claims hi
    | fail =>
      cases hr
      exact h.abandons hi
    | go | tick | callback | settled => cases hr
  | claimRecorded =>
    cases input with
    | go last now =>
      cases hr
      exact (h.drive hi rfl (some (a.fence.own .claimed "")) rfl (fun m hm => by cases hm)).stay
    | ok | fail | tick | callback | settled => cases hr
  | claimed =>
    cases input with
    | go last now =>
      cases hr
      exact h.sends hi
    | ok | fail | tick | callback | settled => cases hr
  | claimFailed =>
    cases input with
    | go last now =>
      cases hr
      exact h.compensates hinv hi
    | ok | fail | tick | callback | settled => cases hr
  | compensating =>
    cases input with
    | ok =>
      cases hr
      dsimp only
      rw [h.own_notSent]
      exact (hquiet (.finished .checkpoint) rfl rfl).recorded (h.writes _ hmem _ rfl)
    | fail =>
      cases hr
      exact (hquiet (.finished .checkpoint) rfl rfl).stay
    | go | tick | callback | settled => cases hr
  | sending queued writing ended => exact h.resume_sending hinv hi hr
  | recording m purpose =>
    cases input with
    | ok =>
      cases hr
      exact (hquiet (.recorded m purpose) rfl rfl).recorded (h.writes _ hmem _ rfl)
    | fail =>
      cases hr
      obtain ⟨hs, hw⟩ := @stage_failed callID purpose
      exact (hquiet purpose.failed hs (hw l.number)).stay
    | go | tick | callback | settled => cases hr
  | recorded m purpose =>
    cases input with
    | go last now =>
      cases hr
      obtain ⟨hs, hw⟩ := @stage_kept callID purpose
      exact (h.quiet (some m) a.fence.hasTerminalRecordPending purpose.kept hs (hw l.number)).stay
    | ok | fail | tick | callback | settled => cases hr
  | clearing outcome =>
    cases input with
    | go last now =>
      cases hr
      exact (h.quiet a.fence.marker false (.finished outcome) rfl rfl).stay
    | ok | fail | tick | callback | settled => cases hr
  | finished outcome => cases input <;> cases hr

end Steps

/-- **The promise fences refine the protocol.** -/
def refines (isZodUUID : String → Bool) (callID : String) : Refines callID (system isZodUUID callID) where
  rel := Rel callID
  start := by
    rintro k a ⟨writeDeadline, minimumRequestTime, rfl⟩
    exact ⟨rfl, rfl, rfl, fun h => (by cases h), rfl, fun _ => rfl, fun h => (by cases h), rfl,
      fun i t stage hi => (by cases hi), fun t ht => (by cases ht)⟩
  step := by
    rintro a l read evs a' h hinv ⟨act, hact⟩
    cases act with
    | call op =>
      cases hact
      refine Rel.stay { h with stages := h.stages.push rfl, writes := fun t ht m hm => ?_ }
      rcases List.mem_append.1 ht with ht | ht
      · exact h.writes t ht m hm
      · rw [List.mem_singleton.1 ht] at hm
        cases hm
    | resume i input =>
      unfold Attempt.act at hact
      dsimp only at hact
      cases hi : a.tasks[i]? with
      | none =>
        rw [hi] at hact
        cases hact
      | some t =>
        rw [hi] at hact
        obtain ⟨r, hr, heq⟩ := Option.map_eq_some_iff.1 hact
        cases heq
        exact h.resume hinv hi hr
    | arrive m =>
      unfold Attempt.act at hact
      dsimp only at hact
      split at hact
      next hm =>
        cases hact
        exact ⟨_, .single (.store l m (h.begun ▸ hm)), { h with }, rfl, (List.append_nil _).symm⟩
      · cases hact

end TypeScript

/-- **The fences of Python and TypeScript dispatch a call at most once**: of any run of attempts, however their tasks
interleave, are cancelled or stop. -/
theorem fences_dispatch_once (isUUID isZodUUID : String → Bool) (callID : String) :
    (∀ w : World (Python.system isUUID callID), w.Run → Once callID w.log) ∧
      (∀ w : World (TypeScript.system isZodUUID callID), w.Run → Once callID w.log) :=
  ⟨fun _ h => World.dispatch_once (Python.refines isUUID callID) h,
    fun _ h => World.dispatch_once (TypeScript.refines isZodUUID callID) h⟩

/-- Attempt one decides, claims and sends; a heartbeat of the claim is written while `send` runs. -/
theorem fences_dispatch_once_sent :
    (∃ w : World (Python.system (fun _ => true) "call"), w.Run ∧ .repeats (SingleDispatch.claimOf "call" 1) ∈ w.log ∧
        Once "call" w.log) ∧
      ∃ w : World (TypeScript.system (fun _ => true) "call"), w.Run ∧ .repeats (SingleDispatch.claimOf "call" 1) ∈ w.log ∧
        Once "call" w.log := by
  constructor
  · have h0 := World.Run.step (@World.Run.init (Python.system (fun _ => true) "call")) (.start _ 1 _ (by decide) (fun j hj => by cases hj) ⟨100, 10, rfl⟩)
    have h1 := World.Run.step h0 (.act _ 1 _ _ _ _ rfl ⟨.call .decide, rfl⟩ (fun _ hl => by cases hl))
    have h2 := World.Run.step h1 (.act _ 1 _ _ _ _ rfl ⟨.resume 0 (.go .nothing 0), rfl⟩ (fun _ hl => by cases hl; trivial))
    have h3 := World.Run.step h2 (.act _ 1 _ _ _ _ rfl ⟨.call .dispatch, rfl⟩ (fun _ hl => by cases hl))
    have h4 := World.Run.step h3 (.act _ 1 _ _ _ _ rfl ⟨.resume 1 (.go .nothing 0), rfl⟩ (fun _ hl => by cases hl))
    have h5 := World.Run.step h4 (.act _ 1 _ _ _ _ rfl ⟨.resume 1 .ok, rfl⟩ (fun _ hl => by cases hl))
    have h6 := World.Run.step h5 (.act _ 1 _ _ _ _ rfl ⟨.resume 2 (.go .nothing 0), rfl⟩ (fun _ hl => by cases hl))
    have h7 := World.Run.step h6 (.act _ 1 _ _ _ _ rfl ⟨.resume 2 (.go .nothing 0), rfl⟩ (fun _ hl => by cases hl))
    exact ⟨_, h7, by decide, (fences_dispatch_once (fun _ => true) (fun _ => true) "call").1 _ h7⟩
  · have h0 := World.Run.step (@World.Run.init (TypeScript.system (fun _ => true) "call")) (.start _ 1 _ (by decide) (fun j hj => by cases hj) ⟨100, 10, rfl⟩)
    have h1 := World.Run.step h0 (.act _ 1 _ _ _ _ rfl ⟨.call .decide, rfl⟩ (fun _ hl => by cases hl))
    have h2 := World.Run.step h1 (.act _ 1 _ _ _ _ rfl ⟨.resume 0 (.go .nothing 0), rfl⟩ (fun _ hl => by cases hl; trivial))
    have h3 := World.Run.step h2 (.act _ 1 _ _ _ _ rfl ⟨.call .dispatch, rfl⟩ (fun _ hl => by cases hl))
    have h4 := World.Run.step h3 (.act _ 1 _ _ _ _ rfl ⟨.resume 1 (.go .nothing 0), rfl⟩ (fun _ hl => by cases hl))
    have h5 := World.Run.step h4 (.act _ 1 _ _ _ _ rfl ⟨.resume 1 .ok, rfl⟩ (fun _ hl => by cases hl))
    have h6 := World.Run.step h5 (.act _ 1 _ _ _ _ rfl ⟨.resume 1 (.go .nothing 0), rfl⟩ (fun _ hl => by cases hl))
    have h7 := World.Run.step h6 (.act _ 1 _ _ _ _ rfl ⟨.resume 1 (.go .nothing 0), rfl⟩ (fun _ hl => by cases hl))
    have h8 := World.Run.step h7 (.act _ 1 _ _ _ _ rfl ⟨.resume 1 .tick, rfl⟩ (fun _ hl => by cases hl))
    have h9 := World.Run.step h8 (.act _ 1 _ _ _ _ rfl ⟨.resume 1 .callback, rfl⟩ (fun _ hl => by cases hl))
    exact ⟨_, h9, by decide, (fences_dispatch_once (fun _ => true) (fun _ => true) "call").2 _ h9⟩

end AsyncFence
end Dex
