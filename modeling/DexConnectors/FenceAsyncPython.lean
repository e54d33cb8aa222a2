import DexConnectors.FenceProtocol
/-!
# FenceAsyncPython — the asyncio fence (`sdkpython/.../singledispatch/fence.py`) and the protocol

A `Task` is where a call of the fence, or the repeater that `dispatch` starts, awaits; `resume` is what it does from there to
its next await.  `isLocked` is the fence's `asyncio.Lock`, held over the awaits of a locked section.  A heartbeat that is being
written ends well, raises, or is cancelled; `begun` are the markers that were handed to it.  A task that is cancelled gets a
`CancelledError` at its await, which no `except Exception` catches.

`refines` is the step-by-step simulation by the protocol of `FenceProtocol`.
-/
namespace Dex
namespace AsyncFence
namespace Python

open SingleDispatch

structure Fence where
  callID             : String
  attempt            : Int
  writeDeadline      : Int
  minimumRequestTime : Int
  isLocked           : Bool
  decision           : Option Exposed
  hasDispatched      : Bool
  hasSendFinished    : Bool
  hasPreSendRetry    : Bool
  marker             : Option Marker

def Fence.own (f : Fence) (state : DispatchState) (providerID : String) : Marker := ⟨f.callID, f.attempt, state, providerID⟩

inductive Task where
  | entering (op : Op)                                 -- acquires the lock
  | claiming                                           -- `dispatch` records the claim
  | compensating                                       -- `dispatch` records that it has not sent, after a failed claim
  | recording (marker : Marker) (outcome : Outcome)    -- a record, and how the call ends after it
  | sending                                            -- `send` runs
  | finishing (outcome : Outcome)                      -- `dispatch` acquires the lock after it
  | joining (outcome : Outcome)                        -- `dispatch` awaits the repeater
  | waiting                                            -- the repeater waits for its stop, or the interval
  | ticking                                            -- the repeater acquires the lock
  | repeating                                          -- the repeater writes the claim
  | finished (outcome : Outcome)
  deriving DecidableEq

structure Attempt where
  fence : Fence
  tasks : List Task
  begun : List Marker

/-- What an await ends with; a task that goes on may read the last heartbeat and the clock. -/
inductive Input where
  | go (last : Last) (now : Int)
  | ok
  | fail
  | cancel

structure Resumed where
  fence   : Fence
  task    : Task
  events  : List Event
  begun   : List Marker
  spawned : List Task
  read    : Option Last

def Resumed.quiet (f : Fence) (t : Task) : Resumed := ⟨f, t, [], [], [], none⟩

section Fences

variable (isUUID : String → Bool)

/-- The body of `decide`; whatever it raises fails closed. -/
def Fence.decisionFor (f : Fence) : Last → Exposed
  | .error => (.failClosed, none)
  | .nothing => (decideDispatchPython isUUID f.callID f.attempt none).getD (.failClosed, none)
  | .value m => (decideDispatchPython isUUID f.callID f.attempt (some (wire m))).getD (.failClosed, none)

def Fence.isOpen (f : Fence) : Bool :=
  f.decision.map Prod.fst == some .sendAllowed && !f.hasDispatched && !f.hasPreSendRetry

def Fence.isShort (f : Fence) (now : Int) : Bool :=
  f.minimumRequestTime ≤ 0 || f.writeDeadline - now < f.minimumRequestTime

/-- The send has finished, and the last marker is a claim. -/
def Fence.hasClaim (f : Fence) (bare : Bool) : Bool :=
  f.hasSendFinished &&
    match f.marker with
    | some m => m.state == .claimed && (!bare || m.providerID == "")
    | none => false

/-- A locked section that begins to record a marker. -/
def Fence.begin (f : Fence) (m : Marker) (outcome : Outcome) : Resumed :=
  ⟨{ f with isLocked := true }, .recording m outcome, [], [m], [], none⟩

/-- A call that got the lock, to its next await. -/
def Fence.enter (f : Fence) (last : Last) (now : Int) : Op → Resumed
  | .decide =>
    if f.decision.isSome then .quiet f (.finished .returned)
    else ⟨{ f with decision := some (f.decisionFor isUUID last) }, .finished .returned, [], [], [], some last⟩
  | .dispatch =>
    if !f.isOpen then .quiet f (.finished .notAllowed)
    else if f.isShort now then { f with hasPreSendRetry := true }.begin (f.own .notSent "") .insufficientTime
    else ⟨{ f with hasDispatched := true, isLocked := true }, .claiming, [], [f.own .claimed ""], [], none⟩
  | .recordNotSent =>
    if !f.isOpen then .quiet f (.finished .notAllowed)
    else { f with hasPreSendRetry := true }.begin (f.own .notSent "") .returned
  | .recordCanResend =>
    if f.hasClaim true then f.begin (f.own .canResend "") .returned else .quiet f (.finished .notAllowed)
  | .recordProviderID providerID =>
    if f.hasClaim false && providerID != "" then f.begin (f.own .claimed providerID) .returned
    else .quiet f (.finished .notAllowed)

/-- `_record` of a marker returned, and its call ended. -/
def Fence.recorded (f : Fence) (m : Marker) (t : Task) : Resumed :=
  ⟨{ f with isLocked := false, marker := some m }, t, [.stored m, .recorded m], [], [], none⟩

def Fence.unlocked (f : Fence) (t : Task) : Resumed := .quiet { f with isLocked := false } t

/-- A task, from its await to the next; none while it goes on waiting. -/
def Fence.resume (f : Fence) : Task → Input → Option Resumed
  | .entering op, .go last now => if f.isLocked then none else some (f.enter isUUID last now op)
  | .entering _, .cancel => some (.quiet f (.finished .cancelled))
  | .claiming, .ok =>
    -- without an await: the lock is released, the repeater is created and `send` is called
    some ⟨{ f with isLocked := false, marker := some (f.own .claimed "") }, .sending,
      [.stored (f.own .claimed ""), .recorded (f.own .claimed ""), .sent f.attempt], [], [.waiting], none⟩
  | .claiming, .fail => some ⟨{ f with hasPreSendRetry := true }, .compensating, [], [f.own .notSent ""], [], none⟩
  | .claiming, .cancel => some (f.unlocked (.finished .cancelled))
  | .compensating, .ok => some (f.recorded (f.own .notSent "") (.finished .checkpoint))
  | .compensating, .fail => some (f.unlocked (.finished .checkpoint))
  | .compensating, .cancel => some (f.unlocked (.finished .cancelled))
  | .recording m outcome, .ok => some (f.recorded m (.finished outcome))
  | .recording _ _, .fail => some (f.unlocked (.finished .heartbeat))
  | .recording _ _, .cancel => some (f.unlocked (.finished .cancelled))
  | .sending, .ok => some (.quiet f (.finishing .returned))
  | .sending, .fail => some (.quiet f (.finishing .raised))
  | .sending, .cancel => some (.quiet f (.finishing .cancelled))
  | .finishing outcome, .go _ _ =>
    if f.isLocked then none else some (.quiet { f with hasSendFinished := true } (.joining outcome))
  | .finishing _, .cancel => some (.quiet f (.finished .cancelled))     -- the repeater is not stopped then
  | .joining outcome, .ok => some (.quiet f (.finished outcome))
  | .joining _, .cancel => some (.quiet f (.finished .cancelled))
  | .waiting, .ok => if f.hasSendFinished then some (.quiet f (.finished .returned)) else none
  | .waiting, .go _ _ => some (.quiet f .ticking)
  | .waiting, .cancel => some (.quiet f (.finished .cancelled))
  | .ticking, .go _ _ =>
    if f.isLocked then none
    else if f.marker = some (f.own .claimed "") then
      some ⟨{ f with isLocked := true }, .repeating, [.repeats (f.own .claimed "")], [f.own .claimed ""], [], none⟩
    else some (.quiet f .waiting)
  | .ticking, .cancel => some (.quiet f (.finished .cancelled))
  | .repeating, .ok =>
    some ⟨{ f with isLocked := false }, .waiting, [.stored (f.own .claimed ""), .recorded (f.own .claimed "")], [], [], none⟩
  | .repeating, .fail => some (f.unlocked .waiting)
  | .repeating, .cancel => some (f.unlocked (.finished .cancelled))
  | _, _ => none

inductive Act where
  | call (op : Op)
  | resume (i : Nat) (input : Input)
  | arrive (marker : Marker)             -- a marker that was begun reaches the history

def Attempt.act (a : Attempt) : Act → Option (Option Last × List Event × Attempt)
  | .call op => some (none, [], { a with tasks := a.tasks ++ [.entering op] })
  | .resume i input =>
    match a.tasks[i]? with
    | none => none
    | some t =>
      (a.fence.resume isUUID t input).map
        (fun r => (r.read, r.events, ⟨r.fence, a.tasks.set i r.task ++ r.spawned, r.begun ++ a.begun⟩))
  | .arrive m => if m ∈ a.begun then some (none, [.stored m], a) else none

/-- The fences of a call: `Fence.__init__` of an attempt, and what tasks do. -/
def system (callID : String) : System where
  State := Attempt
  start := fun k a => ∃ writeDeadline minimumRequestTime,
    a = ⟨⟨callID, k, writeDeadline, minimumRequestTime, false, none, false, false, false, none⟩, [], []⟩
  step := fun a read evs a' => ∃ act, a.act isUUID act = some (read, evs, a')

end Fences

/-! ## Refinement -/

/-- Where the dispatch is that a task drives. -/
def Task.stage : Task → Option Stage
  | .claiming => some .claiming
  | .sending | .finishing _ => some .sending
  | _ => none

/-- The marker that a task of attempt `k` writes. -/
def Task.writes (callID : String) (k : Int) : Task → Option Marker
  | .claiming | .repeating => some (claimOf callID k)
  | .compensating => some (notSentOf callID k)
  | .recording m _ => some m
  | _ => none

/-- **A fence and the ledger of its attempt.** -/
structure Rel (callID : String) (a : Attempt) (l : Ledger) : Prop where
  call       : a.fence.callID = callID
  number     : a.fence.attempt = l.number
  decided    : l.decided = a.fence.decision.isSome
  allowed    : a.fence.decision.map Prod.fst = some .sendAllowed → l.allowed = true
  retried    : l.retried = a.fence.hasPreSendRetry
  idle       : a.fence.hasDispatched = false → l.stage = .idle
  settled    : a.fence.hasSendFinished = true → l.stage = .settled
  begun      : a.begun = l.begun
  stages     : Exclusive Task.stage a.tasks l.stage
  writes     : ∀ t ∈ a.tasks, ∀ m, t.writes callID l.number = some m → m ∈ l.begun
  records    : ∀ m outcome, Task.recording m outcome ∈ a.tasks → m ≠ claimOf callID l.number
  marker     : a.fence.marker = some (claimOf callID l.number) →
    (l.stage = .sending ∨ l.stage = .settled) ∧ ∀ m, .recorded m ∈ l.hist → m = claimOf callID l.number

variable {isUUID : String → Bool} {callID : String}

theorem decideDispatchPython_sendAllowed {attempt : Int} {heartbeat : Option WireMarker} {exposed : Option Marker}
    (h : decideDispatchPython isUUID callID attempt heartbeat = some (.sendAllowed, exposed)) :
    attempt = 1 ∨ ∃ wire, heartbeat = some wire ∧ wire.attempt = attempt - 1 ∧ releases wire.marker := by
  unfold decideDispatchPython at h
  split at h
  · cases h
  split at h
  · cases h
  cases heartbeat with
  | none =>
    dsimp only at h
    split at h
    next hone => exact .inl hone
    · cases h
  | some wire =>
    dsimp only at h
    cases hwire : fromWire isUUID wire with
    | none =>
      rw [hwire] at h
      cases h
    | some marker =>
      rw [hwire] at h
      dsimp only at h
      have hmarker : wire.marker = marker := by
        unfold fromWire at hwire
        split at hwire
        · exact Option.some.inj hwire
        · cases hwire
      split at h
      · cases h
      split at h
      next hrel =>
        subst hmarker
        exact .inr ⟨wire, rfl, hrel.1, hrel.2.1⟩
      · cases h

theorem decisionFor_sendAllowed {f : Fence} {last : Last} (h : (f.decisionFor isUUID last).1 = .sendAllowed) :
    f.attempt = 1 ∨ ∃ m, last = .value m ∧ m.attempt = f.attempt - 1 ∧ releases (wire m).marker := by
  have hget : ∀ {o : Option Exposed}, (o.getD (.failClosed, none)).1 = .sendAllowed →
      ∃ exposed, o = some (.sendAllowed, exposed) := by
    intro o ho
    cases o with
    | none => cases ho
    | some d => exact ⟨d.2, by rw [← show d.1 = .sendAllowed from ho]⟩
  cases last with
  | error => cases h
  | nothing =>
    obtain ⟨exposed, hd⟩ := hget h
    rcases decideDispatchPython_sendAllowed hd with hone | ⟨w, hw, -⟩
    · exact .inl hone
    · cases hw
  | value m =>
    obtain ⟨exposed, hd⟩ := hget h
    rcases decideDispatchPython_sendAllowed hd with hone | ⟨w, hw, hnum, hrel⟩
    · exact .inl hone
    · cases hw
      exact .inr ⟨m, rfl, hnum, hrel⟩

section Steps

variable {a : Attempt} {l : Ledger} {i : Nat} {t : Task}

theorem Rel.own_claim (h : Rel callID a l) : a.fence.own .claimed "" = claimOf callID l.number := by
  rw [Fence.own, claimOf, h.call, h.number]

theorem Rel.own_notSent (h : Rel callID a l) : a.fence.own .notSent "" = notSentOf callID l.number := by
  rw [Fence.own, notSentOf, h.call, h.number]

/-- The writes of the tasks once one went on. -/
theorem Rel.writes_set (h : Rel callID a l) {begun : List Marker} (hsub : ∀ m ∈ l.begun, m ∈ begun) {t' : Task}
    (ht' : ∀ m, t'.writes callID l.number = some m → m ∈ begun) :
    ∀ u ∈ a.tasks.set i t', ∀ m, u.writes callID l.number = some m → m ∈ begun := by
  intro u hu m hm
  rcases List.mem_or_eq_of_mem_set hu with hu | rfl
  · exact hsub m (h.writes u hu m hm)
  · exact ht' m hm

theorem Rel.records_set (h : Rel callID a l) {t' : Task} (ht' : ∀ m outcome, t' = .recording m outcome → m ≠ claimOf callID l.number) :
    ∀ m outcome, Task.recording m outcome ∈ a.tasks.set i t' → m ≠ claimOf callID l.number := by
  intro m outcome hm
  rcases List.mem_or_eq_of_mem_set hm with hm | hm
  · exact h.records m outcome hm
  · exact ht' m outcome hm.symm

/-- **A task that goes on without driving or writing anything.** -/
theorem Rel.quiet (h : Rel callID a l) (isLocked : Bool) (t' : Task) (hs : t'.stage = none) (hw : t'.writes callID l.number = none)
    (hr : ∀ m outcome, t' ≠ .recording m outcome) :
    Rel callID ⟨{ a.fence with isLocked := isLocked }, a.tasks.set i t', a.begun⟩ l :=
  { h with
    stages := h.stages.drop hs
    writes := h.writes_set (fun _ hm => hm) (fun m hm => by cases hw.symm.trans hm)
    records := h.records_set (fun m outcome he => absurd he (hr m outcome)) }

theorem Rel.isOpen (h : Rel callID a l) (ho : ¬ (!a.fence.isOpen) = true) :
    l.allowed = true ∧ l.stage = .idle ∧ l.retried = false ∧ a.fence.hasDispatched = false := by
  simp only [Fence.isOpen, Bool.not_and, Bool.or_eq_true, Bool.not_eq_true', not_or, Bool.not_eq_false, beq_iff_eq,
    Bool.not_not, Bool.not_eq_true] at ho
  obtain ⟨⟨hd, hdispatched⟩, hretried⟩ := ho
  exact ⟨h.allowed hd, h.idle hdispatched, h.retried.trans hretried, hdispatched⟩

/-- **A locked section that begins to record** a marker the protocol allows. -/
theorem Rel.begin (h : Rel callID a l) (i : Nat) (retried : Bool) (outcome : Outcome) {m : Marker}
    (hm : m ≠ claimOf callID l.number) :
    Rel callID ⟨{ a.fence with hasPreSendRetry := retried, isLocked := true }, a.tasks.set i (.recording m outcome),
      m :: a.begun⟩ { l with retried := retried, begun := m :: l.begun } :=
  { h with
    retried := rfl
    begun := by rw [h.begun]
    stages := h.stages.drop rfl
    writes := h.writes_set (fun _ hm => List.mem_cons_of_mem _ hm) (fun m' hm' => by
      cases hm'
      exact List.mem_cons_self)
    records := h.records_set (fun m' outcome he => by
      cases he
      exact hm) }

theorem stage_ne_idle (u : Task) : u.stage ≠ some .idle := by
  cases u <;> simp [Task.stage]

theorem Rel.mem (hi : a.tasks[i]? = some t) : t ∈ a.tasks := List.mem_of_getElem? hi

/-- The stage of the task that drives the dispatch is the ledger's. -/
theorem Rel.stage_eq (h : Rel callID a l) (hi : a.tasks[i]? = some t) {stage : Stage} (ht : t.stage = some stage) :
    l.stage = stage := (h.stages i t stage hi ht).1.symm

theorem Rel.not_settled (h : Rel callID a l) (hs : l.stage ≠ .settled) : a.fence.hasSendFinished ≠ true :=
  fun hf => hs (h.settled hf)

theorem Rel.dispatched (h : Rel callID a l) (hs : l.stage ≠ .idle) : a.fence.hasDispatched ≠ false :=
  fun hd => hs (h.idle hd)

/-- What a step of a fence is for the ledger. -/
def Simulates (callID : String) (l : Ledger) (read : Option Last) (evs : List Event) (a' : Attempt) : Prop :=
  ∃ l', Ledger.Steps callID l l' ∧ Rel callID a' l' ∧ l'.hist = l.hist ++ evs ∧ l'.reads = l.reads ++ read.toList

theorem Rel.stay {a' : Attempt} (h : Rel callID a' l) : Simulates callID l none [] a' :=
  ⟨l, .refl, h, (List.append_nil _).symm, (List.append_nil _).symm⟩

theorem Rel.decides (h : Rel callID a l) (hd : ¬ a.fence.decision.isSome = true) (last : Last) :
    Simulates callID l (some last) []
      ⟨{ a.fence with decision := some (a.fence.decisionFor isUUID last) }, a.tasks.set i (.finished .returned), a.begun⟩ := by
  have hundecided : l.decided = false := by
    rw [h.decided, Bool.not_eq_true] at *
    exact hd
  have hstep := @Ledger.Step.decide callID l last (decide ((a.fence.decisionFor isUUID last).1 = .sendAllowed))
    hundecided (fun hallowed => ?_)
  · refine ⟨_, .single hstep, ?_, (List.append_nil _).symm, rfl⟩
    exact { h with
      decided := rfl
      allowed := fun hs => decide_eq_true (Option.some.inj hs)
      stages := h.stages.drop rfl
      writes := h.writes_set (fun _ hm => hm) (fun m hm => by cases hm)
      records := h.records_set (fun m outcome he => by cases he) }
  · rcases decisionFor_sendAllowed (of_decide_eq_true hallowed) with hone | ⟨m, hlast, hnum, hrel⟩
    · exact .inl (h.number.symm.trans hone)
    · exact .inr ⟨m, hlast, by rw [← h.number]; exact hnum, hrel⟩

theorem Rel.giveUp (h : Rel callID a l) (ho : ¬ (!a.fence.isOpen) = true) (outcome : Outcome) :
    Simulates callID l none [] ⟨{ a.fence with hasPreSendRetry := true, isLocked := true },
      a.tasks.set i (.recording (a.fence.own .notSent "") outcome), a.fence.own .notSent "" :: a.begun⟩ := by
  obtain ⟨hallowed, hidle, -, -⟩ := h.isOpen ho
  rw [h.own_notSent]
  have hne : notSentOf callID l.number ≠ claimOf callID l.number := fun he => by cases congrArg Marker.state he
  exact ⟨_, .single (.giveUp l hallowed (.inl hidle)), h.begin i true outcome hne, (List.append_nil _).symm, (List.append_nil _).symm⟩

theorem Rel.claim (h : Rel callID a l) (ho : ¬ (!a.fence.isOpen) = true) :
    Simulates callID l none [] ⟨{ a.fence with hasDispatched := true, isLocked := true },
      a.tasks.set i .claiming, a.fence.own .claimed "" :: a.begun⟩ := by
  obtain ⟨hallowed, hidle, hretried, -⟩ := h.isOpen ho
  have hunsettled := h.not_settled (by rw [hidle]; decide)
  have hclaim := h.own_claim
  refine ⟨_, .single (.claim l hallowed hidle hretried), ?_, (List.append_nil _).symm, (List.append_nil _).symm⟩
  exact { h with
    idle := fun hd => by cases hd
    settled := fun hf => absurd hf hunsettled
    begun := by rw [hclaim, h.begun]
    stages := h.stages.enter (fun u => by rw [hidle]; exact stage_ne_idle u) (fun stage hs => (Option.some.inj hs).symm)
    writes := h.writes_set (fun _ hm => List.mem_cons_of_mem _ hm) (fun m hm => by
      cases hm
      exact List.mem_cons_self)
    records := h.records_set (fun m outcome he => by cases he)
    marker := fun hm => by
      rcases (h.marker hm).1 with hs | hs <;> cases hidle.symm.trans hs }

/-- A terminal marker begins to be recorded. -/
theorem Rel.finish (h : Rel callID a l) {bare : Bool} (hc : a.fence.hasClaim bare = true) {m : Marker}
    (hm : IsTerminal callID l.number m) :
    Simulates callID l none [] ⟨{ a.fence with isLocked := true }, a.tasks.set i (.recording m .returned), m :: a.begun⟩ := by
  have hfinished : a.fence.hasSendFinished = true := by
    rw [Fence.hasClaim, Bool.and_eq_true] at hc
    exact hc.1
  have hne : m ≠ claimOf callID l.number := by
    rintro rfl
    rcases hm.2.2 with hs | ⟨-, hp⟩
    · cases hs
    · exact hp rfl
  refine ⟨_, .single (.finish l m (h.settled hfinished) hm), ?_, (List.append_nil _).symm, (List.append_nil _).symm⟩
  have hbegin := h.begin i a.fence.hasPreSendRetry .returned hne
  have hsame : ({ l with retried := a.fence.hasPreSendRetry, begun := m :: l.begun } : Ledger) =
      { l with begun := m :: l.begun } := by rw [← h.retried]
  rw [hsame] at hbegin
  exact hbegin

/-- A call that got the lock. -/
theorem Rel.enter (h : Rel callID a l) (last : Last) (now : Int) (op : Op) :
    let r := a.fence.enter isUUID last now op
    Simulates callID l r.read r.events ⟨r.fence, a.tasks.set i r.task ++ r.spawned, r.begun ++ a.begun⟩ := by
  have hquiet : ∀ outcome, Simulates callID l none []
      ⟨a.fence, a.tasks.set i (.finished outcome) ++ [], [] ++ a.begun⟩ := by
    intro outcome
    rw [List.append_nil]
    exact (h.quiet a.fence.isLocked (.finished outcome) rfl rfl (fun m o he => by cases he)).stay
  cases op with
  | decide =>
    dsimp only [Fence.enter]
    by_cases hd : a.fence.decision.isSome = true
    · rw [if_pos hd]
      exact hquiet .returned
    · rw [if_neg hd]
      dsimp only
      rw [List.append_nil]
      exact h.decides hd last
  | dispatch =>
    dsimp only [Fence.enter]
    by_cases ho : (!a.fence.isOpen) = true
    · rw [if_pos ho]
      exact hquiet .notAllowed
    · rw [if_neg ho]
      by_cases hshort : a.fence.isShort now = true
      · rw [if_pos hshort]
        dsimp only [Fence.begin]
        rw [List.append_nil]
        exact h.giveUp ho .insufficientTime
      · rw [if_neg hshort]
        dsimp only
        rw [List.append_nil]
        exact h.claim ho
  | recordNotSent =>
    dsimp only [Fence.enter]
    by_cases ho : (!a.fence.isOpen) = true
    · rw [if_pos ho]
      exact hquiet .notAllowed
    · rw [if_neg ho]
      dsimp only [Fence.begin]
      rw [List.append_nil]
      exact h.giveUp ho .returned
  | recordCanResend =>
    dsimp only [Fence.enter]
    by_cases hc : a.fence.hasClaim true = true
    · rw [if_pos hc]
      dsimp only [Fence.begin]
      rw [List.append_nil]
      exact h.finish hc ⟨h.call, h.number, .inl rfl⟩
    · rw [if_neg hc]
      exact hquiet .notAllowed
  | recordProviderID providerID =>
    dsimp only [Fence.enter]
    by_cases hc : (a.fence.hasClaim false && providerID != "") = true
    · rw [if_pos hc]
      rw [Bool.and_eq_true, bne_iff_ne] at hc
      dsimp only [Fence.begin]
      rw [List.append_nil]
      exact h.finish hc.1 ⟨h.call, h.number, .inr ⟨rfl, hc.2⟩⟩
    · rw [if_neg hc]
      exact hquiet .notAllowed

/-- The claim was recorded: the send is invoked. -/
theorem Rel.sends (h : Rel callID a l) (hinv : Ledger.Inv callID l) (hi : a.tasks[i]? = some .claiming) :
    Simulates callID l none [.stored (a.fence.own .claimed ""), .recorded (a.fence.own .claimed ""), .sent a.fence.attempt]
      ⟨{ a.fence with isLocked := false, marker := some (a.fence.own .claimed "") }, a.tasks.set i .sending ++ [.waiting],
        a.begun⟩ := by
  have hstage : l.stage = .claiming := h.stage_eq hi rfl
  have hbegun : claimOf callID l.number ∈ l.begun := h.writes .claiming (List.mem_of_getElem? hi) _ rfl
  have hrecorded : Ledger.Steps callID l _ := Ledger.steps_recorded hbegun
  have hclaimed := hrecorded.tail (.claimed _ hstage (List.mem_append_right _ (by simp)))
  have hdispatched := h.dispatched (by rw [hstage]; decide)
  have hunsettled := h.not_settled (by rw [hstage]; decide)
  have hsending : Exclusive Task.stage (a.tasks.set i .sending) .sending :=
    h.stages.consume hi rfl (fun stage hs => (Option.some.inj hs).symm)
  rw [h.own_claim, h.number]
  refine ⟨_, hclaimed.tail (.send _ rfl), ?_, List.append_assoc _ _ _, (List.append_nil _).symm⟩
  exact { h with
    idle := fun hd => absurd hd hdispatched
    settled := fun hf => absurd hf hunsettled
    stages := hsending.push rfl
    writes := fun u hu m hm => by
      rcases List.mem_append.1 hu with hu | hu
      · exact h.writes_set (fun _ hm => hm) (fun m hm => by cases hm) u hu m hm
      · rw [List.mem_singleton.1 hu] at hm
        cases hm
    records := fun m outcome hm => by
      rcases List.mem_append.1 hm with hm | hm
      · exact h.records_set (fun m outcome he => by cases he) m outcome hm
      · cases List.mem_singleton.1 hm
    marker := fun _ => ⟨.inl rfl, fun m hm => by
      rcases List.mem_append.1 hm with hm | hm
      · rcases List.mem_append.1 hm with hm | hm
        · exact hinv.recorded_claim (.inl hstage) hm
        · rcases List.mem_cons.1 hm with hm | hm
          · cases hm
          · cases List.mem_singleton.1 hm
            rfl
      · cases List.mem_singleton.1 hm⟩ }

/-- The claim failed or was cancelled. -/
theorem Rel.abandons (h : Rel callID a l) (hi : a.tasks[i]? = some .claiming) (isLocked : Bool) (t' : Task)
    (hs : t'.stage = none) (hw : t'.writes callID l.number = none) (hr : ∀ m outcome, t' ≠ .recording m outcome) :
    Rel callID ⟨{ a.fence with isLocked := isLocked }, a.tasks.set i t', a.begun⟩ { l with stage := .abandoned } := by
  have hstage : l.stage = .claiming := h.stage_eq hi rfl
  have hdispatched := h.dispatched (by rw [hstage]; decide)
  have hunsettled := h.not_settled (by rw [hstage]; decide)
  exact { h.quiet (i := i) isLocked t' hs hw hr with
    idle := fun hd => absurd hd hdispatched
    settled := fun hf => absurd hf hunsettled
    stages := h.stages.consume hi rfl (fun stage hs' => by cases hs.symm.trans hs')
    marker := fun hm => by
      rcases (h.marker hm).1 with hs | hs <;> cases hstage.symm.trans hs }

/-- The claim failed: the call records that it has not sent. -/
theorem Rel.compensates (h : Rel callID a l) (hinv : Ledger.Inv callID l) (hi : a.tasks[i]? = some .claiming) :
    Simulates callID l none [] ⟨{ a.fence with hasPreSendRetry := true }, a.tasks.set i .compensating,
      a.fence.own .notSent "" :: a.begun⟩ := by
  have hstage : l.stage = .claiming := h.stage_eq hi rfl
  have habandons := h.abandons hi a.fence.isLocked (.finished .checkpoint) rfl rfl (fun m o he => by cases he)
  have hgive := @Ledger.Step.giveUp callID { l with stage := .abandoned }
    (hinv.moved (by rw [hstage]; decide)) (.inr rfl)
  rw [h.own_notSent]
  refine ⟨_, (Relation.ReflTransGen.single (.abandon l hstage)).tail hgive, ?_, (List.append_nil _).symm,
    (List.append_nil _).symm⟩
  exact { habandons with
    retried := rfl
    begun := by rw [h.begun]
    stages := h.stages.consume hi rfl (fun stage hs => by cases hs)
    writes := h.writes_set (fun _ hm => List.mem_cons_of_mem _ hm) (fun m hm => by
      cases hm
      exact List.mem_cons_self)
    records := h.records_set (fun m outcome he => by cases he) }

/-- **A record that returned**: its marker is the fence's last, and no bare claim. -/
theorem Rel.recorded (h : Rel callID a l) {m : Marker} (hm : m ∈ l.begun) (hne : m ≠ claimOf callID l.number) {t' : Task}
    (hs : t'.stage = none) (hw : t'.writes callID l.number = none) (hr : ∀ m outcome, t' ≠ .recording m outcome) :
    Simulates callID l none [.stored m, .recorded m]
      ⟨{ a.fence with isLocked := false, marker := some m }, a.tasks.set i t', a.begun⟩ :=
  ⟨_, Ledger.steps_recorded hm, { h.quiet (i := i) false t' hs hw hr with
    marker := fun he => absurd (Option.some.inj he) hne }, rfl, (List.append_nil _).symm⟩

/-- The repeater begins to write the claim again. -/
theorem Rel.repeats (h : Rel callID a l) (hm : a.fence.marker = some (a.fence.own .claimed "")) :
    Simulates callID l none [.repeats (a.fence.own .claimed "")]
      ⟨{ a.fence with isLocked := true }, a.tasks.set i .repeating, a.fence.own .claimed "" :: a.begun⟩ := by
  rw [h.own_claim] at hm ⊢
  obtain ⟨hstage, hclean⟩ := h.marker hm
  refine ⟨_, .single (.repeats l hstage hclean), ?_, rfl, (List.append_nil _).symm⟩
  exact { h with
    begun := by rw [h.begun]
    stages := h.stages.drop rfl
    writes := h.writes_set (fun _ hm => List.mem_cons_of_mem _ hm) (fun m hm => by
      cases hm
      exact List.mem_cons_self)
    records := h.records_set (fun m outcome he => by cases he)
    marker := fun _ => ⟨hstage, fun m hm => hclean m ((List.mem_append.1 hm).resolve_right (fun hm => by
      cases List.mem_singleton.1 hm))⟩ }

/-- The claim was written again. -/
theorem Rel.repeated (h : Rel callID a l) (hi : a.tasks[i]? = some .repeating) :
    Simulates callID l none [.stored (a.fence.own .claimed ""), .recorded (a.fence.own .claimed "")]
      ⟨{ a.fence with isLocked := false }, a.tasks.set i .waiting, a.begun⟩ := by
  have hbegun : claimOf callID l.number ∈ l.begun := h.writes .repeating (List.mem_of_getElem? hi) _ rfl
  rw [h.own_claim]
  refine ⟨_, Ledger.steps_recorded hbegun, ?_, rfl, (List.append_nil _).symm⟩
  exact { h.quiet (i := i) false .waiting rfl rfl (fun m outcome he => by cases he) with
    marker := fun hm => by
      obtain ⟨hstage, hclean⟩ := h.marker hm
      refine ⟨hstage, fun m hm => ?_⟩
      rcases List.mem_append.1 hm with hm | hm
      · exact hclean m hm
      · rcases List.mem_cons.1 hm with hm | hm
        · cases hm
        · cases List.mem_singleton.1 hm
          rfl }

/-- The send ended: the call waits for the lock. -/
theorem Rel.finishes (h : Rel callID a l) (hi : a.tasks[i]? = some .sending) (outcome : Outcome) :
    Simulates callID l none [] ⟨a.fence, a.tasks.set i (.finishing outcome), a.begun⟩ := by
  have hstage : l.stage = .sending := h.stage_eq hi rfl
  refine Rel.stay { h with
    stages := h.stages.consume hi rfl (fun stage hs => (Option.some.inj hs).symm.trans hstage.symm)
    writes := h.writes_set (fun _ hm => hm) (fun m hm => by cases hm)
    records := h.records_set (fun m outcome he => by cases he) }

/-- The send is marked as finished. -/
theorem Rel.settles (h : Rel callID a l) {outcome : Outcome} (hi : a.tasks[i]? = some (.finishing outcome)) :
    Simulates callID l none [] ⟨{ a.fence with hasSendFinished := true }, a.tasks.set i (.joining outcome), a.begun⟩ := by
  have hstage : l.stage = .sending := h.stage_eq hi rfl
  have hdispatched := h.dispatched (by rw [hstage]; decide)
  refine ⟨_, .single (.settle l hstage), ?_, (List.append_nil _).symm, (List.append_nil _).symm⟩
  exact { h with
    idle := fun hd => absurd hd hdispatched
    settled := fun _ => rfl
    stages := h.stages.consume hi rfl (fun stage hs => by cases hs)
    writes := h.writes_set (fun _ hm => hm) (fun m hm => by cases hm)
    records := h.records_set (fun m outcome he => by cases he)
    marker := fun hm => ⟨.inr rfl, (h.marker hm).2⟩ }

/-- **What a task does from one await to the next is what the protocol lets the attempt do.** -/
theorem Rel.resume (h : Rel callID a l) (hinv : Ledger.Inv callID l) (hi : a.tasks[i]? = some t) {input : Input} {r : Resumed}
    (hr : a.fence.resume isUUID t input = some r) :
    Simulates callID l r.read r.events ⟨r.fence, a.tasks.set i r.task ++ r.spawned, r.begun ++ a.begun⟩ := by
  have hmem := List.mem_of_getElem? hi
  have hquiet : ∀ (isLocked : Bool) (t' : Task), t'.stage = none → t'.writes callID l.number = none →
      (∀ m outcome, t' ≠ .recording m outcome) → Simulates callID l none []
        ⟨{ a.fence with isLocked := isLocked }, a.tasks.set i t' ++ [], [] ++ a.begun⟩ := by
    intro isLocked t' hs hw hr
    rw [List.append_nil]
    exact (h.quiet isLocked t' hs hw hr).stay
  have hends : ∀ (isLocked : Bool) (outcome : Outcome), Simulates callID l none []
      ⟨{ a.fence with isLocked := isLocked }, a.tasks.set i (.finished outcome) ++ [], [] ++ a.begun⟩ :=
    fun isLocked outcome => hquiet isLocked (.finished outcome) rfl rfl (fun m o he => by cases he)
  cases t with
  | entering op =>
    cases input with
    | go last now =>
      rw [Fence.resume] at hr
      split at hr
      · cases hr
      · cases hr
        exact h.enter last now op
    | cancel =>
      cases hr
      exact hends a.fence.isLocked .cancelled
    | ok => cases hr
    | fail => cases hr
  | claiming =>
    have hcancelled := h.abandons hi false (.finished .cancelled) rfl rfl (fun m o he => by cases he)
    have hstage : l.stage = .claiming := h.stage_eq hi rfl
    cases input with
    | go last now => cases hr
    | ok =>
      cases hr
      exact h.sends hinv hi
    | fail =>
      cases hr
      dsimp only
      rw [List.append_nil]
      exact h.compensates hinv hi
    | cancel =>
      cases hr
      refine ⟨_, .single (.abandon l hstage), ?_, (List.append_nil _).symm, (List.append_nil _).symm⟩
      dsimp only [Fence.unlocked, Resumed.quiet]
      rw [List.append_nil]
      exact hcancelled
  | compensating =>
    cases input with
    | go last now => cases hr
    | ok =>
      cases hr
      dsimp only [Fence.recorded]
      rw [List.append_nil, h.own_notSent]
      exact h.recorded (h.writes _ hmem _ rfl) (fun he => by cases congrArg Marker.state he) rfl rfl
        (fun m o he => by cases he)
    | fail =>
      cases hr
      exact hends false .checkpoint
    | cancel =>
      cases hr
      exact hends false .cancelled
  | recording m outcome =>
    cases input with
    | go last now => cases hr
    | ok =>
      cases hr
      dsimp only [Fence.recorded]
      rw [List.append_nil]
      exact h.recorded (h.writes _ hmem _ rfl) (h.records m outcome hmem) rfl rfl (fun m o he => by cases he)
    | fail =>
      cases hr
      exact hends false .heartbeat
    | cancel =>
      cases hr
      exact hends false .cancelled
  | sending =>
    have hfinishes : ∀ outcome, Simulates callID l none [] ⟨a.fence, a.tasks.set i (.finishing outcome) ++ [], [] ++ a.begun⟩ := by
      intro outcome
      rw [List.append_nil]
      exact h.finishes hi outcome
    cases input with
    | go last now => cases hr
    | ok =>
      cases hr
      exact hfinishes .returned
    | fail =>
      cases hr
      exact hfinishes .raised
    | cancel =>
      cases hr
      exact hfinishes .cancelled
  | finishing outcome =>
    cases input with
    | go last now =>
      rw [Fence.resume] at hr
      split at hr
      · cases hr
      · cases hr
        dsimp only [Resumed.quiet]
        rw [List.append_nil]
        exact h.settles hi
    | ok => cases hr
    | fail => cases hr
    | cancel =>
      cases hr
      exact hends a.fence.isLocked .cancelled
  | joining outcome =>
    cases input with
    | go last now => cases hr
    | ok =>
      cases hr
      exact hends a.fence.isLocked outcome
    | fail => cases hr
    | cancel =>
      cases hr
      exact hends a.fence.isLocked .cancelled
  | waiting =>
    cases input with
    | go last now =>
      cases hr
      exact hquiet a.fence.isLocked .ticking rfl rfl (fun m o he => by cases he)
    | ok =>
      rw [Fence.resume] at hr
      split at hr
      · cases hr
        exact hends a.fence.isLocked .returned
      · cases hr
    | fail => cases hr
    | cancel =>
      cases hr
      exact hends a.fence.isLocked .cancelled
  | ticking =>
    cases input with
    | go last now =>
      rw [Fence.resume] at hr
      split at hr
      · cases hr
      split at hr
      next hm =>
        cases hr
        dsimp only
        rw [List.append_nil]
        exact h.repeats hm
      · cases hr
        exact hquiet a.fence.isLocked .waiting rfl rfl (fun m o he => by cases he)
    | ok => cases hr
    | fail => cases hr
    | cancel =>
      cases hr
      exact hends a.fence.isLocked .cancelled
  | repeating =>
    cases input with
    | go last now => cases hr
    | ok =>
      cases hr
      dsimp only
      rw [List.append_nil]
      exact h.repeated hi
    | fail =>
      cases hr
      exact hquiet false .waiting rfl rfl (fun m o he => by cases he)
    | cancel =>
      cases hr
      exact hends false .cancelled
  | finished outcome => cases input <;> cases hr

end Steps

/-- **The asyncio fences refine the protocol.** -/
def refines (isUUID : String → Bool) (callID : String) : Refines callID (system isUUID callID) where
  rel := Rel callID
  start := by
    rintro k a ⟨writeDeadline, minimumRequestTime, rfl⟩
    exact ⟨rfl, rfl, rfl, fun h => (by cases h), rfl, fun _ => rfl, fun h => (by cases h), rfl,
      fun i t stage hi => (by cases hi), fun t ht => (by cases ht), fun m outcome hm => (by cases hm),
      fun h => (by cases h)⟩
  step := by
    rintro a l read evs a' h hinv ⟨act, hact⟩
    cases act with
    | call op =>
      cases hact
      refine Rel.stay { h with stages := h.stages.push rfl, writes := fun t ht m hm => ?_, records := fun m outcome hm => ?_ }
      · rcases List.mem_append.1 ht with ht | ht
        · exact h.writes t ht m hm
        · rw [List.mem_singleton.1 ht] at hm
          cases hm
      · rcases List.mem_append.1 hm with hm | hm
        · exact h.records m outcome hm
        · cases List.mem_singleton.1 hm
    | resume i input =>
      unfold Attempt.act at hact
      dsimp only at hact
      cases hi : a.tasks[i]? with
      | none =>
        rw [hi] at hact
        cases hact
      | some t =>
        rw [hi] at hact
        obtain ⟨r, hr, heq⟩ := Option.map_eq_some_iff.1 hact
        cases heq
        exact h.resume hinv hi hr
    | arrive m =>
      unfold Attempt.act at hact
      dsimp only at hact
      split at hact
      next hm =>
        cases hact
        refine ⟨_, .single (.store l m (h.begun ▸ hm)), ?_, rfl, (List.append_nil _).symm⟩
        exact { h with
          marker := fun hm => by
            obtain ⟨hstage, hclean⟩ := h.marker hm
            exact ⟨hstage, fun m hm => hclean m ((List.mem_append.1 hm).resolve_right (fun hm => by
              cases List.mem_singleton.1 hm))⟩ }
      · cases hact

end Python
end AsyncFence
end Dex
