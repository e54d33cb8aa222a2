import DexConnectors.TriggerTargets
/-!
# TriggerDelivery — webhook events and the Flows of Dex (`sdkgo/trigger.go`, `projectconfig/provider/trigger_inbox.go`)

The threads of `WebhookModel` with the Dex targets of an application behind their durable targets: what was there any outcome
of an invocation is here what the target makes of Dex's answer.  A run of the whole is a run of the webhooks (`run_webhook`).

Dex is not part of the repository.  `dexStep` says what is relied on: a Flow ID is started once and kept; a start that is
accepted, or refused as already started, leaves a Flow of that ID; an RPC that is accepted, or whose answer cannot be decoded,
was applied.  Any other error leaves open whether a request was applied.  Other clients start Flows of their own.

`starter` and `attempts` are ghosts: for which target and event a Flow was started, none where another client did, and what
each invocation of a target returned, the newest first.
-/
namespace Dex
namespace Trigger

open Lib Lib.Utf8

open Inbox (ids)

open Webhook (Setting Outcome Mark Consumed)

variable {S : Setting} (A : Application S)

/-! ## Dex -/

structure StartedFlow where
  start   : FlowStart A
  starter : Option (S.Target × S.Event)

structure Server where
  flows   : Bytes → Option (StartedFlow A)
  applied : List (RPCInvocation A)

variable {A}

def Server.started (s : Server A) (flow : StartedFlow A) : Server A :=
  { s with flows := fun id => if id = flow.start.flowID then some flow else s.flows id }

def isAlreadyStarted (answer : Option GoError) : Bool :=
  match answer with
  | none => true
  | some err => err.has .flowAlreadyStarted

def isApplied (answer : Option GoError) : Bool :=
  match answer with
  | none => true
  | some err => err.mappingFailure == some (ascii "decode")

/-- **What Dex may answer to a target that handles an event, and leave behind.** -/
def dexStep (target : S.Target) (event : S.Event) : (o : DexOp A) → Server A → DexAns A o → Server A → Prop
  | .startFlow start, s, answer, s' =>
    (s.flows start.flowID = none ∧ s' = s.started ⟨start, some (target, event)⟩) ∨
    ((isAlreadyStarted answer = true → (s.flows start.flowID).isSome) ∧ s' = s)
  | .invokeRPC invocation, s, answer, s' =>
    s' = { s with applied := invocation :: s.applied } ∨ (isApplied answer = false ∧ s' = s)

/-- What other clients of Dex do. -/
structure Others (s s' : Server A) : Prop where
  kept    : ∀ id flow, s.flows id = some flow → s'.flows id = some flow
  new     : ∀ id flow, s'.flows id = some flow → s.flows id = some flow ∨ (flow.start.flowID = id ∧ flow.starter = none)
  applied : ∀ invocation ∈ s.applied, invocation ∈ s'.applied

/-! ## The whole -/

structure Attempt (S : Setting) where
  target   : S.Target
  event    : S.Event
  returned : Option GoError

variable (A) in
structure World (ι : Type) where
  webhook  : Webhook.World S ι
  server   : Server A
  attempts : List (Attempt S)

variable {ι : Type}

/-- How an operation meets Dex. -/
def Meets : (o : Webhook.Op S) → Server A → List (Attempt S) → Webhook.Ans S o → Server A → List (Attempt S) → Prop
  | .invoke target event _, s, attempts, outcome, s', attempts' =>
    ∃ returned, Prog.Exec (dexStep target event) (A.handleTrigger target event) s returned s' ∧ outcome = outcomeOf returned ∧
      attempts' = ⟨target, event, returned⟩ :: attempts
  | _, s, attempts, _, s', attempts' => s' = s ∧ attempts' = attempts

def step (i : ι) (o : Webhook.Op S) (w : World A ι) (a : Webhook.Ans S o) (w' : World A ι) : Prop :=
  Webhook.step i o w.webhook a w'.webhook ∧ ∃ s, Others w.server s ∧ Meets o s w.attempts a w'.server w'.attempts

abbrev System (A : Application S) (ι : Type) := Config (Webhook.Op S) (Webhook.Ans S) (Except Webhook.Err Nat) (World A ι) ι

/-- The webhooks of a system. -/
def System.webhooks (c : System A ι) : Webhook.Network S ι := ⟨c.state.webhook, c.threads⟩

/-- Where a run starts: Dex has Flows of other clients. -/
def start (calls : ι → Webhook.Call S) (inbox : S.Binding → List Inbox.PendingTriggerEvent) (server : Server A) : System A ι :=
  ⟨⟨Webhook.World.init inbox, server, []⟩, fun i => (calls i).program⟩

theorem run_webhook {c c' : System A ι} (hrun : Config.Run step c c') :
    Config.Run Webhook.step c.webhooks c'.webhooks := by
  induction hrun with
  | refl => exact .refl
  | tail _ hstep ih =>
    obtain ⟨i, o, k, a, hk, hs, hk', hother⟩ := hstep
    exact ih.tail ⟨i, o, k, a, hk, hs.1, hk', hother⟩

/-! ## Settled events -/

/-- **What has become of an event that a target consumed.** -/
inductive Settled (A : Application S) (server : Server A) (attempt : Attempt S) : Prop where
  | filtered (h : A.filterEvent attempt.target attempt.event = false)
  | unroutable (h : trimSpace (A.resolveFlowID attempt.target attempt.event) = [] ∨ trimSpace attempt.event.id = [])
  | started (flow : A.Flow) (h : A.route attempt.target = .flowStart flow)
      (hflow : (server.flows (A.resolveFlowID attempt.target attempt.event)).isSome)
  | applied (rpc : A.RPC) (h : A.route attempt.target = .rpc rpc)
      (happlied : ⟨A.resolveFlowID attempt.target attempt.event, rpc, A.mapToInput attempt.target attempt.event⟩ ∈ server.applied)
  | refused (err : GoError) (h : attempt.returned = some (classifyDexTriggerError err)) (hfinal : Final err)

/-- A Flow that a target started is the Flow of its event. -/
structure IsFlowOf (flow : StartedFlow A) (target : S.Target) (event : S.Event) : Prop where
  route     : A.route target = .flowStart flow.start.flow
  accepted  : A.filterEvent target event = true
  flowID    : flow.start.flowID = A.resolveFlowID target event
  named     : trimSpace flow.start.flowID ≠ [] ∧ trimSpace event.id ≠ []
  input     : flow.start.input = A.mapToInput target event
  requestID : flow.start.requestID = event.id

/-- What the server keeps. -/
structure Server.Wf (s : Server A) : Prop where
  named  : ∀ id flow, s.flows id = some flow → flow.start.flowID = id
  flowOf : ∀ id flow target event, s.flows id = some flow → flow.starter = some (target, event) → IsFlowOf flow target event

/-- What the server goes on to do. -/
structure Grows (s s' : Server A) : Prop where
  flows   : ∀ id flow, s.flows id = some flow → s'.flows id = some flow
  applied : ∀ invocation ∈ s.applied, invocation ∈ s'.applied

theorem Grows.refl (s : Server A) : Grows s s := ⟨fun _ _ h => h, fun _ h => h⟩

theorem Grows.trans {s s' s'' : Server A} (h : Grows s s') (h' : Grows s' s'') : Grows s s'' :=
  ⟨fun id flow hf => h'.flows id flow (h.flows id flow hf), fun invocation hi => h'.applied invocation (h.applied invocation hi)⟩

theorem Others.grows {s s' : Server A} (h : Others s s') : Grows s s' := ⟨h.kept, h.applied⟩

theorem Others.wf {s s' : Server A} (h : Others s s') (hwf : s.Wf) : s'.Wf := by
  refine ⟨fun id flow hflow => ?_, fun id flow target event hflow hstarter => ?_⟩
  · obtain hold | ⟨hid, -⟩ := h.new id flow hflow
    · exact hwf.named id flow hold
    · exact hid
  · obtain hold | ⟨-, hnone⟩ := h.new id flow hflow
    · exact hwf.flowOf id flow target event hold hstarter
    · rw [hnone] at hstarter
      cases hstarter

theorem Settled.grow {s s' : Server A} {attempt : Attempt S} (h : Settled A s attempt) (hg : Grows s s') :
    Settled A s' attempt := by
  cases h with
  | filtered h => exact .filtered h
  | unroutable h => exact .unroutable h
  | started flow h hflow =>
    obtain ⟨started, hstarted⟩ := Option.isSome_iff_exists.1 hflow
    exact .started flow h (Option.isSome_iff_exists.2 ⟨started, hg.flows _ _ hstarted⟩)
  | applied rpc h happlied => exact .applied rpc h (hg.applied _ happlied)
  | refused err h hfinal => exact .refused err h hfinal

/-! ## One invocation -/

theorem started_grows {s : Server A} {flow : StartedFlow A} (h : s.flows flow.start.flowID = none) : Grows s (s.started flow) := by
  refine ⟨fun id old hold => ?_, fun _ hi => hi⟩
  have hne : id ≠ flow.start.flowID := by
    rintro rfl
    rw [h] at hold
    cases hold
  exact (if_neg hne).trans hold

theorem started_wf {s : Server A} {flow : StartedFlow A} (hwf : s.Wf)
    (hflow : ∀ target event, flow.starter = some (target, event) → IsFlowOf flow target event) : (s.started flow).Wf := by
  have hcases : ∀ id found, (s.started flow).flows id = some found →
      (id = flow.start.flowID ∧ found = flow) ∨ s.flows id = some found := by
    intro id found hfound
    by_cases hid : id = flow.start.flowID
    · exact .inl ⟨hid, (Option.some_inj.1 ((if_pos hid).symm.trans hfound)).symm⟩
    · exact .inr ((if_neg hid).symm.trans hfound)
  refine ⟨fun id found hfound => ?_, fun id found target event hfound hstarter => ?_⟩
  · obtain ⟨rfl, rfl⟩ | hold := hcases id found hfound
    · rfl
    · exact hwf.named id found hold
  · obtain ⟨-, rfl⟩ | hold := hcases id found hfound
    · exact hflow target event hstarter
    · exact hwf.flowOf id found target event hold hstarter

/-- A target's answer that is consumed after it asked Dex. -/
theorem consumed_classified {err : GoError} (h : (outcomeOf (some (classifyDexTriggerError err))).isConsumed = true) : Final err := by
  rw [← classifyDexTriggerError_iff]
  dsimp only [outcomeOf] at h
  split at h
  · rename_i hmarker
    exact hmarker
  · cases h

theorem flowStarted_consumed {answer : Option GoError} (h : (outcomeOf (flowStarted answer)).isConsumed = true) :
    isAlreadyStarted answer = true ∨
      ∃ err, flowStarted answer = some (classifyDexTriggerError err) ∧ Final err := by
  cases answer with
  | none => exact .inl rfl
  | some err =>
    by_cases hstarted : err.has .flowAlreadyStarted = true
    · exact .inl hstarted
    · have hreturned : flowStarted (some err) = some (classifyDexTriggerError err) := if_neg hstarted
      rw [hreturned] at h
      exact .inr ⟨err, hreturned, consumed_classified h⟩

theorem rpcInvoked_consumed {answer : Option GoError} (h : (outcomeOf (rpcInvoked answer)).isConsumed = true) :
    isApplied answer = true ∨ ∃ err, rpcInvoked answer = some (classifyDexTriggerError err) ∧ Final err := by
  cases answer with
  | none => exact .inl rfl
  | some err =>
    by_cases hdecode : err.mappingFailure = some (ascii "decode")
    · exact .inl (beq_iff_eq.2 hdecode)
    · have hreturned : rpcInvoked (some err) = some (classifyDexTriggerError err) := if_neg hdecode
      rw [hreturned] at h
      exact .inr ⟨err, hreturned, consumed_classified h⟩

variable {target : S.Target} {event : S.Event} {s s' : Server A} {returned : Option GoError}

/-- What a target keeps, and what it has settled when it consumes the event. -/
structure Handled (target : S.Target) (event : S.Event) (s s' : Server A) (returned : Option GoError) : Prop where
  grows   : Grows s s'
  wf      : s'.Wf
  settled : (outcomeOf returned).isConsumed = true → Settled A s' ⟨target, event, returned⟩

theorem filteredTarget_handled {requirement : Bytes} {ask : Bytes → HandleTrigger A} (hwf : s.Wf)
    (hask : A.filterEvent target event = true → ¬(trimSpace (A.resolveFlowID target event) = [] ∨ trimSpace event.id = []) →
      Prog.Exec (dexStep target event) (ask (A.resolveFlowID target event)) s returned s' → Handled target event s s' returned)
    (h : Prog.Exec (dexStep target event) (filteredTarget target event requirement ask) s returned s') :
    Handled target event s s' returned := by
  unfold filteredTarget at h
  by_cases hfilter : A.filterEvent target event = true
  swap
  · rw [if_pos (by simpa using hfilter)] at h
    obtain ⟨rfl, rfl⟩ := h
    exact ⟨Grows.refl _, hwf, fun _ => .filtered (by simpa using hfilter)⟩
  rw [if_neg (by simp [hfilter])] at h
  dsimp only at h
  by_cases hnamed : trimSpace (A.resolveFlowID target event) = [] ∨ trimSpace event.id = []
  · rw [if_pos hnamed] at h
    obtain ⟨rfl, rfl⟩ := h
    exact ⟨Grows.refl _, hwf, fun _ => .unroutable hnamed⟩
  · rw [if_neg hnamed] at h
    exact hask hfilter hnamed h

theorem flowTarget_handled {flow : A.Flow} (hroute : A.route target = .flowStart flow) (hwf : s.Wf)
    (h : Prog.Exec (dexStep target event) (newDexFlowTriggerTarget target flow event) s returned s') :
    Handled target event s s' returned := by
  refine filteredTarget_handled hwf (fun hfilter hnamed hask => ?_) h
  obtain ⟨answer, s₁, hdex, rfl, rfl⟩ := hask
  obtain ⟨hnone, rfl⟩ | ⟨hanswer, rfl⟩ := hdex
  · have hgrows : Grows s (s.started ⟨⟨flow, A.resolveFlowID target event, A.mapToInput target event, event.id⟩,
        some (target, event)⟩) := started_grows hnone
    refine ⟨hgrows, started_wf hwf ?_, fun hconsumed => ?_⟩
    · rintro _ _ ⟨⟩
      exact ⟨hroute, hfilter, rfl, not_or.1 hnamed, rfl, rfl⟩
    · exact .started flow hroute (Option.isSome_iff_exists.2 ⟨_, if_pos rfl⟩)
  · refine ⟨Grows.refl _, hwf, fun hconsumed => ?_⟩
    obtain hstarted | ⟨err, hreturned, hfinal⟩ := flowStarted_consumed hconsumed
    · exact .started flow hroute (hanswer hstarted)
    · exact .refused err hreturned hfinal

theorem rpcTarget_handled {rpc : A.RPC} (hroute : A.route target = .rpc rpc) (hwf : s.Wf)
    (h : Prog.Exec (dexStep target event) (newDexRPCTriggerTarget target rpc event) s returned s') :
    Handled target event s s' returned := by
  refine filteredTarget_handled hwf (fun _ _ hask => ?_) h
  obtain ⟨answer, s₁, hdex, rfl, rfl⟩ := hask
  obtain rfl | ⟨hanswer, rfl⟩ := hdex
  · refine ⟨⟨fun _ _ hflow => hflow, fun _ hi => List.mem_cons_of_mem _ hi⟩, ⟨hwf.named, hwf.flowOf⟩, fun _ => ?_⟩
    exact .applied rpc hroute List.mem_cons_self
  · refine ⟨Grows.refl _, hwf, fun hconsumed => ?_⟩
    obtain happlied | ⟨err, hreturned, hfinal⟩ := rpcInvoked_consumed hconsumed
    · rw [happlied] at hanswer
      cases hanswer
    · exact .refused err hreturned hfinal

theorem handleTrigger_handled (hwf : s.Wf)
    (h : Prog.Exec (dexStep target event) (A.handleTrigger target event) s returned s') : Handled target event s s' returned := by
  unfold Application.handleTrigger at h
  cases hroute : A.route target with
  | flowStart flow =>
    rw [hroute] at h
    exact flowTarget_handled hroute hwf h
  | rpc rpc =>
    rw [hroute] at h
    exact rpcTarget_handled hroute hwf h

/-! ## Every run -/

/-- **What every step keeps.** -/
structure Inv (w : World A ι) : Prop where
  wf      : w.server.Wf
  invoked : ∀ target source id outcome, .invoked target source id outcome ∈ w.webhook.trace →
    ∃ attempt ∈ w.attempts, attempt.target = target ∧ attempt.event.id = id ∧ outcomeOf attempt.returned = outcome
  settled : ∀ attempt ∈ w.attempts, (outcomeOf attempt.returned).isConsumed = true → Settled A w.server attempt

omit A in
/-- Only an invocation leaves the mark of one. -/
theorem invoked_old {i : ι} {o : Webhook.Op S} {w w' : Webhook.World S ι} {a : Webhook.Ans S o} (hs : Webhook.step i o w a w')
    (hne : ∀ target event source, o ≠ .invoke target event source) {target : S.Target} {source : Option S.Source} {id : Bytes}
    {outcome : Outcome} (hmem : .invoked target source id outcome ∈ w'.trace) :
    .invoked target source id outcome ∈ w.trace := by
  have hold : ∀ {mark : Mark S ι}, w'.trace = mark :: w.trace → .invoked target source id outcome ≠ mark →
      .invoked target source id outcome ∈ w.trace := by
    intro mark htrace hmark
    rw [htrace] at hmem
    exact (List.mem_cons.1 hmem).resolve_left hmark
  cases o with
  | resolveCredentials _ _ | verifyRequest _ _ _ | contextErr =>
    rw [show w' = w from hs] at hmem
    exact hmem
  | snapshot endpoint =>
    obtain ⟨-, rfl⟩ := hs
    exact hold rfl (fun h => by cases h)
  | enqueue source event =>
    cases a with
    | queued =>
      obtain ⟨-, rfl⟩ := hs
      exact hold rfl (fun h => by cases h)
    | done =>
      rw [show w' = _ from hs] at hmem hold
      exact hold rfl (fun h => by cases h)
    | full =>
      obtain ⟨-, rfl⟩ := hs
      exact hold rfl (fun h => by cases h)
  | begin source =>
    obtain ⟨-, rfl⟩ := hs
    exact hmem
  | activate _ _ | deactivate _ | finish _ | unlock _ | keepForRemoval _ _ _ | forgetRemoval _ _ =>
    rw [show w' = _ from hs] at hmem
    exact hmem
  | receive source =>
    cases a with
    | none =>
      rw [show w' = w from hs] at hmem
      exact hmem
    | some event =>
      obtain ⟨rest, -, rfl⟩ := hs
      exact hold rfl (fun h => by cases h)
  | lock target =>
    obtain ⟨-, rfl⟩ := hs
    exact hmem
  | add target event =>
    obtain ⟨events, -, rfl⟩ | ⟨-, rfl⟩ := hs <;> exact hold rfl (fun h => by cases h)
  | pending target =>
    obtain ⟨-, rfl⟩ := hs
    exact hmem
  | remove target eventID =>
    obtain ⟨events, -, rfl⟩ | ⟨-, rfl⟩ := hs <;> exact hold rfl (fun h => by cases h)
  | lookup target eventID =>
    obtain ⟨-, rfl⟩ := hs
    exact hmem
  | invoke target event source => exact absurd rfl (hne target event source)

theorem meets_other {o : Webhook.Op S} {attempts attempts' : List (Attempt S)} {a : Webhook.Ans S o}
    (hne : ∀ target event source, o ≠ .invoke target event source) (h : Meets o s attempts a s' attempts') :
    s' = s ∧ attempts' = attempts := by
  cases o with
  | invoke target event source => exact absurd rfl (hne target event source)
  | _ => exact h

theorem step_inv {i : ι} {o : Webhook.Op S} {a : Webhook.Ans S o} {w w' : World A ι} (hs : step i o w a w') (hinv : Inv w) :
    Inv w' ∧ Grows w.server w'.server := by
  obtain ⟨hwebhook, s, hothers, hmeets⟩ := hs
  by_cases hinvoke : ∃ target event source, o = .invoke target event source
  · obtain ⟨target, event, source, rfl⟩ := hinvoke
    obtain ⟨returned, hexec, houtcome, hattempts⟩ := hmeets
    have hhandled := handleTrigger_handled (hothers.wf hinv.wf) hexec
    have hgrows := hothers.grows.trans hhandled.grows
    refine ⟨⟨hhandled.wf, fun t source' id outcome hmem => ?_, fun attempt hmem hconsumed => ?_⟩, hgrows⟩
    · rw [show w'.webhook = _ from hwebhook] at hmem
      rw [hattempts]
      obtain heq | hmem := List.mem_cons.1 hmem
      · cases heq
        exact ⟨_, List.mem_cons_self, rfl, rfl, houtcome.symm⟩
      · obtain ⟨attempt, hattempt, hrest⟩ := hinv.invoked t source' id outcome hmem
        exact ⟨attempt, List.mem_cons_of_mem _ hattempt, hrest⟩
    · rw [hattempts] at hmem
      obtain rfl | hmem := List.mem_cons.1 hmem
      · exact hhandled.settled hconsumed
      · exact (hinv.settled attempt hmem hconsumed).grow hgrows
  · have hne : ∀ target event source, o ≠ .invoke target event source :=
      fun target event source h => hinvoke ⟨target, event, source, h⟩
    obtain ⟨hserver, hattempts⟩ := meets_other hne hmeets
    refine ⟨⟨?_, ?_, ?_⟩, ?_⟩
    · rw [hserver]
      exact hothers.wf hinv.wf
    · intro target source id outcome hmem
      rw [hattempts]
      exact hinv.invoked target source id outcome (invoked_old hwebhook hne hmem)
    · intro attempt hmem hconsumed
      rw [hattempts] at hmem
      rw [hserver]
      exact (hinv.settled attempt hmem hconsumed).grow hothers.grows
    · rw [hserver]
      exact hothers.grows

theorem run_inv {c c' : System A ι} (hrun : Config.Run step c c') (hinv : Inv c.state) :
    Inv c'.state ∧ Grows c.state.server c'.state.server := by
  induction hrun with
  | refl => exact ⟨hinv, Grows.refl _⟩
  | tail _ hstep ih =>
    obtain ⟨i, o, k, a, -, hs, -, -⟩ := hstep
    obtain ⟨hinv', hgrows⟩ := step_inv hs ih.1
    exact ⟨hinv', ih.2.trans hgrows⟩

/-- **An event of a binding has been settled.** -/
def SettledAt (w : World A ι) (b : S.Binding) (eventID : Bytes) : Prop :=
  ∃ attempt ∈ w.attempts, S.binding attempt.target = b ∧ attempt.event.id = eventID ∧ Settled A w.server attempt

theorem settledAt_of_consumed {w : World A ι} (hinv : Inv w) {b : S.Binding} {eventID : Bytes}
    (h : Consumed b eventID w.webhook.trace) : SettledAt w b eventID := by
  obtain ⟨target, source, outcome, hmem, rfl, hconsumed⟩ := h
  obtain ⟨attempt, hattempt, rfl, rfl, rfl⟩ := hinv.invoked target source eventID outcome hmem
  exact ⟨attempt, hattempt, rfl, rfl, hinv.settled attempt hattempt hconsumed⟩

section

variable [DecidableEq ι]

end

/-! ## One replay -/

theorem Others.refl (s : Server A) : Others s s := ⟨fun _ _ h => h, fun _ _ h => .inl h, fun _ h => h⟩

/-- An operation of the webhooks that is no invocation. -/
theorem step_of_webhook {i : ι} {o : Webhook.Op S} {a : Webhook.Ans S o} {w : World A ι} {webhook : Webhook.World S ι}
    (hs : Webhook.step i o w.webhook a webhook) (hmeets : Meets o w.server w.attempts a w.server w.attempts) :
    step i o w a { w with webhook } := ⟨hs, w.server, Others.refl _, hmeets⟩

theorem step_of_invoke {i : ι} {target : S.Target} {event : S.Event} {w : World A ι} {server : Server A}
    {returned : Option GoError} (source : Option S.Source)
    (hexec : Prog.Exec (dexStep target event) (A.handleTrigger target event) w.server returned server) :
    step i (.invoke target event source) w (outcomeOf returned)
      ⟨w.webhook.mark (.invoked target source event.id (outcomeOf returned)), server, ⟨target, event, returned⟩ :: w.attempts⟩ :=
  ⟨rfl, w.server, Others.refl _, returned, hexec, rfl, rfl⟩

/-- One target that starts a Flow of each event, named by the event. -/
def sampleSetting : Setting := { Webhook.sampleSetting with decode := fun _ => some ⟨ascii "a", ()⟩ }

def sampleApplication : Application sampleSetting := ⟨Unit, Unit, Unit, fun _ => .flowStart (), fun _ _ => true,
  fun _ event => event.id, fun _ _ => ()⟩

def sampleServer : Server sampleApplication := ⟨fun _ => none, []⟩

def sampleStart : System sampleApplication Unit :=
  start (fun _ => .replay () 1) (fun _ => [⟨ascii "a", ascii "1"⟩]) sampleServer

theorem sampleServer_wf : sampleServer.Wf := ⟨fun _ _ h => (by cases h), fun _ _ _ _ h _ => (by cases h)⟩

theorem sample_handleTrigger : Prog.Exec (dexStep (A := sampleApplication) () ⟨ascii "a", ()⟩)
    (sampleApplication.handleTrigger () ⟨ascii "a", ()⟩) sampleServer none
    (sampleServer.started ⟨⟨(), ascii "a", (), ascii "a"⟩, some ((), ⟨ascii "a", ()⟩)⟩) :=
  ⟨none, _, .inl ⟨rfl, rfl⟩, rfl, rfl⟩

/-- A process that starts again delivers the event that is pending. -/
theorem sample_replays : ∃ c, Config.Run step sampleStart c ∧ c.state.webhook.inbox () = [] := by
  have hexec : ∃ w', Prog.Exec (step ()) (sampleStart.threads ()) sampleStart.state (.ok 0) w' ∧ w'.webhook.inbox () = [] := by
    refine ⟨_, ⟨.ok [⟨ascii "a", ascii "1"⟩], _, step_of_webhook ⟨fun events h => (by cases h; rfl), rfl⟩ ⟨rfl, rfl⟩,
      false, _, step_of_webhook rfl ⟨rfl, rfl⟩, (), _, step_of_webhook ⟨rfl, rfl⟩ ⟨rfl, rfl⟩,
      .ok [⟨ascii "a", ascii "1"⟩], _, step_of_webhook ⟨fun events h => (by cases h; rfl), rfl⟩ ⟨rfl, rfl⟩,
      none, _, step_of_webhook ⟨rfl, rfl⟩ ⟨rfl, rfl⟩, outcomeOf none, _, step_of_invoke none sample_handleTrigger,
      .ok (), _, step_of_webhook (.inl ⟨_, ⟨List.mem_cons_self, rfl⟩, rfl⟩) ⟨rfl, rfl⟩, (), _, step_of_webhook rfl ⟨rfl, rfl⟩,
      (), _, step_of_webhook rfl ⟨rfl, rfl⟩, rfl, rfl⟩, rfl⟩
  obtain ⟨w', hexec, hempty⟩ := hexec
  exact ⟨_, Config.run_alone step () hexec, hempty⟩

end Trigger
end Dex
