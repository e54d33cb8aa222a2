import DexConnectors.InboxSafety
/-!
# WebhookModel — webhook endpoints and durable targets (`sdkgo/webhooktrigger/endpoint.go`, `projectconfig/provider/trigger_inbox.go`)

Requests, source runs and replays are threads over the endpoints' sources and the targets' inboxes.  A source belongs to
one endpoint of one process, a durable target to one binding; several processes and several targets may share a binding,
and a process that crashes takes no further step.  An inbox is its list of pending events, which a write changes as
`Inbox.Writes` says; a write may fail without being applied, or after.  Event ids are valid UTF-8, so that the inbox keeps
them as they are.  `source.Run` and `DeliverTrigger` go round as often as `turns` allows, which is any number.

`trace` is ghost, the newest event first.
-/
namespace Dex
namespace Webhook

open Lib Lib.Utf8

open Inbox (PendingTriggerEvent ids Writes)

structure TriggerEvent (X : Type) where
  id      : Bytes
  payload : X

structure Request (H : Type) where
  header     : H
  body       : Bytes
  receivedAt : Int

/-- What arrives at an endpoint, whose clock reads `receivedAt`; the body may fail to be read. -/
structure Incoming (H : Type) where
  method     : String
  header     : H
  body       : Except Unit Bytes
  receivedAt : Int

/-- Endpoints, their sources, durable targets and the bindings these deliver to, as the processes configure them. -/
structure Setting where
  Endpoint : Type
  Source : Type
  Target : Type
  Binding : Type
  Header : Type
  Credentials : Type
  Payload : Type
  [decEndpoint : DecidableEq Endpoint]
  [decSource : DecidableEq Source]
  [decTarget : DecidableEq Target]
  [decBinding : DecidableEq Binding]
  endpoint : Source → Endpoint
  acceptEvent : Source → TriggerEvent Payload → Bool
  sourceQueueCapacity : Source → Nat
  maxBodyBytes : Endpoint → Nat
  decodeEvent : Endpoint → Request Header → Except Unit (TriggerEvent Payload × Bool)
  binding : Target → Binding
  encode : TriggerEvent Payload → Option Bytes           -- `json.Marshal`
  decode : Bytes → Option (TriggerEvent Payload)         -- `json.Unmarshal`

attribute [instance] Setting.decEndpoint Setting.decSource Setting.decTarget Setting.decBinding

variable (S : Setting)

abbrev Setting.Event := TriggerEvent S.Payload

inductive Err where
  | undeliverable
  | target
  | inbox
  | eventID
  | encode
  | decode
  | context
  | noSource
  | queueFull
  | alreadyRunning
  | stopped
  deriving DecidableEq, Repr

inductive VerifyError where
  | unavailable
  | invalid
  deriving DecidableEq, Repr

/-- What the application's target returns. -/
inductive Outcome where
  | handled
  | undeliverable
  | failed
  deriving DecidableEq, Repr

def Outcome.isConsumed : Outcome → Bool
  | .handled | .undeliverable => true
  | .failed => false

inductive Sent where
  | queued
  | done
  | full
  deriving DecidableEq, Repr

/-! ## Operations -/

inductive Op where
  | resolveCredentials (endpoint : S.Endpoint) (contents : Bytes)
  | verifyRequest (endpoint : S.Endpoint) (request : Request S.Header) (credentials : S.Credentials)
  | snapshot (endpoint : S.Endpoint)
  | enqueue (source : S.Source) (event : S.Event)
  | begin (source : S.Source)
  | activate (source : S.Source) (target : S.Target)
  | receive (source : S.Source)
  | deactivate (source : S.Source)
  | finish (source : S.Source)
  | contextErr
  | lock (target : S.Target)
  | unlock (target : S.Target)
  | add (target : S.Target) (event : PendingTriggerEvent)
  | pending (target : S.Target)
  | remove (target : S.Target) (eventID : Bytes)
  | lookup (target : S.Target) (eventID : Bytes)
  | keepForRemoval (target : S.Target) (eventID : Bytes) (skipped : Bool)
  | forgetRemoval (target : S.Target) (eventID : Bytes)
  | invoke (target : S.Target) (event : S.Event) (source : Option S.Source)

@[reducible] def Ans : Op S → Type
  | .resolveCredentials _ _ => Option S.Credentials
  | .verifyRequest _ _ _ => Except VerifyError Unit
  | .snapshot _ => List (S.Source × S.Target)
  | .enqueue _ _ => Sent
  | .begin _ | .contextErr => Bool
  | .receive _ => Option S.Event
  | .add _ _ | .remove _ _ => Except Err Unit
  | .pending _ => Except Err (List PendingTriggerEvent)
  | .lookup _ _ => Option Bool
  | .invoke _ _ _ => Outcome
  | .activate _ _ | .deactivate _ | .finish _ | .lock _ | .unlock _ | .keepForRemoval _ _ _ | .forgetRemoval _ _ => Unit

variable {S}

abbrev M (S : Setting) := Method (Op S) (Ans S) Err

def act (o : Op S) : M S (Ans S o) := Method.act o

/-! ## `durableTriggerTarget` -/

def prepareTrigger (target : S.Target) (event : S.Event) : M S Unit :=
  if trimSpace event.id = [] then throw .eventID
  else match S.encode event with
    | none => throw .encode
    | some encoded => do
      act (.lock target)
      let added ← act (.add target ⟨event.id, encoded⟩)
      act (.unlock target)
      Method.orRaise added

/-- `consume` after the target, if it was invoked. -/
def finishConsume (target : S.Target) (eventID : Bytes) (skipped : Bool) : M S Bool := do
  let removed : Except Err Unit ← act (.remove target eventID)
  match removed with
  | .error err =>
    act (.keepForRemoval target eventID skipped)
    throw err
  | .ok _ =>
    act (.forgetRemoval target eventID)
    return skipped

/-- The invocation in `consume`: whether the event was skipped. -/
def invoked (outcome : Outcome) : Except Err Bool :=
  match outcome with
  | .handled => .ok false
  | .undeliverable => .ok true
  | .failed => .error .target

/-- `source` is the source whose run delivers, none in a replay: ghost. -/
def consume (target : S.Target) (event : S.Event) (source : Option S.Source) : M S Bool := do
  let found : Option Bool ← act (.lookup target event.id)
  match found with
  | some skipped => finishConsume target event.id skipped
  | none =>
    let outcome : Outcome ← act (.invoke target event source)
    let skipped ← Method.orRaise (invoked outcome)
    finishConsume target event.id skipped

def handleTrigger (target : S.Target) (event : S.Event) (source : Option S.Source) : M S Unit := do
  act (.lock target)
  let result ← Method.attempt (consume target event source)
  act (.unlock target)
  let _ ← Method.orRaise result
  return ()

/-- `handlePending` while it holds the mutex. -/
def consumePending (target : S.Target) (event : S.Event) : M S Bool := do
  let read : Except Err (List PendingTriggerEvent) ← act (.pending target)
  let pending ← Method.orRaise read
  if event.id ∈ ids pending then consume target event none else return false

def handlePending (target : S.Target) (event : S.Event) : M S Unit := do
  act (.lock target)
  let result ← Method.attempt (consumePending target event)
  act (.unlock target)
  let _ ← Method.orRaise result
  return ()

/-! ## `DeliverTrigger` -/

/-- A check of the context before going on. -/
def whileOpen (next : M S Unit) : M S Unit := do
  let ended : Bool ← act .contextErr
  if ended then throw .context else next

/-- The end of an attempt; `retry` is the rest of the loop, after the delay. -/
def afterAttempt (retry : M S Unit) (result : Except Err Unit) : M S Unit :=
  match result with
  | .ok _ => return ()
  | .error .undeliverable => return ()
  | .error _ => whileOpen (whileOpen retry)

def deliverTrigger (handle : M S Unit) : Nat → M S Unit
  | 0 => throw .stopped
  | turns + 1 => whileOpen (Method.attempt handle >>= afterAttempt (deliverTrigger handle turns))

/-- The loop of `ReplayTriggerDeliveries`. -/
def replayEach (target : S.Target) (turns : Nat) : List PendingTriggerEvent → M S Unit
  | [] => return ()
  | stored :: rest =>
    match S.decode stored.event with
    | none => throw .decode
    | some event => do
      deliverTrigger (handlePending target event) turns
      replayEach target turns rest

def replayTriggerDeliveries (target : S.Target) (turns : Nat) : M S Unit := do
  let read : Except Err (List PendingTriggerEvent) ← act (.pending target)
  let pending ← Method.orRaise read
  replayEach target turns pending

/-! ## `source` -/

def receiveLoop (source : S.Source) (target : S.Target) (turns : Nat) : Nat → M S Unit
  | 0 => throw .stopped
  | rounds + 1 => do
    let received : Option S.Event ← act (.receive source)
    match received with
    | none => throw .context
    | some event =>
      deliverTrigger (handleTrigger target event (some source)) turns
      receiveLoop source target turns rounds

def run (source : S.Source) (target : S.Target) (turns rounds : Nat) : M S Unit := do
  let isRunning : Bool ← act (.begin source)
  if isRunning then throw .alreadyRunning
  else
    act (.activate source target)
    let result ← Method.attempt (receiveLoop source target turns rounds)
    act (.deactivate source)
    act (.finish source)
    Method.orRaise result

/-! ## `Endpoint` -/

/-- The first loop of `recordAndQueue`: the accepting sources, once each recorded the event. -/
def recordEach (event : S.Event) : List (S.Source × S.Target) → M S (List (S.Source × S.Target))
  | [] => return []
  | candidate :: rest =>
    if S.acceptEvent candidate.1 event = false then recordEach event rest
    else do
      prepareTrigger candidate.2 event
      let accepting ← recordEach event rest
      return candidate :: accepting

def sent (answer : Sent) : Except Err Unit :=
  match answer with
  | .queued => .ok ()
  | .done => .error .context
  | .full => .error .queueFull

/-- The second loop of `recordAndQueue`. -/
def queueEach (event : S.Event) : List (S.Source × S.Target) → M S Unit
  | [] => return ()
  | recipient :: rest => do
    let answer : Sent ← act (.enqueue recipient.1 event)
    Method.orRaise (sent answer)
    queueEach event rest

def recordAndQueue (endpoint : S.Endpoint) (event : S.Event) : M S Unit := do
  let running : List (S.Source × S.Target) ← act (.snapshot endpoint)
  if running.length = 0 then throw .noSource
  else
    let accepting ← recordEach event running
    queueEach event accepting

/-- `ServeHTTP` after `DecodeEvent`: a status. -/
def serveDecoded (endpoint : S.Endpoint) (decoded : Except Unit (S.Event × Bool)) : M S Nat :=
  match decoded with
  | .error _ => return 400
  | .ok (event, isHandled) =>
    if isHandled = false then return 200
    else do
      let result ← Method.attempt (recordAndQueue endpoint event)
      match result with
      | .error _ => return 503
      | .ok _ => return 200

def serveVerified (endpoint : S.Endpoint) (received : Request S.Header) (verified : Except VerifyError Unit) : M S Nat :=
  match verified with
  | .error .unavailable => return 503
  | .error .invalid => return 400
  | .ok _ => serveDecoded endpoint (S.decodeEvent endpoint received)

def serveRequest (endpoint : S.Endpoint) (received : Request S.Header) : M S Nat := do
  let resolved : Option S.Credentials ← act (.resolveCredentials endpoint received.body)
  match resolved with
  | none => return 503
  | some credentials =>
    let verified : Except VerifyError Unit ← act (.verifyRequest endpoint received credentials)
    serveVerified endpoint received verified

/-- The request as it is read, at most one byte over the limit. -/
def Incoming.request (incoming : Incoming S.Header) (contents : Bytes) : Request S.Header :=
  ⟨incoming.header, contents, incoming.receivedAt⟩

def serveHTTP (endpoint : S.Endpoint) (incoming : Incoming S.Header) : M S Nat :=
  if incoming.method ≠ "POST" then return 405
  else match incoming.body with
    | .error _ => return 400
    | .ok body =>
      if S.maxBodyBytes endpoint < (body.take (S.maxBodyBytes endpoint + 1)).length then return 413
      else serveRequest endpoint (incoming.request (body.take (S.maxBodyBytes endpoint + 1)))

/-! ## Threads -/

inductive Call (S : Setting) where
  | serve (endpoint : S.Endpoint) (incoming : Incoming S.Header)
  | run (source : S.Source) (target : S.Target) (turns rounds : Nat)
  | replay (target : S.Target) (turns : Nat)

/-- A request ends with a status. -/
def Call.program : Call S → Prog (Op S) (Ans S) (Except Err Nat)
  | .serve endpoint incoming => (serveHTTP endpoint incoming).run
  | .run source target turns rounds => ((fun _ => 0) <$> Webhook.run source target turns rounds : M S Nat).run
  | .replay target turns => ((fun _ => 0) <$> replayTriggerDeliveries target turns : M S Nat).run

variable (S) in
/-- What the trace keeps.  An event is `inserted` when it was not pending, and `answered` when the call returned no error. -/
inductive Mark (ι : Type) where
  | snapshot (i : ι) (endpoint : S.Endpoint) (running : List (S.Source × S.Target))
  | added (i : ι) (target : S.Target) (eventID : Bytes) (inserted answered : Bool)
  | queued (i : ι) (source : S.Source) (eventID : Bytes)
  | refused (i : ι)
  | received (source : S.Source) (eventID : Bytes)
  | invoked (target : S.Target) (source : Option S.Source) (eventID : Bytes) (outcome : Outcome)
  | removed (target : S.Target) (eventID : Bytes) (answered : Bool)
  deriving DecidableEq

variable (S) in
structure World (ι : Type) where
  inbox          : S.Binding → List PendingTriggerEvent
  running        : S.Source → Option S.Target
  isRunning      : S.Source → Bool
  deliveries     : S.Source → List S.Event
  mutex          : S.Target → Option ι
  pendingRemoval : S.Target → Bytes → Option Bool
  trace          : List (Mark S ι)

variable {ι : Type}

/-- The pending events of a target's binding. -/
def World.events (w : World S ι) (target : S.Target) : List PendingTriggerEvent := w.inbox (S.binding target)

def World.mark (w : World S ι) (mark : Mark S ι) : World S ι := { w with trace := mark :: w.trace }

def World.withEvents (w : World S ι) (target : S.Target) (events : List PendingTriggerEvent) : World S ι :=
  { w with inbox := fun b => if b = S.binding target then events else w.inbox b }

def World.withDeliveries (w : World S ι) (source : S.Source) (events : List S.Event) : World S ι :=
  { w with deliveries := fun s => if s = source then events else w.deliveries s }

def World.withMutex (w : World S ι) (target : S.Target) (owner : Option ι) : World S ι :=
  { w with mutex := fun t => if t = target then owner else w.mutex t }

def World.withRemoval (w : World S ι) (target : S.Target) (eventID : Bytes) (removal : Option Bool) : World S ι :=
  { w with pendingRemoval := fun t id => if t = target ∧ id = eventID then removal else w.pendingRemoval t id }

def World.withRunning (w : World S ι) (source : S.Source) (target : Option S.Target) : World S ι :=
  { w with running := fun s => if s = source then target else w.running s }

def World.withIsRunning (w : World S ι) (source : S.Source) (isRunning : Bool) : World S ι :=
  { w with isRunning := fun s => if s = source then isRunning else w.isRunning s }

/-- The running sources of an endpoint, in some order. -/
def Snapshot (w : World S ι) (endpoint : S.Endpoint) (running : List (S.Source × S.Target)) : Prop :=
  (running.map Prod.fst).Nodup ∧
    ∀ source target, (source, target) ∈ running ↔ w.running source = some target ∧ S.endpoint source = endpoint

/-- **What an operation of thread `i` may answer and leave behind.** -/
def step (i : ι) : (o : Op S) → World S ι → Ans S o → World S ι → Prop
  | .resolveCredentials _ _, w, _, w' => w' = w
  | .verifyRequest _ _ _, w, _, w' => w' = w
  | .contextErr, w, _, w' => w' = w
  | .snapshot endpoint, w, a, w' => Snapshot w endpoint a ∧ w' = w.mark (.snapshot i endpoint a)
  | .enqueue source event, w, .queued, w' => (w.deliveries source).length < S.sourceQueueCapacity source ∧
    w' = (w.withDeliveries source (w.deliveries source ++ [event])).mark (.queued i source event.id)
  | .enqueue _ _, w, .done, w' => w' = w.mark (.refused i)
  | .enqueue source _, w, .full, w' =>
    S.sourceQueueCapacity source ≤ (w.deliveries source).length ∧ w' = w.mark (.refused i)
  | .begin source, w, a, w' => a = w.isRunning source ∧ w' = w.withIsRunning source true
  | .activate source target, w, _, w' => w' = w.withRunning source (some target)
  | .receive _, w, none, w' => w' = w
  | .receive source, w, some event, w' => ∃ rest, w.deliveries source = event :: rest ∧
    w' = (w.withDeliveries source rest).mark (.received source event.id)
  | .deactivate source, w, _, w' => w' = w.withRunning source none
  | .finish source, w, _, w' => w' = w.withIsRunning source false
  | .lock target, w, _, w' => w.mutex target = none ∧ w' = w.withMutex target (some i)
  | .unlock target, w, _, w' => w' = w.withMutex target none
  | .add target event, w, a, w' =>
    (∃ events, Writes (w.events target) (.add event) events ∧
      w' = (w.withEvents target events).mark (.added i target event.id true a.isOk)) ∨
    ((a.isOk = true → event.id ∈ ids (w.events target)) ∧ w' = w.mark (.added i target event.id false a.isOk))
  | .pending target, w, a, w' => (∀ events, a = .ok events → events = w.events target) ∧ w' = w
  | .remove target eventID, w, a, w' =>
    (∃ events, Writes (w.events target) (.remove eventID) events ∧
      w' = (w.withEvents target events).mark (.removed target eventID a.isOk)) ∨
    ((a.isOk = true → eventID ∉ ids (w.events target)) ∧ w' = w.mark (.removed target eventID a.isOk))
  | .lookup target eventID, w, a, w' => a = w.pendingRemoval target eventID ∧ w' = w
  | .keepForRemoval target eventID skipped, w, _, w' => w' = w.withRemoval target eventID (some skipped)
  | .forgetRemoval target eventID, w, _, w' => w' = w.withRemoval target eventID none
  | .invoke target event source, w, a, w' => w' = w.mark (.invoked target source event.id a)

/-- Where a run starts: the inboxes may hold events, nothing is running. -/
def World.init (inbox : S.Binding → List PendingTriggerEvent) : World S ι :=
  ⟨inbox, fun _ => none, fun _ => false, fun _ => [], fun _ => none, fun _ _ => none, []⟩

def start (calls : ι → Call S) (inbox : S.Binding → List PendingTriggerEvent) :
    Config (Op S) (Ans S) (Except Err Nat) (World S ι) ι := ⟨World.init inbox, fun i => (calls i).program⟩

end Webhook
end Dex
