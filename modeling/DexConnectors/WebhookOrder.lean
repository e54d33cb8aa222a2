import DexConnectors.WebhookSafety
/-!
# WebhookOrder — live delivery and the recorded order

A request records its event under the target's mutex, and puts it into the source's queue later, under none.  Two requests
may do the one in one order and the other in the other: the source hands `b` before `a` where the inbox holds `a` before
`b` (`delivered_out_of_order`).  In every run in which a request finds its event recorded after all that were queued before
it (`Meets`), the source hands its events in the order of the inbox (`delivered_in_order`).
-/
namespace Dex
namespace Webhook

open Lib Lib.Utf8 Lib.Method

open Inbox (PendingTriggerEvent ids Writes)

variable {S : Setting} {ι : Type}

/-! ## Orders in the trace -/

/-- The ids that a binding's inbox got, the oldest first; it held `first` at the start. -/
def recorded (first : List Bytes) (b : S.Binding) : List (Mark S ι) → List Bytes
  | [] => first
  | .added _ target eventID true _ :: older =>
    if S.binding target = b then recorded first b older ++ [eventID] else recorded first b older
  | _ :: older => recorded first b older

/-- The ids put into the queue of a source, the oldest first. -/
def queuedTo (source : S.Source) : List (Mark S ι) → List Bytes
  | [] => []
  | .queued _ s eventID :: older => if s = source then queuedTo source older ++ [eventID] else queuedTo source older
  | _ :: older => queuedTo source older

/-- The ids that the run of a source handed to its target, the oldest first. -/
def handed (source : S.Source) : List (Mark S ι) → List Bytes
  | [] => []
  | .invoked _ (some s) eventID _ :: older => if s = source then handed source older ++ [eventID] else handed source older
  | _ :: older => handed source older

/-- The id that the run of a source received and has not handed yet. -/
def inHand (source : S.Source) : List (Mark S ι) → List Bytes
  | [] => []
  | .received s eventID :: older => if s = source then [eventID] else inHand source older
  | .invoked _ (some s) _ _ :: older => if s = source then [] else inHand source older
  | _ :: older => inHand source older

/-- **The condition of the theorem** on a step.  The target consumes every event at the first attempt; and when a request
queues its event for the source, all that were queued before it were recorded before it. -/
def Meets (first : List Bytes) (source : S.Source) (target : S.Target) : (o : Op S) → World S ι → Ans S o → Prop
  | .enqueue s event, w, answer => s = source → answer = .queued →
    ∃ before after, recorded first (S.binding target) w.trace = before ++ event.id :: after ∧
      (queuedTo source w.trace).Sublist before
  | .invoke t _ _, _, outcome => t = target → outcome.isConsumed = true
  | .remove t _, _, removed => t = target → removed.isOk = true
  | _, _, _ => True

def stepMeeting (first : List Bytes) (source : S.Source) (target : S.Target) (i : ι) (o : Op S) (w : World S ι) (a : Ans S o)
    (w' : World S ι) : Prop := step i o w a w' ∧ Meets first source target o w a

/-- The events of a source on their way: handed, in hand, in the queue. -/
def onTheWay (source : S.Source) (w : World S ι) : List Bytes :=
  handed source w.trace ++ inHand source w.trace ++ (w.deliveries source).map TriggerEvent.id

/-- **The way keeps the order of the queue, and this the order of the inbox.** -/
structure Ordered (first : List Bytes) (source : S.Source) (target : S.Target) (w : World S ι) : Prop where
  way     : (onTheWay source w).Sublist (queuedTo source w.trace)
  queued  : (queuedTo source w.trace).Sublist (recorded first (S.binding target) w.trace)
  pending : (ids (w.events target)).Sublist (recorded first (S.binding target) w.trace)

def orderProtocol (first : List Bytes) (source : S.Source) (target : S.Target) (runner : ι) :
    Protocol (Op S) (Ans S) (World S ι) ι where
  step := stepMeeting first source target
  inv := Ordered first source target
  guar := fun i w w' => i ≠ runner → inHand source w'.trace = inHand source w.trace
  rely := fun i w w' => i = runner → inHand source w'.trace = inHand source w.trace
  rely_refl := fun _ _ _ => rfl
  rely_trans := fun _ {_ _ _} h h' heq => (h' heq).trans (h heq)
  guar_rely := fun _ _ {_ _} hne h heq => h (fun hi => hne (hi.trans heq.symm))

/-! ## One operation -/

variable {first : List Bytes} {source : S.Source} {target : S.Target} {i runner : ι} {w w' : World S ι}

/-- The operations of the run of a source. -/
def Op.delivers (source : S.Source) : Op S → Bool
  | .receive s => decide (s = source)
  | .invoke _ _ (some s) => decide (s = source)
  | _ => false

/-- What a thread must know before an operation. -/
def Knows (source : S.Source) (runner i : ι) : Op S → World S ι → Prop
  | .receive s, _ => s = source → i = runner
  | .invoke _ event (some s), w => s = source → i = runner ∧ inHand source w.trace = [event.id]
  | _, _ => True

/-- What an operation of thread `i` keeps. -/
def Keeps (first : List Bytes) (source : S.Source) (target : S.Target) (runner i : ι) (w w' : World S ι) : Prop :=
  Ordered first source target w' ∧ (i ≠ runner → inHand source w'.trace = inHand source w.trace)

/-- An operation that leaves the orders and the queue. -/
theorem keeps_same (hinv : Ordered first source target w) (hhanded : handed source w'.trace = handed source w.trace)
    (hhand : inHand source w'.trace = inHand source w.trace) (hqueue : w'.deliveries source = w.deliveries source)
    (hqueued : queuedTo source w'.trace = queuedTo source w.trace)
    (hrecorded : recorded first (S.binding target) w'.trace = recorded first (S.binding target) w.trace)
    (hpending : (ids (w'.events target)).Sublist (ids (w.events target))) : Keeps first source target runner i w w' := by
  refine ⟨⟨?_, ?_, ?_⟩, fun _ => hhand⟩
  · unfold onTheWay
    rw [hhanded, hhand, hqueue, hqueued]
    exact hinv.way
  · rw [hqueued, hrecorded]
    exact hinv.queued
  · rw [hrecorded]
    exact hpending.trans hinv.pending

theorem enqueue_keeps {s : S.Source} {event : S.Event} {answer : Sent} (hinv : Ordered first source target w)
    (hs : stepMeeting first source target i (.enqueue s event) w answer w') : Keeps first source target runner i w w' := by
  obtain ⟨hs, hmeets⟩ := hs
  cases answer with
  | done =>
    rw [show w' = _ from hs]
    exact keeps_same hinv rfl rfl rfl rfl rfl (List.Sublist.refl _)
  | full =>
    obtain ⟨-, rfl⟩ := hs
    exact keeps_same hinv rfl rfl rfl rfl rfl (List.Sublist.refl _)
  | queued =>
    obtain ⟨-, rfl⟩ := hs
    by_cases hsource : s = source
    · subst hsource
      have hqueue : ((w.withDeliveries s (w.deliveries s ++ [event])).mark (.queued i s event.id)).deliveries s =
          w.deliveries s ++ [event] := if_pos rfl
      have hqueued : queuedTo s ((w.withDeliveries s (w.deliveries s ++ [event])).mark (.queued i s event.id)).trace =
          queuedTo s w.trace ++ [event.id] := if_pos rfl
      refine ⟨⟨?_, ?_, hinv.pending⟩, fun _ => rfl⟩
      · unfold onTheWay
        rw [hqueue, hqueued, List.map_append, ← List.append_assoc]
        exact List.Sublist.append hinv.way (List.Sublist.refl _)
      · rw [hqueued]
        obtain ⟨before, after, hrecorded, hbefore⟩ := hmeets rfl rfl
        have hlast : [event.id].Sublist (event.id :: after) := List.singleton_sublist.2 List.mem_cons_self
        have hkeep := hbefore.append hlast
        rw [← hrecorded] at hkeep
        exact hkeep
    · exact keeps_same hinv rfl rfl (if_neg (Ne.symm hsource)) (if_neg hsource) rfl (List.Sublist.refl _)

theorem receive_keeps {s : S.Source} {received : Option S.Event} (hinv : Ordered first source target w)
    (hs : step i (.receive s) w received w') (hknows : s = source → i = runner) :
    Keeps first source target runner i w w' := by
  cases received with
  | none =>
    rw [show w' = w from hs]
    exact ⟨hinv, fun _ => rfl⟩
  | some event =>
    obtain ⟨rest, hqueue, rfl⟩ := hs
    by_cases hsource : s = source
    · subst hsource
      refine ⟨⟨?_, hinv.queued, hinv.pending⟩, fun hne => absurd (hknows rfl) hne⟩
      have hrest : ((w.withDeliveries s rest).mark (.received s event.id)).deliveries s = rest := if_pos rfl
      have hhand : inHand s ((w.withDeliveries s rest).mark (.received s event.id)).trace = [event.id] := if_pos rfl
      have hway := hinv.way
      unfold onTheWay at hway ⊢
      rw [hqueue, List.map_cons, List.append_assoc] at hway
      rw [hrest, hhand, List.append_assoc]
      -- an event that was still in hand is dropped
      have hdrop : ([event.id] ++ rest.map TriggerEvent.id).Sublist
          (inHand s w.trace ++ (event.id :: rest.map TriggerEvent.id)) := List.sublist_append_right _ _
      exact ((List.Sublist.refl (handed s w.trace)).append hdrop).trans hway
    · exact keeps_same hinv rfl (if_neg hsource) (if_neg (Ne.symm hsource)) rfl rfl (List.Sublist.refl _)

theorem invoke_keeps {t : S.Target} {event : S.Event} {origin : Option S.Source} {outcome : Outcome}
    (hinv : Ordered first source target w) (hs : step i (.invoke t event origin) w outcome w')
    (hknows : Knows source runner i (.invoke t event origin) w) : Keeps first source target runner i w w' := by
  rw [show w' = _ from hs]
  cases origin with
  | none => exact keeps_same hinv rfl rfl rfl rfl rfl (List.Sublist.refl _)
  | some s =>
    by_cases hsource : s = source
    · subst hsource
      obtain ⟨hi, hhand⟩ := hknows rfl
      refine ⟨⟨?_, hinv.queued, hinv.pending⟩, fun hne => absurd hi hne⟩
      have hhanded : handed s (w.mark (.invoked t (some s) event.id outcome)).trace = handed s w.trace ++ [event.id] := if_pos rfl
      have hempty : inHand s (w.mark (.invoked t (some s) event.id outcome)).trace = [] := if_pos rfl
      have hway := hinv.way
      unfold onTheWay at hway ⊢
      rw [hhand] at hway
      rw [hhanded, hempty, List.append_nil]
      exact hway
    · exact keeps_same hinv (if_neg hsource) (if_neg hsource) rfl rfl rfl (List.Sublist.refl _)

theorem add_keeps {t : S.Target} {event : PendingTriggerEvent} {added : Except Err Unit}
    (hinv : Ordered first source target w) (hs : step i (.add t event) w added w') :
    Keeps first source target runner i w w' := by
  obtain ⟨events, hwrites, rfl⟩ | ⟨-, rfl⟩ := hs
  · by_cases hb : S.binding target = S.binding t
    · obtain ⟨-, -, hid, -, rfl⟩ := hwrites
      have hrecorded : recorded first (S.binding target)
          ((w.withEvents t (w.events t ++ [Inbox.stored event])).mark (.added i t event.id true added.isOk)).trace =
          recorded first (S.binding target) w.trace ++ [event.id] := if_pos hb.symm
      have hevents : ((w.withEvents t (w.events t ++ [Inbox.stored event])).mark
          (.added i t event.id true added.isOk)).events target = w.events t ++ [Inbox.stored event] := if_pos hb
      have hsame : w.events t = w.events target := congrArg w.inbox hb.symm
      refine ⟨⟨hinv.way, ?_, ?_⟩, fun _ => rfl⟩
      · rw [hrecorded]
        exact hinv.queued.trans (List.sublist_append_left _ _)
      · rw [hrecorded, hevents, hsame]
        unfold ids
        rw [List.map_append, List.map_singleton, hid]
        exact List.Sublist.append hinv.pending (List.Sublist.refl _)
    · refine keeps_same hinv rfl rfl rfl rfl (if_neg (Ne.symm hb)) ?_
      have hevents : ((w.withEvents t events).mark (.added i t event.id true added.isOk)).events target = w.events target :=
        if_neg hb
      rw [hevents]
  · exact keeps_same hinv rfl rfl rfl rfl rfl (List.Sublist.refl _)

theorem remove_keeps {t : S.Target} {eventID : Bytes} {removed : Except Err Unit}
    (hinv : Ordered first source target w) (hs : step i (.remove t eventID) w removed w') :
    Keeps first source target runner i w w' := by
  obtain ⟨events, hwrites, rfl⟩ | ⟨-, rfl⟩ := hs
  · refine keeps_same hinv rfl rfl rfl rfl rfl ?_
    by_cases hb : S.binding target = S.binding t
    · obtain ⟨-, rfl⟩ := hwrites
      have hevents : ((w.withEvents t ((w.events t).filter fun e => e.id != eventID)).mark
          (.removed t eventID removed.isOk)).events target = (w.events target).filter fun e => e.id != eventID := by
        refine (if_pos hb).trans ?_
        rw [show w.events t = w.events target from congrArg w.inbox hb.symm]
      rw [hevents]
      exact List.filter_sublist.map _
    · have hevents : ((w.withEvents t events).mark (.removed t eventID removed.isOk)).events target = w.events target :=
        if_neg hb
      rw [hevents]
  · exact keeps_same hinv rfl rfl rfl rfl rfl (List.Sublist.refl _)

/-- **What every operation keeps.** -/
theorem step_keeps {o : Op S} {a : Ans S o} (hs : stepMeeting first source target i o w a w')
    (hinv : Ordered first source target w) (hknows : Knows source runner i o w) :
    Keeps first source target runner i w w' := by
  have hsame : Keeps first source target runner i w w := ⟨hinv, fun _ => rfl⟩
  cases o with
  | enqueue s event => exact enqueue_keeps hinv hs
  | receive s => exact receive_keeps hinv hs.1 hknows
  | invoke t event origin => exact invoke_keeps hinv hs.1 hknows
  | add t event => exact add_keeps hinv hs.1
  | remove t eventID => exact remove_keeps hinv hs.1
  | snapshot endpoint =>
    obtain ⟨⟨-, rfl⟩, -⟩ := hs
    exact keeps_same hinv rfl rfl rfl rfl rfl (List.Sublist.refl _)
  | resolveCredentials _ _ | verifyRequest _ _ _ | contextErr =>
    rw [show w' = w from hs.1]
    exact hsame
  | begin _ | lock _ =>
    obtain ⟨⟨-, rfl⟩, -⟩ := hs
    exact keeps_same hinv rfl rfl rfl rfl rfl (List.Sublist.refl _)
  | pending _ | lookup _ _ =>
    obtain ⟨⟨-, rfl⟩, -⟩ := hs
    exact hsame
  | activate _ _ | deactivate _ | finish _ | unlock _ | keepForRemoval _ _ _ | forgetRemoval _ _ =>
    rw [show w' = _ from hs.1]
    exact keeps_same hinv rfl rfl rfl rfl rfl (List.Sublist.refl _)

/-! ## The other threads -/

/-- No operation of a program is one of the source's run. -/
def Apart (source : S.Source) {α : Type} (m : M S α) : Prop := m.run.Performs (fun o => o.delivers source = false)

section

variable {α β : Type} {event : S.Event} {turns rounds : Nat}

theorem Apart.seq {m : M S α} {f : α → M S β} (h : Apart source m) (hf : ∀ a, Apart source (f a)) : Apart source (m >>= f) :=
  performs_seq h hf

theorem Apart.catch {m : M S α} {f : Except Err α → M S β} (h : Apart source m) (hf : ∀ r, Apart source (f r)) :
    Apart source (attempt m >>= f) := performs_catch h hf

theorem apart_act {o : Op S} (h : o.delivers source = false) : Apart source (act o) := performs_act h

theorem apart_orRaise {r : Except Err α} : Apart source (Method.orRaise r : M S α) := trivial

theorem apart_pure {a : α} : Apart source (pure a : M S α) := trivial

theorem apart_throw {e : Err} : Apart source (throw e : M S α) := trivial

theorem finishConsume_apart {eventID : Bytes} {skipped : Bool} : Apart source (finishConsume target eventID skipped) := by
  refine (apart_act rfl).seq fun removed => ?_
  cases removed with
  | error err => exact (apart_act rfl).seq fun _ => apart_throw
  | ok _ => exact (apart_act rfl).seq fun _ => apart_pure

theorem consume_apart {origin : Option S.Source} (h : origin ≠ some source) : Apart source (consume target event origin) := by
  have hinvoke : Op.delivers source (.invoke target event origin) = false := by
    cases origin with
    | none => rfl
    | some s => exact decide_eq_false fun heq => h (congrArg some heq)
  refine (apart_act rfl).seq fun found => ?_
  cases found with
  | some skipped => exact finishConsume_apart
  | none => exact (apart_act hinvoke).seq fun outcome => apart_orRaise.seq fun _ => finishConsume_apart

theorem handleTrigger_apart {origin : Option S.Source} (h : origin ≠ some source) :
    Apart source (handleTrigger target event origin) :=
  (apart_act rfl).seq fun _ => (consume_apart h).catch fun _ => (apart_act rfl).seq fun _ => apart_orRaise.seq fun _ => apart_pure

theorem handlePending_apart : Apart source (handlePending target event) := by
  have hpending : Apart source (consumePending target event) := by
    refine (apart_act rfl).seq fun read => apart_orRaise.seq fun pending => ?_
    by_cases hmem : event.id ∈ ids pending
    · rw [if_pos hmem]
      exact consume_apart (by simp)
    · rw [if_neg hmem]
      exact apart_pure
  exact (apart_act rfl).seq fun _ => hpending.catch fun _ => (apart_act rfl).seq fun _ => apart_orRaise.seq fun _ => apart_pure

theorem whileOpen_apart {next : M S Unit} (h : Apart source next) : Apart source (whileOpen next) := by
  refine (apart_act rfl).seq fun ended => ?_
  cases ended with
  | true => exact apart_throw
  | false => exact h

theorem deliverTrigger_apart {handle : M S Unit} (h : Apart source handle) : Apart source (deliverTrigger handle turns) := by
  induction turns with
  | zero => exact apart_throw
  | succ turns ih =>
    refine whileOpen_apart (h.catch fun result => ?_)
    unfold afterAttempt
    split
    · exact apart_pure
    · exact apart_pure
    · exact whileOpen_apart (whileOpen_apart ih)

theorem replay_apart : Apart source (replayTriggerDeliveries target turns) := by
  refine (apart_act rfl).seq fun read => apart_orRaise.seq fun pending => ?_
  induction pending with
  | nil => exact apart_pure
  | cons stored rest ih =>
    unfold replayEach
    cases S.decode stored.event with
    | none => exact apart_throw
    | some event => exact (deliverTrigger_apart handlePending_apart).seq fun _ => ih

theorem run_apart {s : S.Source} (h : s ≠ source) : Apart source (run s target turns rounds) := by
  have hloop : Apart source (receiveLoop s target turns rounds) := by
    induction rounds with
    | zero => exact apart_throw
    | succ rounds ih =>
      have hreceive : Op.delivers source (.receive s) = false := decide_eq_false h
      refine (apart_act hreceive).seq fun received => ?_
      cases received with
      | none => exact apart_throw
      | some event =>
        exact (deliverTrigger_apart (handleTrigger_apart fun heq => h (Option.some_inj.1 heq))).seq fun _ => ih
  refine (apart_act rfl).seq fun isRunning => ?_
  cases isRunning with
  | true => exact apart_throw
  | false =>
    refine (apart_act rfl).seq fun _ => hloop.catch fun _ => (apart_act rfl).seq fun _ => ?_
    exact (apart_act rfl).seq fun _ => apart_orRaise

theorem prepareTrigger_apart : Apart source (prepareTrigger target event) := by
  unfold prepareTrigger
  by_cases hid : trimSpace event.id = []
  · rw [if_pos hid]
    exact apart_throw
  · rw [if_neg hid]
    cases S.encode event with
    | none => exact apart_throw
    | some encoded => exact (apart_act rfl).seq fun _ => (apart_act rfl).seq fun _ => (apart_act rfl).seq fun _ => apart_orRaise

theorem recordAndQueue_apart {endpoint : S.Endpoint} : Apart source (recordAndQueue endpoint event) := by
  have hqueue : ∀ recipients : List (S.Source × S.Target), Apart source (queueEach event recipients) := by
    intro recipients
    induction recipients with
    | nil => exact apart_pure
    | cons recipient rest ih => exact (apart_act rfl).seq fun _ => apart_orRaise.seq fun _ => ih
  have hrecord : ∀ running : List (S.Source × S.Target), Apart source (recordEach event running) := by
    intro running
    induction running with
    | nil => exact apart_pure
    | cons candidate rest ih =>
      unfold recordEach
      by_cases haccept : S.acceptEvent candidate.1 event = false
      · rw [if_pos haccept]
        exact ih
      · rw [if_neg haccept]
        exact prepareTrigger_apart.seq fun _ => ih.seq fun _ => apart_pure
  refine (apart_act rfl).seq fun running => ?_
  by_cases hnone : running.length = 0
  · rw [if_pos hnone]
    exact apart_throw
  · rw [if_neg hnone]
    exact (hrecord running).seq fun _ => hqueue _

theorem serveHTTP_apart {endpoint : S.Endpoint} {incoming : Incoming S.Header} : Apart source (serveHTTP endpoint incoming) := by
  have hdecoded : ∀ decoded, Apart source (serveDecoded endpoint decoded) := by
    intro decoded
    unfold serveDecoded
    split
    · exact apart_pure
    · split
      · exact apart_pure
      · refine recordAndQueue_apart.catch fun result => ?_
        cases result <;> exact apart_pure
  unfold serveHTTP
  split
  · exact apart_pure
  · split
    · exact apart_pure
    · split
      · exact apart_pure
      · refine (apart_act rfl).seq fun resolved => ?_
        cases resolved with
        | none => exact apart_pure
        | some credentials =>
          refine (apart_act rfl).seq fun verified => ?_
          unfold serveVerified
          split
          · exact apart_pure
          · exact apart_pure
          · exact hdecoded _

end

/-- **A call that does not run the source** is safe, whoever runs it. -/
theorem other_safe {call : Call S} (h : ∀ t turns rounds, call ≠ .run source t turns rounds) :
    (orderProtocol first source target runner).Safe i (fun _ _ => True) call.program w := by
  have happart : call.program.Performs (fun o => o.delivers source = false) := by
    cases call with
    | serve endpoint incoming => exact serveHTTP_apart
    | replay t turns => exact performs_map replay_apart
    | run s t turns rounds =>
      refine performs_map (run_apart fun heq => ?_)
      exact h t turns rounds (by rw [heq])
  have hknows : ∀ (o : Op S) (w' : World S ι), o.delivers source = false → Knows source runner i o w' := by
    intro o w' ho
    cases o with
    | receive s => exact fun heq => absurd heq (of_decide_eq_false ho)
    | invoke t event origin =>
      cases origin with
      | none => trivial
      | some s => exact fun heq => absurd heq (of_decide_eq_false ho)
    | _ => trivial
  exact Protocol.safe_of_performs (P := orderProtocol first source target runner)
    (fun o w₁ a w₂ ho hinv hs => step_keeps hs hinv (hknows o w₁ ho)) happart

/-! ## The run of the source -/

section

variable {event : S.Event} {turns rounds : Nat}

/-- An operation of the runner. -/
theorem yields_order {o : Op S} {Q : Ans S o → World S ι → Prop} {X : Err → World S ι → Prop}
    (hknows : ∀ w', (i = runner → inHand source w'.trace = inHand source w.trace) → Knows source runner i o w')
    (hk : ∀ w₁ a w₂ w₃, stepMeeting first source target i o w₁ a w₂ →
      (i = runner → inHand source w₁.trace = inHand source w.trace) →
      (i = runner → inHand source w₃.trace = inHand source w₂.trace) → Q a w₃) :
    Yields (orderProtocol first source target runner) i Q X (act o) w := by
  refine yields_act fun w₁ a w₂ hr hi hs => ?_
  obtain ⟨h1, h2⟩ := step_keeps hs hi (hknows w₁ hr)
  exact ⟨h1, h2, fun w₃ hr₃ _ => hk w₁ a w₂ w₃ hs hr hr₃⟩

/-- **The removal of the event succeeds**, and `consume` with it. -/
theorem finishConsume_first {eventID : Bytes} {skipped : Bool} (hinv : Ordered first source target w) :
    Yields (orderProtocol first source target runner) i (fun _ _ => True) (fun _ _ => False)
      (finishConsume target eventID skipped) w := by
  have hremove : Yields (orderProtocol first source target runner) i (fun removed _ => removed.isOk = true) (fun _ _ => False)
      (act (.remove target eventID)) w :=
    yields_order (fun _ _ => trivial) fun _ _ _ _ hs _ _ => hs.2 rfl
  refine hremove.seq (fun removed w₁ hinv₁ hok => ?_) (fun _ _ _ h _ _ => h) hinv
  cases removed with
  | error err => cases hok
  | ok _ =>
    refine Yields.seq (Q := fun _ _ => True) (X := fun _ _ => False) ?_ (fun _ _ _ _ => ?_) (fun _ _ _ h _ _ => h) hinv₁
    · exact yields_order (fun _ _ => trivial) fun _ _ _ _ _ _ _ => trivial
    · exact yields_pure fun _ _ _ => trivial

theorem consume_first (hhand : inHand source w.trace = [event.id]) (hinv : Ordered first source target w) :
    Yields (orderProtocol first source target runner) runner (fun _ _ => True) (fun _ _ => False)
      (consume target event (some source)) w := by
  have hlookup : Yields (orderProtocol first source target runner) runner
      (fun _ w' => inHand source w'.trace = [event.id]) (fun _ _ => False) (act (.lookup target event.id)) w := by
    refine yields_order (fun _ _ => trivial) fun w₁ found w₂ w₃ hs hr hr₃ => ?_
    obtain ⟨⟨-, rfl⟩, -⟩ := hs
    exact (hr₃ rfl).trans ((hr rfl).trans hhand)
  refine hlookup.seq (fun found w₁ hinv₁ hhand₁ => ?_) (fun _ _ _ h _ _ => h) hinv
  cases found with
  | some skipped => exact finishConsume_first hinv₁
  | none =>
    have hinvoke : Yields (orderProtocol first source target runner) runner (fun outcome _ => outcome.isConsumed = true)
        (fun _ _ => False) (act (.invoke target event (some source))) w₁ :=
      yields_order (fun w' hr _ => ⟨rfl, (hr rfl).trans hhand₁⟩) fun _ _ _ _ hs _ _ => hs.2 rfl
    refine hinvoke.seq (fun outcome w₂ hinv₂ hconsumed => ?_) (fun _ _ _ h _ _ => h) hinv₁
    cases outcome with
    | handled => exact finishConsume_first hinv₂
    | undeliverable => exact finishConsume_first hinv₂
    | failed => cases hconsumed

/-- **One attempt**: the target's first consumes the event. -/
theorem handleTrigger_first (hhand : inHand source w.trace = [event.id]) (hinv : Ordered first source target w) :
    Yields (orderProtocol first source target runner) runner (fun _ _ => True) (fun _ _ => False)
      (handleTrigger target event (some source)) w := by
  have hlock : Yields (orderProtocol first source target runner) runner
      (fun _ w' => inHand source w'.trace = [event.id]) (fun _ _ => False) (act (.lock target)) w := by
    refine yields_order (fun _ _ => trivial) fun w₁ _ w₂ w₃ hs hr hr₃ => ?_
    obtain ⟨⟨-, rfl⟩, -⟩ := hs
    exact (hr₃ rfl).trans ((hr rfl).trans hhand)
  refine hlock.seq (fun _ w₁ hinv₁ hhand₁ => ?_) (fun _ _ _ h _ _ => h) hinv
  refine (consume_first hhand₁ hinv₁).catch (fun result w₂ hinv₂ hend => ?_) hinv₁
  cases result with
  | error e => exact hend.elim
  | ok skipped =>
    refine Yields.seq (Q := fun _ _ => True) (X := fun _ _ => False) ?_ (fun _ _ _ _ => ?_) (fun _ _ _ h _ _ => h) hinv₂
    · exact yields_order (fun _ _ => trivial) fun _ _ _ _ _ _ _ => trivial
    · exact yields_pure fun _ _ _ => trivial

/-- The runner may end for its context, or go on. -/
theorem whileOpen_order {next : M S Unit} {Q : World S ι → Prop} (hQ : Q w)
    (hrely : ∀ w₁ w₂, Q w₁ → inHand source w₂.trace = inHand source w₁.trace → Q w₂) (hinv : Ordered first source target w)
    (h : ∀ w', Ordered first source target w' → Q w' →
      Yields (orderProtocol first source target runner) runner (fun _ _ => True) (fun _ _ => True) next w') :
    Yields (orderProtocol first source target runner) runner (fun _ _ => True) (fun _ _ => True) (whileOpen next) w := by
  have hcontext : Yields (orderProtocol first source target runner) runner (fun _ w' => Q w') (fun _ _ => True)
      (act .contextErr) w := by
    refine yields_order (fun _ _ => trivial) fun w₁ _ w₂ w₃ hs hr hr₃ => ?_
    rw [show w₂ = w₁ from hs.1] at hr₃
    exact hrely w w₃ hQ ((hr₃ rfl).trans (hr rfl))
  refine hcontext.seq (fun ended w₁ hinv₁ hQ₁ => ?_) (fun _ _ _ _ _ _ => trivial) hinv
  cases ended with
  | true => exact yields_throw fun _ _ _ => trivial
  | false => exact h w₁ hinv₁ hQ₁

theorem deliverTrigger_order (hhand : inHand source w.trace = [event.id]) (hinv : Ordered first source target w) :
    Yields (orderProtocol first source target runner) runner (fun _ _ => True) (fun _ _ => True)
      (deliverTrigger (handleTrigger target event (some source)) turns) w := by
  cases turns with
  | zero => exact yields_throw fun _ _ _ => trivial
  | succ turns =>
    refine whileOpen_order (Q := fun w' => inHand source w'.trace = [event.id]) hhand (fun _ _ h heq => heq.trans h) hinv
      fun w₁ hinv₁ hhand₁ => ?_
    refine (handleTrigger_first hhand₁ hinv₁).catch (fun result w₂ hinv₂ hend => ?_) hinv₁
    cases result with
    | error e => exact hend.elim
    | ok _ => exact yields_pure fun _ _ _ => trivial

theorem receiveLoop_order (hinv : Ordered first source target w) :
    Yields (orderProtocol first source target runner) runner (fun _ _ => True) (fun _ _ => True)
      (receiveLoop source target turns rounds) w := by
  induction rounds generalizing w with
  | zero => exact yields_throw fun _ _ _ => trivial
  | succ rounds ih =>
    have hreceive : Yields (orderProtocol first source target runner) runner
        (fun received w' => ∀ event, received = some event → inHand source w'.trace = [event.id]) (fun _ _ => True)
        (act (.receive source)) w := by
      refine yields_order (fun _ _ _ => rfl) fun w₁ received w₂ w₃ hs _ hr₃ event hevent => ?_
      subst hevent
      obtain ⟨⟨rest, -, rfl⟩, -⟩ := hs
      exact (hr₃ rfl).trans (if_pos rfl)
    refine hreceive.seq (fun received w₁ hinv₁ hhand => ?_) (fun _ _ _ _ _ _ => trivial) hinv
    cases received with
    | none => exact yields_throw fun _ _ _ => trivial
    | some event =>
      exact (deliverTrigger_order (hhand event rfl) hinv₁).seq (fun _ _ hinv₂ _ => ih hinv₂) (fun _ _ _ _ _ _ => trivial) hinv₁

theorem run_order (hinv : Ordered first source target w) :
    Yields (orderProtocol first source target runner) runner (fun _ _ => True) (fun _ _ => True)
      (run source target turns rounds) w := by
  have hany : ∀ {o : Op S} {w' : World S ι}, (∀ w₁, Knows source runner runner o w₁) →
      Yields (orderProtocol first source target runner) runner (fun _ _ => True) (fun _ _ => True) (act o) w' :=
    fun h => yields_order (fun w₁ _ => h w₁) fun _ _ _ _ _ _ _ => trivial
  refine Yields.seq (hany fun _ => trivial) (fun isRunning w₁ hinv₁ _ => ?_) (fun _ _ _ _ _ _ => trivial) hinv
  cases isRunning with
  | true => exact yields_throw fun _ _ _ => trivial
  | false =>
    refine Yields.seq (hany fun _ => trivial) (fun _ w₂ hinv₂ _ => ?_) (fun _ _ _ _ _ _ => trivial) hinv₁
    refine (receiveLoop_order hinv₂).catch (fun result w₃ hinv₃ _ => ?_) hinv₂
    refine Yields.seq (hany fun _ => trivial) (fun _ w₄ hinv₄ _ => ?_) (fun _ _ _ _ _ _ => trivial) hinv₃
    refine Yields.seq (hany fun _ => trivial) (fun _ w₅ hinv₅ _ => ?_) (fun _ _ _ _ _ _ => trivial) hinv₄
    refine yields_orRaise fun w₆ _ _ => ?_
    cases result <;> trivial

end

def sampleDelivered (j : Bool) : TriggerEvent Unit := ⟨sampleID j, ()⟩

/-- The rest of the source's run around its loop. -/
def sampleRest (loop : M sampleSetting Unit) : Prog (Op sampleSetting) (Ans sampleSetting) (Except Err Nat) :=
  ((fun _ => 0) <$> (do
    let result ← Method.attempt loop
    act (.deactivate ())
    act (.finish ())
    Method.orRaise result) : M sampleSetting Nat).run

theorem sample_starts (first : List Bytes) : Prog.Performed (stepMeeting first () () none) 2 (sampleCalls none).program sampleStart.state
    (sampleRest (receiveLoop (S := sampleSetting) () () 1 2)) sampleWorld :=
  ⟨false, _, ⟨⟨rfl, rfl⟩, trivial⟩, (), _, ⟨rfl, trivial⟩, rfl, rfl⟩

/-- The condition left aside. -/
theorem performed_step {n : Nat} {p q : Prog (Op S) (Ans S) (Except Err Nat)}
    (h : Prog.Performed (stepMeeting first source target i) n p w q w') : Prog.Performed (step i) n p w q w' :=
  Prog.performed_mono (fun _ _ _ _ hs => hs.1) n h

/-- One round of the source's run: the first event of the queue is handed and removed. -/
theorem sample_round (first : List Bytes) (j : Bool) {n : Nat} {w : SampleWorld} {rest : List (TriggerEvent Unit)}
    (hqueue : w.deliveries () = sampleDelivered j :: rest) (hmutex : w.mutex () = none)
    (hremoval : ∀ id, w.pendingRemoval () id = none) (hin : sampleID j ∈ ids (w.inbox ())) :
    ∃ w', Prog.Performed (stepMeeting first () () none) 8 (sampleRest (receiveLoop (S := sampleSetting) () () 1 (n + 1))) w
        (sampleRest (receiveLoop (S := sampleSetting) () () 1 n)) w' ∧
      w'.trace = .removed () (sampleID j) true :: .invoked () (some ()) (sampleID j) .handled ::
        .received () (sampleID j) :: w.trace ∧
      w'.inbox () = (w.inbox ()).filter (fun e => e.id != sampleID j) ∧ w'.deliveries () = rest ∧ w'.mutex () = none ∧
      ∀ id, w'.pendingRemoval () id = none := by
  have hround : ∃ w', Prog.Performed (stepMeeting first () () none) 8 (receiveLoop (S := sampleSetting) () () 1 (n + 1)).run w
      (receiveLoop (S := sampleSetting) () () 1 n).run w' ∧
      w'.trace = .removed () (sampleID j) true :: .invoked () (some ()) (sampleID j) .handled ::
        .received () (sampleID j) :: w.trace ∧
      w'.inbox () = (w.inbox ()).filter (fun e => e.id != sampleID j) ∧ w'.deliveries () = rest ∧ w'.mutex () = none ∧
      ∀ id, w'.pendingRemoval () id = none := by
    refine ⟨_, ⟨some (sampleDelivered j), _, ⟨⟨rest, hqueue, rfl⟩, trivial⟩, false, _, ⟨rfl, trivial⟩, (), _,
      ⟨⟨hmutex, rfl⟩, trivial⟩, none, _, ⟨⟨(hremoval _).symm, rfl⟩, trivial⟩, .handled, _, ⟨rfl, fun _ => rfl⟩, .ok (), _,
      ⟨.inl ⟨_, ⟨hin, rfl⟩, rfl⟩, fun _ => rfl⟩, (), _, ⟨rfl, trivial⟩, (), _, ⟨rfl, trivial⟩, rfl, rfl⟩,
      rfl, rfl, rfl, rfl, ?_⟩
    intro id
    show (if () = () ∧ id = sampleID j then none else w.pendingRemoval () id) = none
    rw [hremoval, ite_self]
  obtain ⟨w', hperformed, hrest⟩ := hround
  refine ⟨w', ?_, hrest⟩
  exact Prog.performed_bind _ 8 (Prog.performed_bind _ 8 (Prog.performed_bind _ 8 hperformed))

/-- A request on its own meets the condition, and is delivered. -/
theorem sample_meets : ∃ c : Network sampleSetting (Option Bool), Config.Run (stepMeeting [] () ()) sampleStart c ∧
    handed () c.state.trace = [ascii "b"] := by
  have hsnapshot : Snapshot sampleWorld () [((), ())] := by
    refine ⟨by decide, fun source target => ?_⟩
    exact iff_of_true List.mem_cons_self ⟨rfl, rfl⟩
  have hserve : ∃ w', Prog.Exec (stepMeeting [] () () (some true)) (sampleCalls (some true)).program sampleWorld (.ok 200) w' ∧
      w'.trace = [.queued (some true) () (sampleID true), .added (some true) () (sampleID true) true true,
        .snapshot (some true) () [((), ())]] ∧
      w'.deliveries () = [sampleDelivered true] ∧ w'.mutex () = none ∧ (∀ id, w'.pendingRemoval () id = none) ∧
      w'.inbox () = [sampleEvent true] := by
    rw [sample_program]
    refine ⟨_, ⟨some (), _, ⟨rfl, trivial⟩, .ok (), _, ⟨rfl, trivial⟩, [((), ())], _, ⟨⟨hsnapshot, rfl⟩, trivial⟩, (), _,
      ⟨⟨rfl, rfl⟩, trivial⟩, .ok (), _, ⟨.inl ⟨[sampleEvent true], sample_writes true, rfl⟩, trivial⟩, (), _, ⟨rfl, trivial⟩,
      .queued, _, ⟨⟨by decide, rfl⟩, fun _ _ => ?_⟩, rfl, rfl⟩, rfl, rfl, rfl, fun _ => rfl, rfl⟩
    exact ⟨[], [], rfl, List.nil_sublist _⟩
  obtain ⟨w', hexec, htrace, hqueue, hmutex, hremoval, hinbox⟩ := hserve
  obtain ⟨c₀, hrun₀, hstate₀, hloop₀, hother₀⟩ := Config.exists_performed (c := sampleStart) rfl rfl (sample_starts [])
  obtain ⟨c₁, hrun₁, hstate₁, -, hother₁⟩ := Config.exists_alone (hother₀ (some true) (by decide)) hstate₀ hexec
  obtain ⟨w₂, hround, htrace₂, -⟩ := sample_round [] true (n := 1) hqueue hmutex hremoval (by rw [hinbox]; decide)
  obtain ⟨c₂, hrun₂, hstate₂, -⟩ := Config.exists_performed ((hother₁ none (by decide)).trans hloop₀) hstate₁ hround
  refine ⟨c₂, (hrun₀.trans hrun₁).trans hrun₂, ?_⟩
  rw [hstate₂, htrace₂, htrace]
  decide

end Webhook
end Dex
