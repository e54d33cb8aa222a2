import DexConnectors.WebhookModel
/-!
# WebhookSafety — acknowledged webhook events are not lost

What the threads promise each other: the trace only grows, a thread's own marks are its own, and what a target keeps for
removal changes only while its mutex is held (`Rely`).  An id is removed from an inbox, or kept for removal, only after the
binding's target consumed it; and no target is invoked for an id that it keeps for removal (`Inv`).  A request that is
answered 200 left a mark for each thing it did, and the run passed through the state of each mark (`passed`).
-/
namespace Dex
namespace Webhook

open Lib Lib.Utf8 Lib.Method

open Inbox (PendingTriggerEvent ids Writes)

variable {S : Setting} {ι : Type}

/-! ## Reading the trace -/

/-- **The binding's target returned nil or undeliverable for the id.** -/
def Consumed (b : S.Binding) (eventID : Bytes) (trace : List (Mark S ι)) : Prop :=
  ∃ target source outcome, .invoked target source eventID outcome ∈ trace ∧ S.binding target = b ∧ outcome.isConsumed = true

/-- **The target's last removal of the id failed.** -/
def awaitsRemoval (target : S.Target) (eventID : Bytes) : List (Mark S ι) → Bool
  | [] => false
  | .removed t id answered :: older => if t = target ∧ id = eventID then !answered else awaitsRemoval target eventID older
  | _ :: older => awaitsRemoval target eventID older

theorem Consumed.grow {b : S.Binding} {eventID : Bytes} {trace trace' : List (Mark S ι)} (h : Consumed b eventID trace)
    (hg : trace <:+ trace') : Consumed b eventID trace' := by
  obtain ⟨target, source, outcome, hmem, hrest⟩ := h
  exact ⟨target, source, outcome, hg.subset hmem, hrest⟩

/-- Marks that say nothing about a removal. -/
def Mark.keepsRemovals : Mark S ι → Bool
  | .removed _ _ _ => false
  | _ => true

theorem awaitsRemoval_cons {mark : Mark S ι} (h : mark.keepsRemovals = true) (target : S.Target) (eventID : Bytes)
    (trace : List (Mark S ι)) : awaitsRemoval target eventID (mark :: trace) = awaitsRemoval target eventID trace := by
  cases mark <;> first | rfl | cases h

/-- What a target keeps for removal, and what its last removals were. -/
def Agree (target : S.Target) (w : World S ι) : Prop :=
  ∀ eventID, (w.pendingRemoval target eventID).isSome = awaitsRemoval target eventID w.trace

structure Inv (w : World S ι) : Prop where
  kept  : ∀ target eventID, (w.pendingRemoval target eventID).isSome → Consumed (S.binding target) eventID w.trace
  agree : ∀ target, w.mutex target = none → Agree target w
  quiet : ∀ newer target source eventID outcome older,
    w.trace = newer ++ .invoked target source eventID outcome :: older → awaitsRemoval target eventID older = false

section

variable [DecidableEq ι]

def Mark.isBy (i : ι) : Mark S ι → Bool
  | .snapshot j _ _ | .added j _ _ _ _ | .queued j _ _ | .refused j => decide (j = i)
  | _ => false

/-- **The marks of a thread**, the newest first. -/
def own (i : ι) (w : World S ι) : List (Mark S ι) := w.trace.filter (Mark.isBy i)

end

/-- What a target's mutex protects. -/
def SameTarget (target : S.Target) (w w' : World S ι) : Prop :=
  w'.mutex target = w.mutex target ∧ (∀ id, w'.pendingRemoval target id = w.pendingRemoval target id) ∧
    ∀ id, awaitsRemoval target id w'.trace = awaitsRemoval target id w.trace

/-- **An id leaves an inbox only when it was consumed.** -/
def Kept (w w' : World S ι) : Prop :=
  ∀ b id, id ∈ ids (w.inbox b) → id ∈ ids (w'.inbox b) ∨ Consumed b id w'.trace

variable [DecidableEq ι]

structure Rely (i : ι) (w w' : World S ι) : Prop where
  trace : w.trace <:+ w'.trace
  own   : own i w' = own i w
  held  : ∀ target, w.mutex target = some i → SameTarget target w w'

omit [DecidableEq ι] in
theorem SameTarget.trans {target : S.Target} {w w' w'' : World S ι} (h : SameTarget target w w')
    (h' : SameTarget target w' w'') : SameTarget target w w'' :=
  ⟨h'.1.trans h.1, fun id => (h'.2.1 id).trans (h.2.1 id), fun id => (h'.2.2 id).trans (h.2.2 id)⟩

theorem Rely.refl (i : ι) (w : World S ι) : Rely i w w :=
  ⟨List.suffix_rfl, rfl, fun _ _ => ⟨rfl, fun _ => rfl, fun _ => rfl⟩⟩

theorem Rely.trans (i : ι) {w w' w'' : World S ι} (h : Rely i w w') (h' : Rely i w' w'') : Rely i w w'' := by
  refine ⟨h.trace.trans h'.trace, h'.own.trans h.own, fun target ht => ?_⟩
  have h1 := h.held target ht
  exact h1.trans (h'.held target (h1.1.trans ht))

structure Guar (i : ι) (w w' : World S ι) : Prop where
  rely  : ∀ j, j ≠ i → Rely j w w'
  trace : w.trace <:+ w'.trace
  kept  : Kept w w'

def protocol : Protocol (Op S) (Ans S) (World S ι) ι where
  step := step
  inv := Inv
  guar := Guar
  rely := Rely
  rely_refl := Rely.refl
  rely_trans := fun i {_ _ _} h h' => Rely.trans i h h'
  guar_rely := fun _ j _ _ hne h => h.rely j (Ne.symm hne)

/-! ## One operation -/

/-- What a thread must know before an operation. -/
def Pre (i : ι) : Op S → World S ι → Prop
  | .unlock target, w => w.mutex target = some i ∧ Agree target w
  | .remove target eventID, w => w.mutex target = some i ∧ Consumed (S.binding target) eventID w.trace
  | .keepForRemoval target eventID _, w => w.mutex target = some i ∧ Consumed (S.binding target) eventID w.trace
  | .forgetRemoval target _, w => w.mutex target = some i
  | .invoke target event _, w => w.mutex target = some i ∧ awaitsRemoval target event.id w.trace = false
  | _, _ => True

/-- An operation that leaves the mutexes, the kept removals, the inboxes and the trace. -/
theorem quiet_safe {i : ι} {w w' : World S ι} (hinv : Inv w) (hmutex : w'.mutex = w.mutex)
    (hremoval : w'.pendingRemoval = w.pendingRemoval) (hinbox : w'.inbox = w.inbox) (htrace : w'.trace = w.trace) :
    Inv w' ∧ Guar i w w' := by
  have hsuffix : w.trace <:+ w'.trace := htrace ▸ List.suffix_rfl
  have hsame : ∀ target, SameTarget target w w' := by
    intro target
    refine ⟨by rw [hmutex], fun id => by rw [hremoval], fun id => by rw [htrace]⟩
  refine ⟨⟨?_, ?_, ?_⟩, ⟨fun j _ => ⟨hsuffix, ?_, fun target _ => hsame target⟩, hsuffix, ?_⟩⟩
  · rw [hremoval, htrace]
    exact hinv.kept
  · intro target ht id
    rw [hmutex] at ht
    rw [hremoval, htrace]
    exact hinv.agree target ht id
  · rw [htrace]
    exact hinv.quiet
  · unfold own
    rw [htrace]
  · intro b id hid
    rw [hinbox]
    exact .inl hid

/-- The marks of others are not a thread's own. -/
theorem own_cons {i : ι} {mark : Mark S ι} {trace : List (Mark S ι)} (h : mark.isBy i = false) :
    (mark :: trace).filter (Mark.isBy i) = trace.filter (Mark.isBy i) := by
  rw [List.filter_cons, h]
  rfl

/-- An operation of thread `i` that leaves a mark, and not about a removal. -/
theorem marked_safe {i : ι} {w w' : World S ι} {mark : Mark S ι} (hinv : Inv w) (hmutex : w'.mutex = w.mutex)
    (hremoval : w'.pendingRemoval = w.pendingRemoval) (htrace : w'.trace = mark :: w.trace)
    (hmark : mark.keepsRemovals = true) (hby : ∀ j, j ≠ i → mark.isBy j = false)
    (hquiet : ∀ target source id outcome, mark = .invoked target source id outcome → awaitsRemoval target id w.trace = false)
    (hkept : Kept w w') : Inv w' ∧ Guar i w w' := by
  have hsuffix : w.trace <:+ w'.trace := by
    rw [htrace]
    exact List.suffix_cons mark w.trace
  have hawaits : ∀ target id, awaitsRemoval target id w'.trace = awaitsRemoval target id w.trace := by
    intro target id
    rw [htrace]
    exact awaitsRemoval_cons hmark target id w.trace
  refine ⟨⟨?_, ?_, ?_⟩, ⟨fun j hj => ⟨hsuffix, ?_, fun target _ => ⟨by rw [hmutex], fun id => by rw [hremoval], hawaits target⟩⟩,
    hsuffix, hkept⟩⟩
  · intro target id hid
    rw [hremoval] at hid
    exact (hinv.kept target id hid).grow hsuffix
  · intro target ht id
    rw [hmutex] at ht
    rw [hremoval, hawaits]
    exact hinv.agree target ht id
  · intro newer target source id outcome older heq
    rw [htrace] at heq
    cases newer with
    | nil =>
      simp only [List.nil_append, List.cons.injEq] at heq
      rw [← heq.2]
      exact hquiet target source id outcome heq.1
    | cons m newer =>
      simp only [List.cons_append, List.cons.injEq] at heq
      exact hinv.quiet newer target source id outcome older heq.2
  · unfold own
    rw [htrace]
    exact own_cons (hby j hj)

omit [DecidableEq ι] in
theorem kept_of_inbox {w w' : World S ι} (h : w'.inbox = w.inbox) : Kept w w' := by
  intro b id hid
  rw [h]
  exact .inl hid

omit [DecidableEq ι] in
/-- A write to a target's inbox. -/
theorem kept_withEvents {w w' : World S ι} {target : S.Target} {events : List PendingTriggerEvent}
    (hinbox : w'.inbox = (w.withEvents target events).inbox)
    (h : ∀ id ∈ ids (w.events target), id ∈ ids events ∨ Consumed (S.binding target) id w'.trace) : Kept w w' := by
  intro b id hid
  rw [hinbox]
  show id ∈ ids (if b = S.binding target then events else w.inbox b) ∨ _
  by_cases hb : b = S.binding target
  · subst hb
    rw [if_pos rfl]
    exact h id hid
  · rw [if_neg hb]
    exact .inl hid

omit [DecidableEq ι] in
theorem writes_add_mem {old new : List PendingTriggerEvent} {event : PendingTriggerEvent} (h : Writes old (.add event) new) :
    event.id ∈ ids new ∧ ∀ id ∈ ids old, id ∈ ids new := by
  obtain ⟨-, -, hid, -, rfl⟩ := h
  unfold ids
  rw [List.map_append]
  refine ⟨List.mem_append_right _ ?_, fun id hmem => List.mem_append_left _ hmem⟩
  simp [hid]

omit [DecidableEq ι] in
theorem writes_remove_mem {old new : List PendingTriggerEvent} {eventID : Bytes} (h : Writes old (.remove eventID) new) :
    ∀ id ∈ ids old, id ∈ ids new ∨ id = eventID := by
  obtain ⟨-, rfl⟩ := h
  intro id hmem
  by_cases hid : id = eventID
  · exact .inr hid
  · left
    unfold ids at hmem ⊢
    obtain ⟨e, he, rfl⟩ := List.mem_map.1 hmem
    exact List.mem_map_of_mem (List.mem_filter.2 ⟨he, by simpa using hid⟩)

/-- A removal, under the mutex and after the target consumed the event. -/
theorem removed_safe {i : ι} {w w' : World S ι} {target : S.Target} {eventID : Bytes} {answered : Bool} (hinv : Inv w)
    (hmutex : w'.mutex = w.mutex) (hremoval : w'.pendingRemoval = w.pendingRemoval)
    (htrace : w'.trace = .removed target eventID answered :: w.trace) (hheld : w.mutex target = some i)
    (hkept : Kept w w') : Inv w' ∧ Guar i w w' := by
  have hsuffix : w.trace <:+ w'.trace := by
    rw [htrace]
    exact List.suffix_cons _ w.trace
  have hother : ∀ t, t ≠ target → ∀ id, awaitsRemoval t id w'.trace = awaitsRemoval t id w.trace := by
    intro t ht id
    rw [htrace]
    exact if_neg fun h => ht h.1.symm
  refine ⟨⟨?_, ?_, ?_⟩, ⟨fun j hj => ⟨hsuffix, ?_, fun t ht => ?_⟩, hsuffix, hkept⟩⟩
  · intro t id hid
    rw [hremoval] at hid
    exact (hinv.kept t id hid).grow hsuffix
  · intro t ht id
    rw [hmutex] at ht
    have hne : t ≠ target := by
      rintro rfl
      rw [hheld] at ht
      cases ht
    rw [hremoval, hother t hne]
    exact hinv.agree t ht id
  · intro newer t source id outcome older heq
    rw [htrace] at heq
    cases newer with
    | nil => simp at heq
    | cons m newer =>
      simp only [List.cons_append, List.cons.injEq] at heq
      exact hinv.quiet newer t source id outcome older heq.2
  · unfold own
    rw [htrace]
    exact own_cons rfl
  · have hne : t ≠ target := by
      rintro rfl
      exact hj (Option.some_inj.1 (ht.symm.trans hheld))
    exact ⟨by rw [hmutex], fun id => by rw [hremoval], hother t hne⟩

/-- A change of what a target keeps for removal, or of its mutex, by the thread that takes or holds the mutex. -/
theorem locked_safe {i : ι} {w w' : World S ι} (target : S.Target) (hinv : Inv w)
    (howner : w.mutex target = none ∨ w.mutex target = some i)
    (hother : ∀ t, t ≠ target → w'.mutex t = w.mutex t ∧ ∀ id, w'.pendingRemoval t id = w.pendingRemoval t id)
    (hinbox : w'.inbox = w.inbox) (htrace : w'.trace = w.trace)
    (hagree : w'.mutex target = none → Agree target w')
    (hconsumed : ∀ id, (w'.pendingRemoval target id).isSome → Consumed (S.binding target) id w.trace) :
    Inv w' ∧ Guar i w w' := by
  have hsuffix : w.trace <:+ w'.trace := htrace ▸ List.suffix_rfl
  refine ⟨⟨?_, ?_, ?_⟩, ⟨fun j hj => ⟨hsuffix, by unfold own; rw [htrace], fun t ht => ?_⟩, hsuffix, kept_of_inbox hinbox⟩⟩
  · intro t id hid
    rw [htrace]
    by_cases ht : t = target
    · subst ht
      exact hconsumed id hid
    · rw [(hother t ht).2] at hid
      exact hinv.kept t id hid
  · intro t hfree
    by_cases ht : t = target
    · subst ht
      exact hagree hfree
    · intro id
      rw [(hother t ht).1] at hfree
      rw [(hother t ht).2, htrace]
      exact hinv.agree t hfree id
  · rw [htrace]
    exact hinv.quiet
  · have hne : t ≠ target := by
      rintro rfl
      obtain hfree | hheld := howner
      · rw [hfree] at ht
        cases ht
      · exact hj (Option.some_inj.1 (ht.symm.trans hheld))
    exact ⟨(hother t hne).1, (hother t hne).2, fun id => by rw [htrace]⟩

/-- **What every operation keeps.** -/
theorem step_safe {i : ι} {o : Op S} {w w' : World S ι} {a : Ans S o} (hs : step i o w a w') (hinv : Inv w)
    (hpre : Pre i o w) : Inv w' ∧ Guar i w w' := by
  have hown : ∀ j, j ≠ i → decide (i = j) = false := fun j hj => decide_eq_false fun h => hj h.symm
  cases o with
  | resolveCredentials _ _ | verifyRequest _ _ _ | contextErr =>
    rw [show w' = w from hs]
    exact quiet_safe hinv rfl rfl rfl rfl
  | snapshot endpoint =>
    obtain ⟨-, rfl⟩ := hs
    exact marked_safe hinv rfl rfl rfl rfl hown (fun _ _ _ _ h => by cases h) (kept_of_inbox rfl)
  | enqueue source event =>
    cases a with
    | queued =>
      obtain ⟨-, rfl⟩ := hs
      exact marked_safe hinv rfl rfl rfl rfl hown (fun _ _ _ _ h => by cases h) (kept_of_inbox rfl)
    | done =>
      rw [show w' = _ from hs]
      exact marked_safe hinv rfl rfl rfl rfl hown (fun _ _ _ _ h => by cases h) (kept_of_inbox rfl)
    | full =>
      obtain ⟨-, rfl⟩ := hs
      exact marked_safe hinv rfl rfl rfl rfl hown (fun _ _ _ _ h => by cases h) (kept_of_inbox rfl)
  | begin source =>
    obtain ⟨-, rfl⟩ := hs
    exact quiet_safe hinv rfl rfl rfl rfl
  | activate _ _ | deactivate _ | finish _ =>
    rw [show w' = _ from hs]
    exact quiet_safe hinv rfl rfl rfl rfl
  | receive source =>
    cases a with
    | none =>
      rw [show w' = w from hs]
      exact quiet_safe hinv rfl rfl rfl rfl
    | some event =>
      obtain ⟨rest, -, rfl⟩ := hs
      exact marked_safe hinv rfl rfl rfl rfl (fun _ _ => rfl) (fun _ _ _ _ h => by cases h) (kept_of_inbox rfl)
  | lock target =>
    obtain ⟨hfree, rfl⟩ := hs
    refine locked_safe target hinv (.inl hfree) (fun t ht => ⟨if_neg ht, fun _ => rfl⟩) rfl rfl (fun h => ?_)
      (fun id hid => hinv.kept target id hid)
    exact absurd ((if_pos rfl).symm.trans h) (by simp)
  | unlock target =>
    rw [show w' = _ from hs]
    exact locked_safe target hinv (.inr hpre.1) (fun t ht => ⟨if_neg ht, fun _ => rfl⟩) rfl rfl
      (fun _ => hpre.2) (fun id hid => hinv.kept target id hid)
  | add target event =>
    obtain ⟨events, hw, rfl⟩ | ⟨-, rfl⟩ := hs
    · refine marked_safe hinv rfl rfl rfl rfl hown (fun _ _ _ _ h => by cases h) (kept_withEvents rfl fun id hid => ?_)
      exact .inl ((writes_add_mem hw).2 id hid)
    · exact marked_safe hinv rfl rfl rfl rfl hown (fun _ _ _ _ h => by cases h) (kept_of_inbox rfl)
  | pending target =>
    obtain ⟨-, rfl⟩ := hs
    exact quiet_safe hinv rfl rfl rfl rfl
  | remove target eventID =>
    obtain ⟨hheld, hconsumed⟩ := hpre
    obtain ⟨events, hw, rfl⟩ | ⟨-, rfl⟩ := hs
    · refine removed_safe hinv rfl rfl rfl hheld (kept_withEvents rfl fun id hid => ?_)
      obtain hid | rfl := writes_remove_mem hw id hid
      · exact .inl hid
      · exact .inr (hconsumed.grow (List.suffix_cons _ _))
    · exact removed_safe hinv rfl rfl rfl hheld (kept_of_inbox rfl)
  | lookup target eventID =>
    obtain ⟨-, rfl⟩ := hs
    exact quiet_safe hinv rfl rfl rfl rfl
  | keepForRemoval target eventID skipped =>
    obtain ⟨hheld, hconsumed⟩ := hpre
    rw [show w' = _ from hs]
    refine locked_safe target hinv (.inr hheld) (fun t ht => ⟨rfl, fun id => if_neg fun h => ht h.1⟩) rfl rfl
      (fun h => ?_) (fun id hid => ?_)
    · rw [show w.mutex target = none from h] at hheld
      cases hheld
    · by_cases hsame : id = eventID
      · exact hsame ▸ hconsumed
      · have hkeep : (w.withRemoval target eventID (some skipped)).pendingRemoval target id = w.pendingRemoval target id :=
          if_neg fun h => hsame h.2
        rw [hkeep] at hid
        exact hinv.kept target id hid
  | forgetRemoval target eventID =>
    have hheld : w.mutex target = some i := hpre
    rw [show w' = _ from hs]
    refine locked_safe target hinv (.inr hheld) (fun t ht => ⟨rfl, fun id => if_neg fun h => ht h.1⟩) rfl rfl
      (fun h => ?_) (fun id hid => ?_)
    · rw [show w.mutex target = none from h] at hheld
      cases hheld
    · by_cases hsame : id = eventID
      · have hnone : (w.withRemoval target eventID none).pendingRemoval target id = none := if_pos ⟨rfl, hsame⟩
        rw [hnone] at hid
        cases hid
      · have hkeep : (w.withRemoval target eventID none).pendingRemoval target id = w.pendingRemoval target id :=
          if_neg fun h => hsame h.2
        rw [hkeep] at hid
        exact hinv.kept target id hid
  | invoke target event source =>
    rw [show w' = _ from hs]
    refine marked_safe hinv rfl rfl rfl rfl (fun _ _ => rfl) (fun t s id outcome h => ?_) (kept_of_inbox rfl)
    cases h
    exact hpre.2

/-! ## Targets -/

variable {i : ι} {w : World S ι}

/-- **The proof rule of one operation.** -/
theorem yields_op {o : Op S} {Q : Ans S o → World S ι → Prop} {X : Err → World S ι → Prop}
    (hpre : ∀ w', Rely i w w' → Pre i o w')
    (hk : ∀ w₁ a w₂ w₃, Rely i w w₁ → Inv w₁ → step i o w₁ a w₂ → Rely i w₂ w₃ → Q a w₃) :
    Yields protocol i Q X (act o) w := by
  refine yields_act fun w₁ a w₂ hr hinv hs => ?_
  obtain ⟨h1, h2⟩ := step_safe hs hinv (hpre w₁ hr)
  exact ⟨h1, h2, fun w₃ hr₃ _ => hk w₁ a w₂ w₃ hr hinv hs hr₃⟩

/-- An operation of which nothing is asked. -/
theorem yields_any {o : Op S} {X : Err → World S ι → Prop} (hpre : ∀ w', Rely i w w' → Pre i o w') :
    Yields protocol i (fun _ _ => True) X (act o) w := yields_op hpre fun _ _ _ _ _ _ _ _ => trivial

/-- Thread `i` holds the mutex of a target whose table is in order. -/
structure Held (i : ι) (target : S.Target) (w : World S ι) : Prop where
  mutex : w.mutex target = some i
  agree : Agree target w

theorem Held.rely {target : S.Target} {w' : World S ι} (h : Held i target w) (hr : Rely i w w') : Held i target w' := by
  have hs := hr.held target h.mutex
  exact ⟨hs.1.trans h.mutex, fun id => by rw [hs.2.1, hs.2.2, h.agree]⟩

/-- Thread `i` has tried to remove the id, and has not noted how that ended. -/
structure Removing (i : ι) (target : S.Target) (eventID : Bytes) (answered : Bool) (w : World S ι) : Prop where
  mutex    : w.mutex target = some i
  consumed : Consumed (S.binding target) eventID w.trace
  awaits   : awaitsRemoval target eventID w.trace = !answered
  others   : ∀ id, id ≠ eventID → (w.pendingRemoval target id).isSome = awaitsRemoval target id w.trace

theorem Removing.rely {target : S.Target} {eventID : Bytes} {answered : Bool} {w' : World S ι}
    (h : Removing i target eventID answered w) (hr : Rely i w w') : Removing i target eventID answered w' := by
  have hs := hr.held target h.mutex
  refine ⟨hs.1.trans h.mutex, h.consumed.grow hr.trace, (hs.2.2 eventID).trans h.awaits, fun id hne => ?_⟩
  rw [hs.2.1, hs.2.2, h.others id hne]

omit [DecidableEq ι] in
/-- The table after the end of a removal is noted. -/
theorem Removing.noted {target : S.Target} {eventID : Bytes} {answered : Bool} (h : Removing i target eventID answered w)
    {removal : Option Bool} (hremoval : removal.isSome = !answered) :
    Held i target (w.withRemoval target eventID removal) := by
  refine ⟨h.mutex, fun id => ?_⟩
  show (if target = target ∧ id = eventID then removal else w.pendingRemoval target id).isSome = awaitsRemoval target id w.trace
  by_cases hid : id = eventID
  · rw [if_pos ⟨rfl, hid⟩, hid, hremoval, h.awaits]
  · rw [if_neg fun hn => hid hn.2]
    exact h.others id hid

theorem finishConsume_yields {target : S.Target} {eventID : Bytes} {skipped : Bool} (hheld : Held i target w)
    (hconsumed : Consumed (S.binding target) eventID w.trace) (hinv : Inv w) :
    Yields protocol i (fun _ => Held i target) (fun _ => Held i target) (finishConsume target eventID skipped) w := by
  have hremove : Yields protocol i (fun removed => Removing i target eventID removed.isOk) (fun _ => Held i target)
      (act (.remove target eventID)) w := by
    refine yields_op (fun w' hr => ⟨(hheld.rely hr).mutex, hconsumed.grow hr.trace⟩) fun w₁ removed w₂ w₃ hr _ hs hr₃ => ?_
    have hheld₁ := hheld.rely hr
    have htrace : w₂.mutex = w₁.mutex ∧ w₂.pendingRemoval = w₁.pendingRemoval ∧
        w₂.trace = .removed target eventID removed.isOk :: w₁.trace := by
      obtain ⟨events, -, rfl⟩ | ⟨-, rfl⟩ := hs <;> exact ⟨rfl, rfl, rfl⟩
    obtain ⟨hmutex, hremoval, htrace⟩ := htrace
    refine Removing.rely ⟨?_, ?_, ?_, fun id hne => ?_⟩ hr₃
    · rw [hmutex]
      exact hheld₁.mutex
    · rw [htrace]
      exact (hconsumed.grow hr.trace).grow (List.suffix_cons _ _)
    · rw [htrace]
      exact if_pos ⟨rfl, rfl⟩
    · rw [hremoval, htrace, hheld₁.agree id]
      exact (if_neg fun h => hne h.2.symm).symm
  refine hremove.seq (fun removed w₁ hinv₁ h => ?_) (fun _ _ _ h hr _ => h.rely hr) hinv
  cases removed with
  | error err =>
    refine Yields.seq (Q := fun _ => Held i target) (X := fun _ => Held i target) ?_
      (fun _ w₂ _ h => yields_throw fun _ hr _ => h.rely hr) (fun _ _ _ h hr _ => h.rely hr) hinv₁
    refine yields_op (fun w' hr => ⟨(h.rely hr).mutex, (h.rely hr).consumed⟩) fun w₂ _ w₃ w₄ hr _ hs hr₄ => ?_
    rw [show w₃ = _ from hs] at hr₄
    exact ((h.rely hr).noted rfl).rely hr₄
  | ok _ =>
    refine Yields.seq (Q := fun _ => Held i target) (X := fun _ => Held i target) ?_
      (fun _ w₂ _ h => yields_pure fun _ hr _ => h.rely hr) (fun _ _ _ h hr _ => h.rely hr) hinv₁
    refine yields_op (fun w' hr => (h.rely hr).mutex) fun w₂ _ w₃ w₄ hr _ hs hr₄ => ?_
    rw [show w₃ = _ from hs] at hr₄
    exact ((h.rely hr).noted rfl).rely hr₄

omit [DecidableEq ι] in
/-- The invocation of a target leaves its table in order. -/
theorem Held.invoked {target : S.Target} {event : S.Event} {source : Option S.Source} {outcome : Outcome}
    (h : Held i target w) : Held i target (w.mark (.invoked target source event.id outcome)) :=
  ⟨h.mutex, fun id => (h.agree id).trans (awaitsRemoval_cons rfl target id w.trace).symm⟩

theorem consume_yields {target : S.Target} {event : S.Event} {source : Option S.Source} (hheld : Held i target w)
    (hinv : Inv w) :
    Yields protocol i (fun _ => Held i target) (fun _ => Held i target) (consume target event source) w := by
  have hlookup : Yields protocol i (fun found w' => Held i target w' ∧ found = w'.pendingRemoval target event.id)
      (fun _ => Held i target) (act (.lookup target event.id)) w := by
    refine yields_op (fun _ _ => trivial) fun w₁ found w₂ w₃ hr _ hs hr₃ => ?_
    obtain ⟨rfl, rfl⟩ := hs
    have hheld₁ := hheld.rely hr
    exact ⟨hheld₁.rely hr₃, ((hr₃.held target hheld₁.mutex).2.1 event.id).symm⟩
  refine hlookup.seq (fun found w₁ hinv₁ h => ?_) (fun _ _ _ h hr _ => h.rely hr) hinv
  obtain ⟨hheld₁, hfound⟩ := h
  cases found with
  | some skipped =>
    refine finishConsume_yields hheld₁ (hinv₁.kept target event.id ?_) hinv₁
    rw [← hfound]
    rfl
  | none =>
    have hinvoke : Yields protocol i
        (fun outcome w' => Held i target w' ∧ (outcome.isConsumed = true → Consumed (S.binding target) event.id w'.trace))
        (fun _ => Held i target) (act (.invoke target event source)) w₁ := by
      refine yields_op (fun w' hr => ⟨(hheld₁.rely hr).mutex, ?_⟩) fun w₂ outcome w₃ w₄ hr _ hs hr₄ => ?_
      · rw [← (hheld₁.rely hr).agree event.id, (hr.held target hheld₁.mutex).2.1, ← hfound]
        rfl
      · rw [show w₃ = _ from hs] at hr₄
        refine ⟨(hheld₁.rely hr).invoked.rely hr₄, fun hc => Consumed.grow ?_ hr₄.trace⟩
        exact ⟨target, source, outcome, List.mem_cons_self, rfl, hc⟩
    refine hinvoke.seq (fun outcome w₂ hinv₂ h => ?_) (fun _ _ _ h hr _ => h.rely hr) hinv₁
    obtain ⟨hheld₂, hconsumed⟩ := h
    cases outcome with
    | handled => exact finishConsume_yields hheld₂ (hconsumed rfl) hinv₂
    | undeliverable => exact finishConsume_yields hheld₂ (hconsumed rfl) hinv₂
    | failed => exact yields_throw fun _ hr _ => hheld₂.rely hr

theorem consumePending_yields {target : S.Target} {event : S.Event} (hheld : Held i target w) (hinv : Inv w) :
    Yields protocol i (fun _ => Held i target) (fun _ => Held i target) (consumePending target event) w := by
  have hread : Yields protocol i (fun _ => Held i target) (fun _ => Held i target) (act (.pending target)) w := by
    refine yields_op (fun _ _ => trivial) fun w₁ read w₂ w₃ hr _ hs hr₃ => ?_
    obtain ⟨-, rfl⟩ := hs
    exact (hheld.rely hr).rely hr₃
  refine hread.seq (fun read w₁ hinv₁ h => ?_) (fun _ _ _ h hr _ => h.rely hr) hinv
  cases read with
  | error err => exact yields_throw fun _ hr _ => h.rely hr
  | ok pending =>
    show Yields protocol i _ _ (if event.id ∈ ids pending then consume target event none else return false) w₁
    by_cases hmem : event.id ∈ ids pending
    · rw [if_pos hmem]
      exact consume_yields h hinv₁
    · rw [if_neg hmem]
      exact yields_pure fun _ hr _ => h.rely hr

/-- The mutex is taken with the table in order, and without a mark. -/
theorem lock_yields {target : S.Target} :
    Yields protocol i (fun _ w' => Held i target w' ∧ own i w' = own i w) (fun _ _ => True) (act (.lock target)) w := by
  refine yields_op (fun _ _ => trivial) fun w₁ _ w₂ w₃ hr hinv hs hr₃ => ?_
  obtain ⟨hfree, rfl⟩ := hs
  have hheld : Held i target (w₁.withMutex target (some i)) := ⟨if_pos rfl, hinv.agree target hfree⟩
  exact ⟨hheld.rely hr₃, hr₃.own.trans hr.own⟩

theorem unlock_yields {target : S.Target} (hheld : Held i target w) :
    Yields protocol i (fun _ w' => own i w' = own i w) (fun _ _ => True) (act (.unlock target)) w := by
  refine yields_op (fun w' hr => ⟨(hheld.rely hr).mutex, (hheld.rely hr).agree⟩) fun w₁ _ w₂ w₃ hr _ hs hr₃ => ?_
  rw [show w₂ = _ from hs] at hr₃
  exact hr₃.own.trans hr.own

/-- A method of which only safety is asked. -/
def Runs {α : Type} (i : ι) (m : M S α) (w : World S ι) : Prop := Yields protocol i (fun _ _ => True) (fun _ _ => True) m w

theorem Runs.seq {α β : Type} {m : M S α} {f : α → M S β} (h : Runs i m w) (hf : ∀ a w', Inv w' → Runs i (f a) w')
    (hinv : Inv w) : Runs i (m >>= f) w :=
  Yields.seq h (fun a w' hi _ => hf a w' hi) (fun _ _ _ _ _ _ => trivial) hinv

theorem Runs.catch {α β : Type} {m : M S α} {f : Except Err α → M S β} (h : Runs i m w)
    (hf : ∀ r w', Inv w' → Runs i (f r) w') (hinv : Inv w) : Runs i (Method.attempt m >>= f) w :=
  Yields.catch h (fun r w' hi _ => hf r w' hi) hinv

theorem runs_throw {α : Type} {err : Err} : Runs (α := α) i (throw err : M S α) w := yields_throw fun _ _ _ => trivial

theorem runs_pure {α : Type} {a : α} : Runs i (pure a : M S α) w := yields_pure fun _ _ _ => trivial

theorem runs_orRaise {α : Type} {r : Except Err α} : Runs i (Method.orRaise r : M S α) w := by
  refine yields_orRaise fun _ _ _ => ?_
  cases r <;> trivial

/-- **A body under the mutex of a target.** -/
theorem runs_locked {α : Type} {body : M S α} {target : S.Target} (hinv : Inv w)
    (hbody : ∀ w', Inv w' → Held i target w' →
      Yields protocol i (fun _ => Held i target) (fun _ => Held i target) body w') :
    Runs i (do
      act (.lock target)
      let result ← Method.attempt body
      act (.unlock target)
      let _ ← Method.orRaise result
      return ()) w := by
  refine lock_yields.seq (fun _ w₁ hinv₁ h => ?_) (fun _ _ _ _ _ _ => trivial) hinv
  refine (hbody w₁ hinv₁ h.1).catch (fun result w₂ hinv₂ h => ?_) hinv₁
  have hheld : Held i target w₂ := by
    cases result with
    | ok _ => exact h
    | error _ => exact h
  refine (unlock_yields hheld).seq (fun _ w₃ hinv₃ _ => ?_) (fun _ _ _ _ _ _ => trivial) hinv₂
  exact runs_orRaise.seq (fun _ _ _ => runs_pure) hinv₃

theorem runs_handleTrigger {target : S.Target} {event : S.Event} {source : Option S.Source} (hinv : Inv w) :
    Runs i (handleTrigger target event source) w :=
  runs_locked hinv fun _ hinv' hheld => consume_yields hheld hinv'

theorem runs_handlePending {target : S.Target} {event : S.Event} (hinv : Inv w) : Runs i (handlePending target event) w :=
  runs_locked hinv fun _ hinv' hheld => consumePending_yields hheld hinv'

theorem runs_whileOpen {next : M S Unit} (hnext : ∀ w', Inv w' → Runs i next w') (hinv : Inv w) :
    Runs i (whileOpen next) w := by
  refine Runs.seq (yields_any fun _ _ => trivial) (fun ended w₁ hinv₁ => ?_) hinv
  cases ended with
  | true => exact runs_throw
  | false => exact hnext w₁ hinv₁

theorem runs_afterAttempt {retry : M S Unit} (hretry : ∀ w', Inv w' → Runs i retry w') (result : Except Err Unit)
    (hinv : Inv w) : Runs i (afterAttempt retry result) w := by
  have hopen : Runs i (whileOpen (whileOpen retry)) w :=
    runs_whileOpen (fun _ hinv' => runs_whileOpen hretry hinv') hinv
  cases result with
  | ok _ => exact runs_pure
  | error err => cases err <;> first | exact runs_pure | exact hopen

theorem runs_deliverTrigger {handle : M S Unit} (hhandle : ∀ w', Inv w' → Runs i handle w') :
    ∀ (turns : Nat) {w : World S ι}, Inv w → Runs i (deliverTrigger handle turns) w
  | 0, _, _ => runs_throw
  | turns + 1, _, hinv =>
    runs_whileOpen (fun w' hinv' => (hhandle w' hinv').catch
      (fun result _ hinv'' => runs_afterAttempt (fun _ h => runs_deliverTrigger hhandle turns h) result hinv'') hinv') hinv

theorem runs_replayEach {target : S.Target} {turns : Nat} : ∀ (pending : List PendingTriggerEvent) {w : World S ι}, Inv w →
    Runs i (replayEach target turns pending) w
  | [], _, _ => runs_pure
  | stored :: rest, w, hinv => by
    unfold replayEach
    cases S.decode stored.event with
    | none => exact runs_throw
    | some event =>
      exact (runs_deliverTrigger (fun _ h => runs_handlePending h) turns hinv).seq
        (fun _ _ hinv' => runs_replayEach rest hinv') hinv

theorem runs_replayTriggerDeliveries {target : S.Target} {turns : Nat} (hinv : Inv w) :
    Runs i (replayTriggerDeliveries target turns) w := by
  refine Runs.seq (yields_any fun _ _ => trivial) (fun read w₁ hinv₁ => ?_) hinv
  exact runs_orRaise.seq (fun pending _ hinv' => runs_replayEach pending hinv') hinv₁

theorem runs_receiveLoop {source : S.Source} {target : S.Target} {turns : Nat} : ∀ (rounds : Nat) {w : World S ι}, Inv w →
    Runs i (receiveLoop source target turns rounds) w
  | 0, _, _ => runs_throw
  | rounds + 1, _, hinv => by
    refine Runs.seq (yields_any fun _ _ => trivial) (fun received w₁ hinv₁ => ?_) hinv
    cases received with
    | none => exact runs_throw
    | some event =>
      exact (runs_deliverTrigger (fun _ h => runs_handleTrigger h) turns hinv₁).seq
        (fun _ _ hinv' => runs_receiveLoop rounds hinv') hinv₁

theorem runs_run {source : S.Source} {target : S.Target} {turns rounds : Nat} (hinv : Inv w) :
    Runs i (run source target turns rounds) w := by
  refine Runs.seq (yields_any fun _ _ => trivial) (fun isRunning w₁ hinv₁ => ?_) hinv
  cases isRunning with
  | true => exact runs_throw
  | false =>
    refine Runs.seq (yields_any fun _ _ => trivial) (fun _ w₂ hinv₂ => ?_) hinv₁
    refine (runs_receiveLoop rounds hinv₂).catch (fun result w₃ hinv₃ => ?_) hinv₂
    refine Runs.seq (yields_any fun _ _ => trivial) (fun _ w₄ hinv₄ => ?_) hinv₃
    exact Runs.seq (yields_any fun _ _ => trivial) (fun _ _ _ => runs_orRaise) hinv₄

/-! ## Requests -/

theorem prepareTrigger_yields {target : S.Target} {event : S.Event} (hinv : Inv w) :
    Yields protocol i (fun _ w' => ∃ inserted, own i w' = .added i target event.id inserted true :: own i w)
      (fun _ _ => True) (prepareTrigger target event) w := by
  unfold prepareTrigger
  by_cases hid : trimSpace event.id = []
  · rw [if_pos hid]
    exact yields_throw fun _ _ _ => trivial
  rw [if_neg hid]
  cases S.encode event with
  | none => exact yields_throw fun _ _ _ => trivial
  | some encoded =>
    refine lock_yields.seq (fun _ w₁ hinv₁ h => ?_) (fun _ _ _ _ _ _ => trivial) hinv
    obtain ⟨hheld, hown⟩ := h
    have hadd : Yields protocol i (fun added w' => Held i target w' ∧
        ∃ inserted, own i w' = .added i target event.id inserted added.isOk :: own i w) (fun _ _ => True)
        (act (.add target ⟨event.id, encoded⟩)) w₁ := by
      refine yields_op (fun _ _ => trivial) fun w₂ added w₃ w₄ hr _ hs hr₄ => ?_
      have hmarked : ∃ inserted, w₃.mutex = w₂.mutex ∧ w₃.pendingRemoval = w₂.pendingRemoval ∧
          w₃.trace = .added i target event.id inserted added.isOk :: w₂.trace := by
        obtain ⟨events, -, rfl⟩ | ⟨-, rfl⟩ := hs
        · exact ⟨true, rfl, rfl, rfl⟩
        · exact ⟨false, rfl, rfl, rfl⟩
      obtain ⟨inserted, hmutex, hremoval, htrace⟩ := hmarked
      have hheld₂ := hheld.rely hr
      have hheld₃ : Held i target w₃ := by
        refine ⟨by rw [hmutex, hheld₂.mutex], fun id => ?_⟩
        rw [hremoval, htrace, awaitsRemoval_cons rfl]
        exact hheld₂.agree id
      refine ⟨hheld₃.rely hr₄, inserted, ?_⟩
      rw [hr₄.own, ← hown, ← hr.own]
      unfold own
      rw [htrace, List.filter_cons]
      simp [Mark.isBy]
    refine hadd.seq (fun added w₂ hinv₂ h => ?_) (fun _ _ _ _ _ _ => trivial) hinv₁
    obtain ⟨hheld₂, inserted, hown₂⟩ := h
    refine (unlock_yields hheld₂).seq (fun _ w₃ _ h => ?_) (fun _ _ _ _ _ _ => trivial) hinv₂
    cases added with
    | error err => exact yields_throw fun _ _ _ => trivial
    | ok _ => exact yields_pure fun w' hr _ => ⟨inserted, hr.own.trans (h.trans hown₂)⟩

omit [DecidableEq ι] in
/-- The sources of a list that accept an event. -/
def accepting (event : S.Event) (running : List (S.Source × S.Target)) : List (S.Source × S.Target) :=
  running.filter (fun candidate => S.acceptEvent candidate.1 event)

def Mark.isAdded : Mark S ι → Bool
  | .added _ _ _ _ _ => true
  | _ => false

/-- What the first loop of a request leaves: marks of its recordings, one for each accepting source. -/
def Recorded (i : ι) (event : S.Event) (accepted : List (S.Source × S.Target)) (before after : List (Mark S ι)) : Prop :=
  ∃ newer, after = newer ++ before ∧ (∀ m ∈ newer, m.isAdded = true) ∧
    ∀ candidate ∈ accepted, ∃ inserted, .added i candidate.2 event.id inserted true ∈ newer

theorem recordEach_yields {event : S.Event} : ∀ (running : List (S.Source × S.Target)) {w : World S ι}, Inv w →
    Yields protocol i (fun accepted w' => accepted = accepting event running ∧
      Recorded i event accepted (own i w) (own i w')) (fun _ _ => True) (recordEach event running) w
  | [], w, _ => yields_pure fun w' hr _ => ⟨rfl, [], hr.own, by simp, by simp⟩
  | candidate :: rest, w, hinv => by
    unfold recordEach
    by_cases haccept : S.acceptEvent candidate.1 event = false
    · rw [if_pos haccept]
      refine (recordEach_yields rest hinv).mono (fun accepted w' h => ⟨?_, h.2⟩) (fun _ _ h => h)
      rw [h.1]
      simp [accepting, haccept]
    · rw [if_neg haccept]
      refine (prepareTrigger_yields hinv).seq (fun _ w₁ hinv₁ h => ?_) (fun _ _ _ _ _ _ => trivial) hinv
      obtain ⟨inserted, hown⟩ := h
      refine (recordEach_yields rest hinv₁).seq (fun accepted w₂ _ h => ?_) (fun _ _ _ _ _ _ => trivial) hinv₁
      obtain ⟨hacc, newer, hnewer, hmarks, hall⟩ := h
      refine yields_pure fun w' hr _ => ⟨?_, newer ++ [.added i candidate.2 event.id inserted true], ?_, ?_, ?_⟩
      · rw [hacc]
        simp [accepting, haccept]
      · rw [hr.own, hnewer, hown]
        simp
      · intro m hm
        obtain hm | hm := List.mem_append.1 hm
        · exact hmarks m hm
        · rw [List.mem_singleton.1 hm]
          rfl
      · intro c hc
        obtain rfl | hc := List.mem_cons.1 hc
        · exact ⟨inserted, List.mem_append_right _ List.mem_cons_self⟩
        · obtain ⟨inserted', hmem⟩ := hall c hc
          exact ⟨inserted', List.mem_append_left _ hmem⟩

theorem queueEach_yields {event : S.Event} : ∀ (recipients : List (S.Source × S.Target)) {w : World S ι}, Inv w →
    Yields protocol i (fun _ w' => own i w' =
      (recipients.map (fun recipient => .queued i recipient.1 event.id)).reverse ++ own i w) (fun _ _ => True)
      (queueEach event recipients) w
  | [], w, _ => yields_pure fun w' hr _ => hr.own
  | recipient :: rest, w, hinv => by
    have hsend : Yields protocol i (fun answer w' => answer = .queued →
        own i w' = .queued i recipient.1 event.id :: own i w) (fun _ _ => True) (act (.enqueue recipient.1 event)) w := by
      refine yields_op (fun _ _ => trivial) fun w₁ answer w₂ w₃ hr _ hs hr₃ => ?_
      rintro rfl
      obtain ⟨-, rfl⟩ := hs
      rw [hr₃.own, ← hr.own]
      show (Mark.queued i recipient.1 event.id :: w₁.trace).filter (Mark.isBy i) = _
      rw [List.filter_cons]
      simp [Mark.isBy, own]
    refine hsend.seq (fun answer w₁ hinv₁ h => ?_) (fun _ _ _ _ _ _ => trivial) hinv
    cases answer with
    | done => exact yields_throw fun _ _ _ => trivial
    | full => exact yields_throw fun _ _ _ => trivial
    | queued =>
      refine (queueEach_yields rest hinv₁).mono (fun _ w' hq => ?_) (fun _ _ h => h)
      rw [hq, h rfl]
      simp

/-- **What a request that is answered 200 leaves**: a snapshot of running sources, a mark of each recording, and one mark
for each accepting source that it put the event into the queue. -/
def Acknowledged (i : ι) (endpoint : S.Endpoint) (event : S.Event) (marks : List (Mark S ι)) : Prop :=
  ∃ running newer, running ≠ [] ∧ (running.map Prod.fst).Nodup ∧ (∀ m ∈ newer, m.isAdded = true) ∧
    (∀ candidate ∈ accepting event running, ∃ inserted, .added i candidate.2 event.id inserted true ∈ newer) ∧
    marks = ((accepting event running).map (fun recipient => .queued i recipient.1 event.id)).reverse ++
      (newer ++ [.snapshot i endpoint running])

theorem recordAndQueue_yields {endpoint : S.Endpoint} {event : S.Event} (hown : own i w = []) (hinv : Inv w) :
    Yields protocol i (fun _ w' => Acknowledged i endpoint event (own i w')) (fun _ _ => True)
      (recordAndQueue endpoint event) w := by
  have hsnapshot : Yields protocol i (fun running w' => (running.map Prod.fst).Nodup ∧
      own i w' = [.snapshot i endpoint running]) (fun _ _ => True) (act (.snapshot endpoint)) w := by
    refine yields_op (fun _ _ => trivial) fun w₁ running w₂ w₃ hr _ hs hr₃ => ?_
    obtain ⟨hs, rfl⟩ := hs
    refine ⟨hs.1, ?_⟩
    rw [hr₃.own]
    show (Mark.snapshot i endpoint running :: w₁.trace).filter (Mark.isBy i) = _
    rw [List.filter_cons]
    have hown₁ : w₁.trace.filter (Mark.isBy i) = [] := hr.own.trans hown
    simp [Mark.isBy, hown₁]
  refine hsnapshot.seq (fun running w₁ hinv₁ h => ?_) (fun _ _ _ _ _ _ => trivial) hinv
  obtain ⟨hnodup, hown₁⟩ := h
  by_cases hlen : running.length = 0
  · rw [if_pos hlen]
    exact yields_throw fun _ _ _ => trivial
  rw [if_neg hlen]
  refine (recordEach_yields running hinv₁).seq (fun accepted w₂ hinv₂ h => ?_) (fun _ _ _ _ _ _ => trivial) hinv₁
  obtain ⟨rfl, newer, hown₂, hmarks, hall⟩ := h
  refine (queueEach_yields _ hinv₂).mono (fun _ w' hq => ?_) (fun _ _ h => h)
  refine ⟨running, newer, fun h => hlen (by rw [h]; rfl), hnodup, hmarks, hall, ?_⟩
  rw [hq, hown₂, hown₁]

/-- The event of a request, when `DecodeEvent` reports it handled. -/
def handledEvent (endpoint : S.Endpoint) (incoming : Incoming S.Header) : Option S.Event :=
  match incoming.body with
  | .error _ => none
  | .ok body =>
    match S.decodeEvent endpoint (incoming.request (body.take (S.maxBodyBytes endpoint + 1))) with
    | .ok (event, true) => some event
    | _ => none

/-- What a request promises when it is answered 200. -/
def ServePost (i : ι) (endpoint : S.Endpoint) (event : S.Event) (status : Nat) (w : World S ι) : Prop :=
  status = 200 → Acknowledged i endpoint event (own i w)

omit [DecidableEq ι] in
theorem yields_status [DecidableEq ι] {endpoint : S.Endpoint} {event : S.Event} {status : Nat} (h : status ≠ 200) :
    Yields protocol i (ServePost i endpoint event) (fun _ _ => True) (pure status : M S Nat) w :=
  yields_pure fun _ _ _ heq => absurd heq h

theorem serveDecoded_yields {endpoint : S.Endpoint} {event : S.Event} (hown : own i w = []) (hinv : Inv w) :
    Yields protocol i (ServePost i endpoint event) (fun _ _ => True) (serveDecoded endpoint (.ok (event, true))) w := by
  refine (recordAndQueue_yields hown hinv).catch (fun result w₁ _ h => ?_) hinv
  cases result with
  | error err => exact yields_status (by decide)
  | ok _ => exact yields_pure fun w' hr _ _ => by rw [hr.own]; exact h

theorem serveRequest_yields {endpoint : S.Endpoint} {event : S.Event} {received : Request S.Header}
    (hdecoded : S.decodeEvent endpoint received = .ok (event, true)) (hown : own i w = []) (hinv : Inv w) :
    Yields protocol i (ServePost i endpoint event) (fun _ _ => True) (serveRequest endpoint received) w := by
  have hresolve : Yields protocol i (fun _ w' => own i w' = []) (fun _ _ => True)
      (act (.resolveCredentials endpoint received.body)) w := by
    refine yields_op (fun _ _ => trivial) fun w₁ _ w₂ w₃ hr _ hs hr₃ => ?_
    rw [show w₂ = w₁ from hs] at hr₃
    exact (hr₃.own.trans hr.own).trans hown
  refine hresolve.seq (fun resolved w₁ hinv₁ hown₁ => ?_) (fun _ _ _ _ _ _ => trivial) hinv
  cases resolved with
  | none => exact yields_status (by decide)
  | some credentials =>
    have hverify : Yields protocol i (fun _ w' => own i w' = []) (fun _ _ => True)
        (act (.verifyRequest endpoint received credentials)) w₁ := by
      refine yields_op (fun _ _ => trivial) fun w₂ _ w₃ w₄ hr _ hs hr₄ => ?_
      rw [show w₃ = w₂ from hs] at hr₄
      exact (hr₄.own.trans hr.own).trans hown₁
    refine hverify.seq (fun verified w₂ hinv₂ hown₂ => ?_) (fun _ _ _ _ _ _ => trivial) hinv₁
    cases verified with
    | error err => cases err <;> exact yields_status (by decide)
    | ok _ =>
      show Yields protocol i _ _ (serveDecoded endpoint (S.decodeEvent endpoint received)) w₂
      rw [hdecoded]
      exact serveDecoded_yields hown₂ hinv₂

theorem runs_recordEach {event : S.Event} {running : List (S.Source × S.Target)} (hinv : Inv w) :
    Runs i (recordEach event running) w := (recordEach_yields running hinv).mono (fun _ _ _ => trivial) (fun _ _ _ => trivial)

theorem runs_recordAndQueue {endpoint : S.Endpoint} {event : S.Event} (hinv : Inv w) :
    Runs i (recordAndQueue endpoint event) w := by
  refine Runs.seq (yields_any fun _ _ => trivial) (fun running w₁ hinv₁ => ?_) hinv
  by_cases hlen : running.length = 0
  · rw [if_pos hlen]
    exact runs_throw
  · rw [if_neg hlen]
    refine (runs_recordEach hinv₁).seq (fun accepted w₂ hinv₂ => ?_) hinv₁
    exact (queueEach_yields accepted hinv₂).mono (fun _ _ _ => trivial) (fun _ _ _ => trivial)

theorem runs_serveRequest {endpoint : S.Endpoint} {received : Request S.Header} (hinv : Inv w) :
    Runs i (serveRequest endpoint received) w := by
  refine Runs.seq (yields_any fun _ _ => trivial) (fun resolved w₁ hinv₁ => ?_) hinv
  cases resolved with
  | none => exact runs_pure
  | some credentials =>
    refine Runs.seq (yields_any fun _ _ => trivial) (fun verified w₂ hinv₂ => ?_) hinv₁
    cases verified with
    | error err => cases err <;> exact runs_pure
    | ok _ =>
      show Runs i (serveDecoded endpoint (S.decodeEvent endpoint received)) w₂
      cases S.decodeEvent endpoint received with
      | error _ => exact runs_pure
      | ok decoded =>
        obtain ⟨event, isHandled⟩ := decoded
        cases isHandled with
        | false => exact runs_pure
        | true =>
          refine (runs_recordAndQueue hinv₂).catch (fun result _ _ => ?_) hinv₂
          cases result <;> exact runs_pure

theorem serveHTTP_yields {endpoint : S.Endpoint} {incoming : Incoming S.Header} (hown : own i w = []) (hinv : Inv w) :
    Yields protocol i (fun status w' => ∀ event, handledEvent endpoint incoming = some event →
      ServePost i endpoint event status w') (fun _ _ => True) (serveHTTP endpoint incoming) w := by
  have hstatus : ∀ {status : Nat}, status ≠ 200 → Yields protocol i (fun status w' => ∀ event,
      handledEvent endpoint incoming = some event → ServePost i endpoint event status w') (fun _ _ => True)
      (pure status : M S Nat) w := fun h => yields_pure fun _ _ _ _ _ heq => absurd heq h
  unfold serveHTTP
  by_cases hmethod : incoming.method ≠ "POST"
  · rw [if_pos hmethod]
    exact hstatus (by decide)
  rw [if_neg hmethod]
  cases hbody : incoming.body with
  | error _ => exact hstatus (by decide)
  | ok body =>
    dsimp only
    by_cases hlarge : S.maxBodyBytes endpoint < (body.take (S.maxBodyBytes endpoint + 1)).length
    · rw [if_pos hlarge]
      exact hstatus (by decide)
    rw [if_neg hlarge]
    cases hevent : handledEvent endpoint incoming with
    | none => exact (runs_serveRequest hinv).mono (fun _ _ _ _ h => by cases h) (fun _ _ h => h)
    | some event =>
      have hdecoded : S.decodeEvent endpoint (incoming.request (body.take (S.maxBodyBytes endpoint + 1))) = .ok (event, true) := by
        unfold handledEvent at hevent
        rw [hbody] at hevent
        dsimp only at hevent
        split at hevent
        · rename_i heq
          cases hevent
          exact heq
        · cases hevent
      refine (serveRequest_yields hdecoded hown hinv).mono (fun status w' h event' heq => ?_) (fun _ _ h => h)
      cases heq
      exact h

/-! ## Every run -/

/-- What a call promises at its end. -/
def CallPost (i : ι) (call : Call S) (result : Except Err Nat) (w : World S ι) : Prop :=
  ∀ endpoint incoming event, call = .serve endpoint incoming → handledEvent endpoint incoming = some event →
    result = .ok 200 → Acknowledged i endpoint event (own i w)

theorem call_safe (call : Call S) (hown : own i w = []) (hinv : Inv w) :
    protocol.Safe i (CallPost i call) call.program w := by
  have hother : ∀ {m : M S Unit}, Runs i m w → (∀ endpoint incoming, call ≠ .serve endpoint incoming) →
      protocol.Safe i (CallPost i call) ((fun _ => 0) <$> m : M S Nat).run w := by
    intro m hm hne
    have hmap : Yields protocol i (fun _ _ => True) (fun _ _ => True) ((fun _ => 0) <$> m : M S Nat) w := by
      refine Yields.map ?_
      exact hm
    exact Protocol.Safe.mono (fun _ _ _ endpoint incoming _ heq => absurd heq (hne endpoint incoming)) hmap
  cases call with
  | serve endpoint incoming =>
    refine Protocol.Safe.mono (fun result w' h => ?_) (serveHTTP_yields hown hinv)
    intro endpoint' incoming' event heq hevent hresult
    cases heq
    subst hresult
    exact h event hevent rfl
  | run source target turns rounds => exact hother (runs_run hinv) fun _ _ h => by cases h
  | replay target turns => exact hother (runs_replayTriggerDeliveries hinv) fun _ _ h => by cases h

/-- **What a mark says of the state in which it was left.** -/
def Mark.Holds : Mark S ι → World S ι → Prop
  | .snapshot _ endpoint running, w => Snapshot w endpoint running
  | .added _ target eventID _ true, w => eventID ∈ ids (w.events target)
  | _, _ => True

omit [DecidableEq ι] in
theorem holds_mark {w : World S ι} {mark : Mark S ι} (h : mark.Holds w) : mark.Holds (w.mark mark) := by
  cases mark with
  | snapshot j endpoint running => exact h
  | added j target id inserted answered => cases answered <;> exact h
  | _ => trivial

omit [DecidableEq ι] in
/-- An operation leaves at most one mark, and what it says holds. -/
theorem step_marks {o : Op S} {w w' : World S ι} {a : Ans S o} (hs : step i o w a w') :
    w'.trace = w.trace ∨ ∃ mark, w'.trace = mark :: w.trace ∧ mark.Holds w' := by
  cases o with
  | resolveCredentials _ _ | verifyRequest _ _ _ | contextErr =>
    rw [show w' = w from hs]
    exact .inl rfl
  | snapshot endpoint =>
    obtain ⟨hsnapshot, rfl⟩ := hs
    exact .inr ⟨_, rfl, hsnapshot⟩
  | enqueue source event =>
    cases a with
    | queued =>
      obtain ⟨-, rfl⟩ := hs
      exact .inr ⟨_, rfl, trivial⟩
    | done =>
      rw [show w' = _ from hs]
      exact .inr ⟨_, rfl, trivial⟩
    | full =>
      obtain ⟨-, rfl⟩ := hs
      exact .inr ⟨_, rfl, trivial⟩
  | begin source =>
    obtain ⟨-, rfl⟩ := hs
    exact .inl rfl
  | activate _ _ | deactivate _ | finish _ | unlock _ | keepForRemoval _ _ _ | forgetRemoval _ _ =>
    rw [show w' = _ from hs]
    exact .inl rfl
  | receive source =>
    cases a with
    | none =>
      rw [show w' = w from hs]
      exact .inl rfl
    | some event =>
      obtain ⟨rest, -, rfl⟩ := hs
      exact .inr ⟨_, rfl, trivial⟩
  | lock target =>
    obtain ⟨-, rfl⟩ := hs
    exact .inl rfl
  | add target event =>
    obtain ⟨events, hw, rfl⟩ | ⟨hmem, rfl⟩ := hs
    · refine .inr ⟨_, rfl, holds_mark (w := w.withEvents target events) ?_⟩
      have hadded : event.id ∈ ids ((w.withEvents target events).events target) := by
        show event.id ∈ ids (if S.binding target = S.binding target then events else _)
        rw [if_pos rfl]
        exact (writes_add_mem hw).1
      cases a with
      | error _ => trivial
      | ok _ => exact hadded
    · refine .inr ⟨_, rfl, holds_mark ?_⟩
      cases a with
      | error _ => trivial
      | ok _ => exact hmem rfl
  | pending target =>
    obtain ⟨-, rfl⟩ := hs
    exact .inl rfl
  | remove target eventID =>
    obtain ⟨events, -, rfl⟩ | ⟨-, rfl⟩ := hs
    · exact .inr ⟨_, rfl, trivial⟩
    · exact .inr ⟨_, rfl, trivial⟩
  | lookup target eventID =>
    obtain ⟨-, rfl⟩ := hs
    exact .inl rfl
  | invoke target event source =>
    rw [show w' = _ from hs]
    exact .inr ⟨_, rfl, trivial⟩

abbrev Network (S : Setting) (ι : Type) := Config (Op S) (Ans S) (Except Err Nat) (World S ι) ι

omit [DecidableEq ι] in
/-- **A run passes through the state of each mark it leaves.** -/
theorem passed {c c' : Network S ι} (hrun : Config.Run step c c') {mark : Mark S ι} {older : List (Mark S ι)}
    (hlen : c.state.trace.length ≤ older.length) : ∀ {newer : List (Mark S ι)}, c'.state.trace = newer ++ mark :: older →
      ∃ c₁, Config.Run step c c₁ ∧ Config.Run step c₁ c' ∧ c₁.state.trace = mark :: older ∧ mark.Holds c₁.state := by
  induction hrun with
  | refl =>
    intro newer htrace
    have hl := congrArg List.length htrace
    simp only [List.length_append, List.length_cons] at hl
    omega
  | tail hrun hstep ih =>
    rename_i b c'
    intro newer htrace
    obtain ⟨i, o, k, a, -, hs, -, -⟩ := id hstep
    obtain hsame | ⟨m, hm, hholds⟩ := step_marks hs
    · rw [hsame] at htrace
      obtain ⟨c₁, h1, h2, h3⟩ := ih htrace
      exact ⟨c₁, h1, h2.tail hstep, h3⟩
    · rw [hm] at htrace
      cases newer with
      | nil =>
        simp only [List.nil_append, List.cons.injEq] at htrace
        obtain ⟨rfl, htrace⟩ := htrace
        exact ⟨c', hrun.tail hstep, .refl, htrace ▸ hm, hholds⟩
      | cons n newer =>
        simp only [List.cons_append, List.cons.injEq] at htrace
        obtain ⟨c₁, h1, h2, h3⟩ := ih htrace.2
        exact ⟨c₁, h1, h2.tail hstep, h3⟩

omit [DecidableEq ι] in
theorem inv_init (inbox : S.Binding → List PendingTriggerEvent) : Inv (World.init inbox : World S ι) := by
  refine ⟨fun _ _ h => (by cases h), fun _ _ _ => rfl, fun newer _ _ _ _ _ h => ?_⟩
  have hl := congrArg List.length h
  simp [World.init] at hl

theorem start_safe (calls : ι → Call S) (inbox : S.Binding → List PendingTriggerEvent) (i : ι) :
    protocol.Safe i (CallPost i (calls i)) ((start calls inbox).threads i) (start calls inbox).state :=
  call_safe (calls i) rfl (inv_init inbox)

/-- Each accepting source is queued to once, the sources being different. -/
theorem count_queued {event : S.Event} {source : S.Source} {target : S.Target} {running : List (S.Source × S.Target)}
    (hnodup : (running.map Prod.fst).Nodup) (hmem : (source, target) ∈ running)
    (haccept : S.acceptEvent source event = true) :
    ((accepting event running).map (fun recipient => (.queued i recipient.1 event.id : Mark S ι))).count
      (.queued i source event.id) = 1 := by
  have hmap : (accepting event running).map (fun recipient => (.queued i recipient.1 event.id : Mark S ι)) =
      ((accepting event running).map Prod.fst).map (fun s => .queued i s event.id) := by
    rw [List.map_map]
    rfl
  have hinj : Function.Injective (fun s : S.Source => (.queued i s event.id : Mark S ι)) := by
    intro s s' h
    cases h
    rfl
  have hsub : ((accepting event running).map Prod.fst).Nodup := hnodup.sublist (List.filter_sublist.map Prod.fst)
  have hin : source ∈ (accepting event running).map Prod.fst :=
    List.mem_map_of_mem (f := Prod.fst) (List.mem_filter.2 ⟨hmem, haccept⟩)
  rw [hmap]
  apply List.count_eq_one_of_mem (hsub.map hinj)
  exact List.mem_map_of_mem hin

omit [DecidableEq ι] in
theorem count_isAdded [DecidableEq ι] {newer : List (Mark S ι)} (h : ∀ m ∈ newer, m.isAdded = true) {source : S.Source}
    {eventID : Bytes} : newer.count (.queued i source eventID) = 0 := by
  rw [List.count_eq_zero]
  intro hmem
  cases h _ hmem

/-- What a run keeps of every inbox, whatever its calls ensure. -/
theorem kept_of_run {Q : ι → Except Err Nat → World S ι → Prop} {c c' : Network S ι} (hrun : Config.Run step c c')
    (hinv : Inv c.state) (hsafe : ∀ i, protocol.Safe i (Q i) (c.threads i) c.state) : Kept c.state c'.state := by
  have hrel := Protocol.run_rel (P := protocol) (Q := Q) (E := fun s s' => s.trace <:+ s'.trace ∧ Kept s s')
    (fun s => ⟨List.suffix_rfl, fun _ _ h => .inl h⟩) (fun s s' s'' h h' => ?_) (fun _ _ _ h => ⟨h.trace, h.kept⟩)
    hrun hinv hsafe
  · exact hrel.2
  · refine ⟨h.1.trans h'.1, fun b id hid => ?_⟩
    obtain hmem | hc := h.2 b id hid
    · exact h'.2 b id hmem
    · exact .inr (hc.grow h'.1)

/-- **Acknowledged webhook events are kept.**  In every state that any run reaches: a handled request that was answered 200
passed through a state with the running sources of its endpoint, at least one; for each of these that accepts the event,
the run went on through a state in which the binding's inbox held the id, and the request put the event into that source's
queue exactly once.  An id leaves an inbox only after the binding's target returned nil or undeliverable for it.  And no
target is invoked for an id after its removal of the id failed, before a removal of it succeeds. -/
theorem acknowledged_events_kept {calls : ι → Call S} {inbox : S.Binding → List PendingTriggerEvent} {c : Network S ι}
    (hrun : Config.Run step (start calls inbox) c) :
    (∀ i endpoint incoming event, calls i = .serve endpoint incoming → handledEvent endpoint incoming = some event →
      c.threads i = .ret (.ok 200) → ∃ c₁ running, Config.Run step (start calls inbox) c₁ ∧ Config.Run step c₁ c ∧
        c₁.state.trace.head? = some (.snapshot i endpoint running) ∧ Snapshot c₁.state endpoint running ∧ running ≠ [] ∧
        ∀ source target, (source, target) ∈ running → S.acceptEvent source event = true →
          (∃ c₂, Config.Run step c₁ c₂ ∧ Config.Run step c₂ c ∧ event.id ∈ ids (c₂.state.events target)) ∧
          c.state.trace.count (.queued i source event.id) = 1) ∧
    (∀ c', Config.Run step c c' → ∀ b id, id ∈ ids (c.state.inbox b) → id ∉ ids (c'.state.inbox b) →
      Consumed b id c'.state.trace) ∧
    (∀ newer target source id outcome older, c.state.trace = newer ++ .invoked target source id outcome :: older →
      awaitsRemoval target id older = false) := by
  have hsafe := Protocol.safe_run (P := protocol) (Q := fun j => CallPost j (calls j)) hrun (inv_init inbox)
    (start_safe calls inbox)
  refine ⟨?_, fun c' hrun' b id hid hnot => ?_, hsafe.1.quiet⟩
  · intro i endpoint incoming event hcall hevent hret
    have hack := Protocol.post_of_run (P := protocol) (Q := fun j => CallPost j (calls j)) hrun (inv_init inbox)
      (start_safe calls inbox) hret endpoint incoming event hcall hevent rfl
    obtain ⟨running, newer, hne, hnodup, hadded, hall, hown⟩ := hack
    -- the trace around the snapshot, and around a recording
    have hown' := hown
    rw [← List.append_assoc] at hown'
    obtain ⟨later, rest, htrace, hlater, hrest⟩ := List.filter_eq_append_iff.1 hown'
    obtain ⟨between, older, rfl, hbetween, -, holder⟩ := List.filter_eq_cons_iff.1 hrest
    rw [← List.append_assoc] at htrace
    obtain ⟨c₁, hrun₁, hrun₁', htrace₁, hholds⟩ := passed hrun (Nat.zero_le _) htrace
    refine ⟨c₁, running, hrun₁, hrun₁', by rw [htrace₁]; rfl, hholds, hne, fun source target hmem haccept => ⟨?_, ?_⟩⟩
    · obtain ⟨inserted, hmark⟩ := hall (source, target) (List.mem_filter.2 ⟨hmem, haccept⟩)
      have hin : .added i target event.id inserted true ∈ later := by
        have hfilter : .added i target event.id inserted true ∈ later.filter (Mark.isBy i) := by
          rw [hlater]
          exact List.mem_append_right _ hmark
        exact (List.mem_filter.1 hfilter).1
      obtain ⟨newer', older', rfl⟩ := List.append_of_mem hin
      have htrace' : c.state.trace = newer' ++ .added i target event.id inserted true ::
          (older' ++ between ++ .snapshot i endpoint running :: older) := by
        rw [htrace]
        simp
      have hlen : c₁.state.trace.length ≤ (older' ++ between ++ Mark.snapshot i endpoint running :: older).length := by
        rw [htrace₁]
        simp only [List.length_append, List.length_cons]
        omega
      obtain ⟨c₂, hrun₂, hrun₂', -, hheld⟩ := passed hrun₁' hlen htrace'
      exact ⟨c₂, hrun₂, hrun₂', hheld⟩
    · have hcount : c.state.trace.count (.queued i source event.id) = (own i c.state).count (.queued i source event.id) := by
        unfold own
        exact (List.count_filter (by simp [Mark.isBy])).symm
      rw [hcount, hown, List.count_append, List.count_append, List.count_reverse, count_queued hnodup hmem haccept,
        count_isAdded hadded, List.count_singleton]
      simp
  · obtain h | h := kept_of_run hrun' hsafe.1 hsafe.2 b id hid
    · exact absurd h hnot
    · exact h

/-! ## One request -/

/-- One endpoint with one source and its target; a request's body is its event id. -/
def sampleSetting : Setting where
  Endpoint := Unit
  Source := Unit
  Target := Unit
  Binding := Unit
  Header := Unit
  Credentials := Unit
  Payload := Unit
  endpoint := fun _ => ()
  acceptEvent := fun _ _ => true
  sourceQueueCapacity := fun _ => 64
  maxBodyBytes := fun _ => 1024
  decodeEvent := fun _ request => .ok (⟨request.body, ()⟩, true)
  binding := fun _ => ()
  encode := fun _ => some (ascii "1")
  decode := fun _ => none

def sampleIncoming (id : Bytes) : Incoming sampleSetting.Header := ⟨"POST", (), .ok id, 0⟩

theorem sample_serveHTTP {id : Bytes} (h : id.length ≤ 1024) :
    serveHTTP (S := sampleSetting) () (sampleIncoming id) = serveRequest (S := sampleSetting) () ⟨(), id, 0⟩ := by
  have htake : id.take 1025 = id := List.take_of_length_le (by omega)
  have hmax : sampleSetting.maxBodyBytes () = 1024 := rfl
  have hsmall : ¬ sampleSetting.maxBodyBytes () < (id.take (sampleSetting.maxBodyBytes () + 1)).length := by
    rw [hmax, htake]
    omega
  unfold serveHTTP
  rw [if_neg (by simp [sampleIncoming])]
  dsimp only [sampleIncoming]
  rw [if_neg hsmall, hmax, htake]
  rfl

def sampleID (j : Bool) : Bytes := if j then ascii "b" else ascii "a"

def sampleEvent (j : Bool) : PendingTriggerEvent := ⟨sampleID j, ascii "1"⟩

/-- A source and two requests. -/
def sampleCalls : Option Bool → Call sampleSetting
  | none => .run () () 1 2
  | some j => .serve () (sampleIncoming (sampleID j))

theorem sample_program (j : Bool) :
    (sampleCalls (some j)).program = (serveRequest (S := sampleSetting) () ⟨(), sampleID j, 0⟩).run := by
  cases j <;> exact congrArg ExceptT.run (sample_serveHTTP (by decide))

abbrev SampleWorld := World sampleSetting (Option Bool)

def sampleStart : Network sampleSetting (Option Bool) := start sampleCalls (fun _ => [])

/-- The world in which the source runs. -/
def sampleWorld : SampleWorld :=
  ⟨fun _ => [], fun _ => some (), fun _ => true, fun _ => [], fun _ => none, fun _ _ => none, []⟩

theorem sample_activates : ∃ q, Prog.Performed (step none) 2 (sampleCalls none).program sampleStart.state q sampleWorld :=
  ⟨_, false, _, ⟨rfl, rfl⟩, (), _, rfl, rfl, rfl⟩

/-- A request up to its recording, and what is left of it. -/
theorem sample_records (j : Bool) {w : SampleWorld} (hrunning : w.running = fun _ => some ())
    (hmutex : w.mutex () = none) {events : List PendingTriggerEvent} (hw : Writes (w.inbox ()) (.add (sampleEvent j)) events) :
    ∃ q w', Prog.Performed (step (some j)) 6 (sampleCalls (some j)).program w q w' ∧
      w'.trace = .added (some j) () (sampleID j) true true :: .snapshot (some j) () [((), ())] :: w.trace ∧
      w'.inbox () = events ∧ w'.running = w.running ∧ w'.mutex () = none ∧ w'.deliveries = w.deliveries ∧
      w'.pendingRemoval = w.pendingRemoval ∧
      ∀ w₁, (w₁.deliveries ()).length < 64 → Prog.Exec (step (some j)) q w₁ (.ok 200)
        ((w₁.withDeliveries () (w₁.deliveries () ++ [⟨sampleID j, ()⟩])).mark (.queued (some j) () (sampleID j))) := by
  have hsnapshot : Snapshot w () [((), ())] := by
    refine ⟨by decide, fun source target => ?_⟩
    rw [hrunning]
    exact iff_of_true List.mem_cons_self ⟨rfl, rfl⟩
  rw [sample_program]
  cases j
  all_goals
    refine ⟨_, _, ⟨some (), _, rfl, .ok (), _, rfl, [((), ())], _, ⟨hsnapshot, rfl⟩, (), _, ⟨hmutex, rfl⟩, .ok (), _,
      .inl ⟨events, hw, rfl⟩, (), _, rfl, rfl, rfl⟩, rfl, rfl, rfl, rfl, rfl, rfl, fun w₁ hcap => ?_⟩
    exact ⟨.queued, _, ⟨hcap, rfl⟩, rfl, rfl⟩


theorem sample_writes (j : Bool) : Writes [] (.add (sampleEvent j)) [sampleEvent j] := by
  cases j <;> exact ⟨by decide, by decide, by decide, by decide, by decide⟩

/-- One request, answered 200. -/
theorem sample_acknowledged : ∃ c, Config.Run step sampleStart c ∧ c.threads (some true) = .ret (.ok 200) := by
  obtain ⟨q₀, h₀⟩ := sample_activates
  obtain ⟨q₁, w₁, h₁, -, -, -, -, hdeliveries, -, hend⟩ := sample_records true (w := sampleWorld) rfl rfl (sample_writes true)
  have hrun₀ := Config.run_performed step none 2 (c := sampleStart) h₀
  have hrun₁ := Config.run_performed step (some true) 6
    (c := ⟨sampleWorld, fun j => if j = none then q₀ else sampleStart.threads j⟩) h₁
  have hrun₂ := Config.run_alone step (some true)
    (c := ⟨w₁, fun j => if j = some true then q₁ else if j = none then q₀ else sampleStart.threads j⟩)
    (hend w₁ (by rw [hdeliveries]; decide))
  exact ⟨_, (hrun₀.trans hrun₁).trans hrun₂, rfl⟩

theorem acknowledged_events_kept_sample : ∃ c₁ c₂ : Network sampleSetting (Option Bool), Config.Run step c₁ c₂ ∧
    ascii "b" ∈ ids (c₂.state.inbox ()) := by
  obtain ⟨c, hrun, hret⟩ := sample_acknowledged
  obtain ⟨c₁, running, -, -, -, hsnapshot, hne, hall⟩ := (acknowledged_events_kept hrun).1 (some true) ()
    (sampleIncoming (sampleID true)) ⟨ascii "b", ()⟩ rfl rfl hret
  obtain ⟨⟨⟨⟩, ⟨⟩⟩, hmem⟩ := List.exists_mem_of_ne_nil running hne
  obtain ⟨⟨c₂, hrun₂, -, hid⟩, -⟩ := hall () () hmem rfl
  exact ⟨c₁, c₂, hrun₂, hid⟩

end Webhook
end Dex
