import Mathlib.Data.List.Nodup
import DexConnectors.InboxModel
/-!
# InboxSafety — what the trigger inbox keeps

The history of the head is a log of changes (`Legal`): each version is the document before it with one event appended or
one taken out, because a write is computed from a document that was read and expects the tag of that read.  So the
document is the replay of the log (`eventsAt_replay`), its ids are pairwise different, and an event stays until a removal
of its id.  A call that returns without an error found, or wrote, a document with its effect while it ran
(`ensures_update`); an unknown write outcome is settled by finding its contents in the head.
-/
namespace Dex
namespace Inbox

open Lib Lib.Store Lib.Utf8

variable {ι κ : Type}

/-! ## The log -/

/-- The events listed when the head has this history. -/
def eventsAt : List (Version Text (Writer ι)) → List PendingTriggerEvent
  | [] => []
  | v :: _ =>
    match v.contents.value with
    | .document document => document.events
    | .other => []

def ids (events : List PendingTriggerEvent) : List Bytes := events.map PendingTriggerEvent.id

/-- An event as the document keeps it. -/
def stored (event : PendingTriggerEvent) : PendingTriggerEvent := event.marshal.getD event

/-- **One applied write.** -/
def Writes (old : List PendingTriggerEvent) : Change → List PendingTriggerEvent → Prop
  | .createHead, new => old = [] ∧ new = []
  | .add event, new => event.id ∉ ids old ∧ old.length < maxPendingTriggerEvents ∧ (stored event).id = event.id ∧
    (stored event).marshal = some (stored event) ∧ new = old ++ [stored event]
  | .remove eventID, new => eventID ∈ ids old ∧ new = old.filter (fun e => e.id != eventID)

/-- **A history of the head.** -/
def Legal : List (Version Text (Writer ι)) → Prop
  | [] => True
  | v :: rest => v.contents = ⟨.document ⟨triggerInboxSchema, eventsAt (v :: rest)⟩, 0⟩ ∧
    Writes (eventsAt rest) v.writer.change (eventsAt (v :: rest)) ∧ Legal rest

theorem Legal.suffix {l l' : List (Version Text (Writer ι))} (h : Legal l) (hs : l' <:+ l) : Legal l' := by
  obtain ⟨newer, rfl⟩ := hs
  induction newer with
  | nil => exact h
  | cons v newer ih => exact ih h.2.2

/-- **The applied writes replayed**, each event with the number of the write that inserted it. -/
def replay : List (Version Text (Writer ι)) → List (PendingTriggerEvent × Nat)
  | [] => []
  | v :: rest =>
    match v.writer.change with
    | .createHead => []
    | .add event => replay rest ++ [(stored event, rest.length)]
    | .remove eventID => (replay rest).filter (fun e => e.1.id != eventID)

theorem eventsAt_replay : ∀ {l : List (Version Text (Writer ι))}, Legal l → (replay l).map Prod.fst = eventsAt l
  | [], _ => rfl
  | v :: rest, ⟨_, hw, hrest⟩ => by
    have ih := eventsAt_replay hrest
    simp only [replay]
    cases hc : v.writer.change with
    | createHead =>
      rw [hc] at hw
      rw [hw.2]
      rfl
    | add event =>
      rw [hc] at hw
      rw [hw.2.2.2.2, ← ih, List.map_append]
      rfl
    | remove eventID =>
      rw [hc] at hw
      rw [hw.2, ← ih, List.filter_map]
      rfl

theorem replay_ordered : ∀ (l : List (Version Text (Writer ι))),
    (replay l).Pairwise (fun a b => a.2 < b.2) ∧ ∀ e ∈ replay l, e.2 < l.length
  | [] => ⟨List.Pairwise.nil, fun _ h => by cases h⟩
  | v :: rest => by
    obtain ⟨hpair, hlt⟩ := replay_ordered rest
    simp only [replay]
    cases v.writer.change with
    | createHead => exact ⟨List.Pairwise.nil, fun _ h => by cases h⟩
    | add event =>
      refine ⟨List.pairwise_append.2 ⟨hpair, List.pairwise_singleton _ _, ?_⟩, ?_⟩
      · intro a ha b hb
        rw [List.mem_singleton.1 hb]
        exact hlt a ha
      · intro e he
        rcases List.mem_append.1 he with he | he
        · exact Nat.lt_succ_of_lt (hlt e he)
        · rw [List.mem_singleton.1 he]
          exact Nat.lt_succ_self _
    | remove eventID =>
      exact ⟨hpair.filter _, fun e he => Nat.lt_succ_of_lt (hlt e (List.mem_filter.1 he).1)⟩

theorem ids_filter (events : List PendingTriggerEvent) (eventID : Bytes) :
    ids (events.filter (fun e => e.id != eventID)) = (ids events).filter (fun id => id != eventID) := by
  unfold ids
  rw [List.filter_map]
  rfl

/-- **At most the bound, and no id twice.** -/
theorem Legal.bounded : ∀ {l : List (Version Text (Writer ι))}, Legal l →
    (eventsAt l).length ≤ maxPendingTriggerEvents ∧ (ids (eventsAt l)).Nodup
  | [], _ => ⟨Nat.zero_le _, List.nodup_nil⟩
  | v :: rest, ⟨_, hw, hrest⟩ => by
    obtain ⟨hlen, hnodup⟩ := hrest.bounded
    cases hc : v.writer.change with
    | createHead =>
      rw [hc] at hw
      rw [hw.2]
      exact ⟨Nat.zero_le _, List.nodup_nil⟩
    | add event =>
      rw [hc] at hw
      obtain ⟨hnew, hroom, hid, -, heq⟩ := hw
      rw [heq]
      refine ⟨by rw [List.length_append, List.length_singleton]; omega, ?_⟩
      unfold ids at hnew hnodup ⊢
      rw [List.map_append, List.map_singleton, hid, List.nodup_append]
      refine ⟨hnodup, List.nodup_singleton _, ?_⟩
      intro a ha b hb
      rw [List.mem_singleton.1 hb]
      rintro rfl
      exact hnew ha
    | remove eventID =>
      rw [hc] at hw
      rw [hw.2, ids_filter]
      exact ⟨Nat.le_trans (List.length_filter_le _ _) hlen, hnodup.filter _⟩

/-- Every listed event is written back as it is. -/
theorem Legal.canonical : ∀ {l : List (Version Text (Writer ι))}, Legal l → ∀ e ∈ eventsAt l, e.marshal = some e
  | [], _, _, he => by cases he
  | v :: rest, ⟨_, hw, hrest⟩, e, he => by
    have ih := hrest.canonical
    cases hc : v.writer.change with
    | createHead =>
      rw [hc] at hw
      rw [hw.2] at he
      cases he
    | add event =>
      rw [hc] at hw
      rw [hw.2.2.2.2] at he
      rcases List.mem_append.1 he with he | he
      · exact ih e he
      · rw [List.mem_singleton.1 he]
        exact hw.2.2.2.1
    | remove eventID =>
      rw [hc] at hw
      rw [hw.2] at he
      exact ih e (List.mem_filter.1 he).1

/-- **An id stays listed until a removal of it is applied.** -/
theorem Legal.listed {eventID : Bytes} {older : List (Version Text (Writer ι))} (h : eventID ∈ ids (eventsAt older)) :
    ∀ {newer : List (Version Text (Writer ι))}, Legal (newer ++ older) →
      (∀ v ∈ newer, v.writer.change ≠ .remove eventID) → eventID ∈ ids (eventsAt (newer ++ older))
  | [], _, _ => h
  | v :: newer, hlegal, hnone => by
    obtain ⟨-, hw, hrest⟩ := (show Legal (v :: (newer ++ older)) from hlegal)
    have ih := Legal.listed h hrest (fun u hu => hnone u (List.mem_cons_of_mem _ hu))
    show eventID ∈ ids (eventsAt (v :: (newer ++ older)))
    cases hc : v.writer.change with
    | createHead =>
      rw [hc] at hw
      rw [hw.1] at ih
      cases ih
    | add event =>
      rw [hc] at hw
      rw [hw.2.2.2.2]
      unfold ids at ih ⊢
      rw [List.map_append]
      exact List.mem_append_left _ ih
    | remove other =>
      rw [hc] at hw
      rw [hw.2, ids_filter]
      refine List.mem_filter.2 ⟨ih, ?_⟩
      have hne : v.writer.change ≠ .remove eventID := hnone v List.mem_cons_self
      rw [hc] at hne
      simp only [bne_iff_ne, ne_eq]
      rintro rfl
      exact hne rfl

/-! ## Changes -/

theorem marshalEvents_append : ∀ {events : List PendingTriggerEvent}, (∀ e ∈ events, e.marshal = some e) →
    ∀ more, marshalEvents (events ++ more) = (marshalEvents more).map (events ++ ·)
  | [], _, more => by cases h : marshalEvents more <;> simp [h]
  | e :: events, h, more => by
    have ih := marshalEvents_append (fun u hu => h u (List.mem_cons_of_mem _ hu)) more
    simp only [List.cons_append, marshalEvents, h e List.mem_cons_self, ih]
    cases marshalEvents more <;> rfl

theorem marshal_canonical {events : List PendingTriggerEvent} (h : ∀ e ∈ events, e.marshal = some e) :
    marshal events = some ⟨.document ⟨triggerInboxSchema, events⟩, 0⟩ := by
  have := marshalEvents_append h []
  rw [List.append_nil] at this
  unfold marshal
  rw [this]
  simp [marshalEvents]

theorem marshal_marshal {event written : PendingTriggerEvent} (h : event.marshal = some written) :
    written.marshal = some written ∧ written.id = repair event.id := by
  unfold PendingTriggerEvent.marshal at h
  have hnull : Json.compact maxNestingDepth (ascii "null") = some (ascii "null") := by
    have hparse : Json.parse maxNestingDepth (ascii "null") = some [.literal (ascii "null")] := by
      unfold Json.parse
      have : Json.lex (ascii "null") = some [.literal (ascii "null")] := by decide
      rw [this]
      rfl
    unfold Json.compact
    rw [hparse]
    rfl
  have hsome : ∀ {id compacted : Bytes}, Json.compact maxNestingDepth compacted = some compacted → compacted ≠ [] →
      (⟨repair id, compacted⟩ : PendingTriggerEvent).marshal = some ⟨repair id, compacted⟩ := by
    intro id compacted hc hne
    unfold PendingTriggerEvent.marshal
    rw [if_neg hne, hc, Option.map_some, repair_repair]
  split at h
  · cases h
    exact ⟨hsome hnull (by decide), rfl⟩
  · rename_i hne
    obtain ⟨compacted, hc, rfl⟩ := Option.map_eq_some_iff.1 h
    refine ⟨hsome (Json.compact_compact hc) ?_, rfl⟩
    rintro rfl
    have := Json.compact_compact hc
    cases this

/-- What `Add` writes. -/
theorem writes_add {event : PendingTriggerEvent} {old new : List PendingTriggerEvent} {contents : Text}
    (hvalid : isValid event.id = true) (hold : ∀ e ∈ old, e.marshal = some e) (h : added event old = .ok new)
    (hne : equalPendingEvents new old = false) (hm : marshal new = some contents) :
    ∃ written, contents = ⟨.document ⟨triggerInboxSchema, written⟩, 0⟩ ∧ Writes old (.add event) written ∧
      event.id ∈ ids written := by
  unfold added at h
  split at h
  · cases h
    simp [equalPendingEvents] at hne
  rename_i hany
  split at h
  · cases h
  rename_i hroom
  cases h
  unfold marshal at hm
  rw [marshalEvents_append hold] at hm
  cases he : event.marshal with
  | none =>
    simp only [marshalEvents, he, Option.map_none] at hm
    cases hm
  | some written =>
    simp only [marshalEvents, he, Option.map_some, Option.some.injEq] at hm
    have hstored : stored event = written := by unfold stored; rw [he]; rfl
    obtain ⟨hcanon, hid⟩ := marshal_marshal he
    rw [(repair_eq_iff _).2 hvalid] at hid
    refine ⟨old ++ [written], hm.symm, ⟨?_, by omega, ?_, ?_, ?_⟩, ?_⟩
    · intro hmem
      obtain ⟨e, he, heq⟩ := List.mem_map.1 hmem
      exact hany (List.any_eq_true.2 ⟨e, he, by simpa using heq⟩)
    · rw [hstored, hid]
    · rw [hstored, hcanon]
    · rw [hstored]
    · unfold ids
      rw [List.map_append]
      exact List.mem_append_right _ (by simp [hid])

theorem found_add {event : PendingTriggerEvent} {old new : List PendingTriggerEvent} (h : added event old = .ok new)
    (heq : equalPendingEvents new old = true) : event.id ∈ ids old := by
  unfold added at h
  split at h
  · rename_i hany
    obtain ⟨e, he, hid⟩ := List.any_eq_true.1 hany
    exact List.mem_map.2 ⟨e, he, by simpa using hid⟩
  split at h
  · cases h
  · cases h
    have := congrArg List.length (eq_of_beq heq)
    simp at this

/-- With different ids, taking out the first event with an id leaves the others. -/
theorem eraseP_eq_filter (eventID : Bytes) : ∀ {events : List PendingTriggerEvent}, (ids events).Nodup →
    events.eraseP (fun e => e.id == eventID) = events.filter (fun e => e.id != eventID)
  | [], _ => rfl
  | e :: events, h => by
    obtain ⟨hnew, hrest⟩ := List.nodup_cons.1 h
    by_cases he : e.id = eventID
    · subst he
      rw [List.eraseP_cons_of_pos (by simp), List.filter_cons_of_neg (by simp)]
      refine (List.filter_eq_self.2 (fun u hu => ?_)).symm
      simp only [bne_iff_ne, ne_eq]
      exact fun heq => hnew (List.mem_map.2 ⟨u, hu, heq⟩)
    · rw [List.eraseP_cons_of_neg (by simpa using he), List.filter_cons_of_pos (by simpa using he),
        eraseP_eq_filter eventID hrest]

theorem not_mem_filter (events : List PendingTriggerEvent) (eventID : Bytes) :
    eventID ∉ ids (events.filter (fun e => e.id != eventID)) := by
  rw [ids_filter]
  intro h
  simpa using (List.mem_filter.1 h).2

/-- What `Remove` writes. -/
theorem writes_remove {eventID : Bytes} {old new : List PendingTriggerEvent} {contents : Text}
    (hnodup : (ids old).Nodup) (hold : ∀ e ∈ old, e.marshal = some e) (h : removed eventID old = .ok new)
    (hne : equalPendingEvents new old = false) (hm : marshal new = some contents) :
    ∃ written, contents = ⟨.document ⟨triggerInboxSchema, written⟩, 0⟩ ∧ Writes old (.remove eventID) written ∧
      eventID ∉ ids written := by
  unfold removed at h
  cases h
  have hfilter := eraseP_eq_filter eventID hnodup
  rw [hfilter] at hne hm
  rw [marshal_canonical (fun e he => hold e (List.mem_filter.1 he).1)] at hm
  refine ⟨_, (Option.some.inj hm).symm, ⟨?_, rfl⟩, not_mem_filter old eventID⟩
  by_contra hmem
  have hsame : old.filter (fun e => e.id != eventID) = old := by
    refine List.filter_eq_self.2 (fun e he => ?_)
    simp only [bne_iff_ne, ne_eq]
    exact fun heq => hmem (List.mem_map.2 ⟨e, he, heq⟩)
  rw [hsame] at hne
  simp [equalPendingEvents] at hne

theorem found_remove {eventID : Bytes} {old new : List PendingTriggerEvent} (hnodup : (ids old).Nodup)
    (h : removed eventID old = .ok new) (heq : equalPendingEvents new old = true) : eventID ∉ ids old := by
  unfold removed at h
  cases h
  rw [eraseP_eq_filter eventID hnodup] at heq
  have : ids (old.filter (fun e => e.id != eventID)) = ids old := eq_of_beq heq
  rw [← this]
  exact not_mem_filter old eventID

/-! ## The invariant -/

variable (key : String)

structure Inv (w : World ι κ) : Prop where
  wf    : Wf w.objects
  legal : Legal (w.objects key)

variable {key}

/-- What a call must know before an operation. -/
def Pre (key : String) : Op → World ι κ → Prop
  | .create k contents change, _ => k = key ∧
    ∃ written, contents = ⟨.document ⟨triggerInboxSchema, written⟩, 0⟩ ∧ Writes [] change written
  | .swap k etag contents change, w => k = key ∧ ∃ u ∈ w.objects key, u.etag = etag ∧
    ∃ written, contents = ⟨.document ⟨triggerInboxSchema, written⟩, 0⟩ ∧ Writes (eventsAt [u]) change written
  | _, _ => True

theorem eventsAt_cons {u v : Version Text (Writer ι)} (rest : List (Version Text (Writer ι))) (h : u.contents = v.contents) :
    eventsAt (u :: rest) = eventsAt [v] := by
  simp only [eventsAt, h]

/-- **A version added to the head** keeps the invariant. -/
theorem inv_put {w : World ι κ} {v : Version Text (Writer ι)} {written : List PendingTriggerEvent} (hinv : Inv key w)
    (hfresh : Fresh w.objects key v) (hc : v.contents = ⟨.document ⟨triggerInboxSchema, written⟩, 0⟩)
    (hw : Writes (eventsAt (w.objects key)) v.writer.change written) :
    Inv key { w with objects := put w.objects key v } := by
  refine ⟨hinv.wf.put hfresh, ?_⟩
  have hevents : eventsAt (v :: w.objects key) = written := by simp only [eventsAt, hc]
  show Legal (put w.objects key v key)
  rw [put_same]
  exact ⟨by rw [hevents, hc], by rw [hevents]; exact hw, hinv.legal⟩

/-! ## Moments -/

section

variable {w w' : World ι κ} {past l : List (Version Text (Writer ι))}

/-- **The head had this history at a moment** since its history was `past`. -/
def Moment (key : String) (past l : List (Version Text (Writer ι))) (w : World ι κ) : Prop :=
  past <:+ l ∧ l <:+ w.objects key

theorem Moment.grows (h : Moment key past l w) (hg : Grows w.objects w'.objects) : Moment key past l w' :=
  ⟨h.1, h.2.trans (hg key)⟩

/-- The document was listed by the head at a moment, and the tag is that of the head then. -/
def Found (key : String) (past : List (Version Text (Writer ι))) (found : Document × String) (w : World ι κ) : Prop :=
  ∃ l, Moment key past l w ∧ found.1.events = eventsAt l ∧
    ((found.2 = "" ∧ l = []) ∨ found.2 ≠ "" ∧ ∃ u rest, l = u :: rest ∧ u.etag = found.2)

theorem Found.grows {found : Document × String} (h : Found key past found w) (hg : Grows w.objects w'.objects) :
    Found key past found w' := by
  obtain ⟨l, hl, hrest⟩ := h
  exact ⟨l, hl.grows hg, hrest⟩

/-- The head had these contents at a moment. -/
def Held (key : String) (past : List (Version Text (Writer ι))) (contents : Text) (w : World ι κ) : Prop :=
  ∃ l v rest, Moment key past l w ∧ l = v :: rest ∧ v.contents = contents

theorem Held.grows {contents : Text} (h : Held key past contents w) (hg : Grows w.objects w'.objects) :
    Held key past contents w' := by
  obtain ⟨l, v, rest, hl, hrest⟩ := h
  exact ⟨l, v, rest, hl.grows hg, hrest⟩

/-- The head listed events with the property at a moment. -/
def Effected (key : String) (past : List (Version Text (Writer ι))) (E : List PendingTriggerEvent → Prop) (w : World ι κ) :
    Prop :=
  ∃ l, Moment key past l w ∧ E (eventsAt l)

theorem Held.effected {contents : Text} {written : List PendingTriggerEvent} {E : List PendingTriggerEvent → Prop}
    (h : Held key past contents w) (hc : contents = ⟨.document ⟨triggerInboxSchema, written⟩, 0⟩) (hE : E written) :
    Effected key past E w := by
  obtain ⟨l, v, rest, hl, rfl, hv⟩ := h
  refine ⟨v :: rest, hl, ?_⟩
  have : eventsAt (v :: rest) = written := by simp only [eventsAt, hv, hc]
  rw [this]
  exact hE

end

/-! ## Operations -/

variable [DecidableEq κ] (inbox : ι → κ)

def protocol (key : String) : Protocol Op (Ans (Writer ι)) (World ι κ) ι where
  step := step inbox
  inv := Inv key
  guar := fun _ w w' => Grows w.objects w'.objects
  rely := fun _ w w' => Grows w.objects w'.objects
  rely_refl := fun _ w => Grows.refl w.objects
  rely_trans := fun _ {_ _ _} h h' => Grows.trans h h'
  guar_rely := fun _ _ {_ _} _ h => h

variable {inbox}

/-- **What every operation keeps.** -/
theorem step_safe {i : ι} {o : Op} {w w' : World ι κ} {a : Ans (Writer ι) o} (hs : step inbox i o w a w')
    (hinv : Inv key w) (hpre : Pre key o w) : Inv key w' ∧ Grows w.objects w'.objects := by
  cases o with
  | read k version =>
    obtain ⟨-, rfl⟩ := hs
    exact ⟨hinv, Grows.refl _⟩
  | loadHeadExists =>
    obtain ⟨-, rfl⟩ := hs
    exact ⟨hinv, Grows.refl _⟩
  | storeHeadExists =>
    rw [show w' = _ from hs]
    exact ⟨⟨hinv.wf, hinv.legal⟩, Grows.refl _⟩
  | create k contents change =>
    obtain ⟨s, hcreate, rfl⟩ := hs
    obtain ⟨rfl, written, hc, hwrites⟩ := hpre
    rcases creates_cases hcreate with ⟨rfl, -⟩ | ⟨v, hempty, hfresh, hvc, hvw, rfl, -⟩
    · exact ⟨hinv, Grows.refl _⟩
    · refine ⟨inv_put hinv hfresh (hvc.trans hc) ?_, grows_put _ _ v⟩
      rw [hempty, hvw]
      exact hwrites
  | swap k etag contents change =>
    obtain ⟨s, hswap, rfl⟩ := hs
    obtain ⟨rfl, u, hu, rfl, written, hc, hwrites⟩ := hpre
    rcases swaps_cases hswap hinv.wf hu with ⟨rfl, -⟩ | ⟨v, rest, current, hcur, hcc, hfresh, hvc, hvw, rfl, -⟩
    · exact ⟨hinv, Grows.refl _⟩
    · refine ⟨inv_put hinv hfresh (hvc.trans hc) ?_, grows_put _ _ v⟩
      rw [hcur, eventsAt_cons rest hcc, hvw]
      exact hwrites

/-! ## Methods -/

open Method

section

variable {i : ι} {w : World ι κ} {past : List (Version Text (Writer ι))}

theorem ensures_op {o : Op} {Q : Ans (Writer ι) o → World ι κ → Prop}
    (hpre : ∀ w' : World ι κ, Grows w.objects w'.objects → Inv key w' → Pre key o w')
    (hpost : ∀ (w₁ : World ι κ) a (w₂ w₃ : World ι κ), Grows w.objects w₁.objects → Inv key w₁ → step inbox i o w₁ a w₂ →
      Grows w₂.objects w₃.objects → Q a w₃) :
    Ensures (protocol inbox key) i Q (act o) w := by
  refine Method.ensures_act (fun w₁ a w₂ hr hi hs => ?_) (fun w₁ a w₂ w₃ hr hi hs hr' _ => hpost w₁ a w₂ w₃ hr hi hs hr')
  obtain ⟨h1, h2⟩ := step_safe hs hi (hpre w₁ hr hi)
  exact ⟨h1, h2, h2⟩

theorem ensures_headCreated (answer : WriteAnswer Text (Writer ι)) :
    Ensures (protocol inbox key) i (fun _ _ => True) (headCreated answer) w := by
  have hstore : Ensures (protocol inbox key) i (fun _ _ => True) (act .storeHeadExists) w :=
    ensures_op (fun _ _ _ => trivial) (fun _ _ _ _ _ _ _ _ => trivial)
  cases answer with
  | applied v => exact hstore
  | conflict => exact hstore
  | unknown => exact Method.ensures_pure (fun _ _ _ => trivial)
  | failed => exact Method.ensures_throw

theorem ensures_createHead (hinv : Inv key w) :
    Ensures (protocol inbox key) i (fun _ _ => True) (createHead key) w := by
  have hload : Ensures (protocol inbox key) i (fun _ _ => True) (act .loadHeadExists) w :=
    ensures_op (fun _ _ _ => trivial) (fun _ _ _ _ _ _ _ _ => trivial)
  refine hload.seq (fun (headExists : Bool) w₁ _ hi₁ _ => ?_) hinv
  cases headExists with
  | true => exact Method.ensures_pure (fun _ _ _ => trivial)
  | false =>
    have hwrite : Ensures (protocol inbox key) i (fun _ _ => True)
        (act (.create key ⟨.document ⟨triggerInboxSchema, []⟩, 0⟩ .createHead)) w₁ :=
      ensures_op (fun _ _ _ => ⟨rfl, [], rfl, rfl, rfl⟩) (fun _ _ _ _ _ _ _ _ => trivial)
    exact hwrite.seq (fun answer _ _ _ _ => ensures_headCreated answer) hi₁

/-- A read answers the head of a moment. -/
theorem ensures_readHead (hpast : past <:+ w.objects key) :
    Ensures (protocol inbox key) i (fun (answer : ReadAnswer Text (Writer ι)) w' => ∃ l, Moment key past l w' ∧
      (answer = .absent → l = []) ∧ ∀ v, answer = .found v → l.head? = some v) (act (.read key "")) w := by
  refine ensures_op (fun _ _ _ => trivial) ?_
  rintro w₁ answer w₂ w₃ hg - ⟨hread, rfl⟩ hg'
  refine ⟨w₂.objects key, ⟨hpast.trans (hg key), hg' key⟩, ?_, ?_⟩
  · rintro rfl
    have hnone : (w₂.objects key).head? = none := hread
    exact List.head?_eq_none_iff.1 hnone
  · rintro v rfl
    exact hread

theorem checkDocument_ok {answer : ReadAnswer Text (Writer ι)} {found : Document × String}
    (h : checkDocument answer = .ok found) :
    (answer = .absent ∧ found.1.events = [] ∧ found.2 = "") ∨
    ∃ v, answer = .found v ∧ v.contents.value = .document found.1 ∧ v.etag = found.2 ∧ found.2 ≠ "" := by
  cases answer with
  | absent =>
    cases h
    exact .inl ⟨rfl, rfl, rfl⟩
  | failed => cases h
  | found v =>
    refine .inr ⟨v, rfl, ?_⟩
    simp only [checkDocument] at h
    split at h
    · rename_i document hdoc
      split at h
      · cases h
      · rename_i hgood
        cases h
        refine ⟨?_, rfl, fun he => hgood (.inr he)⟩
        unfold strictJSON at hdoc
        split at hdoc
        · rename_i hv
          rw [hv]
          split at hdoc
          · cases hdoc; rfl
          · cases hdoc
        · cases hdoc
    · cases h

theorem ensures_read (hinv : Inv key w) (hpast : past <:+ w.objects key) :
    Ensures (protocol inbox key) i (Found key past) (read key) w := by
  refine (ensures_createHead hinv).seq (fun _ w₁ hg₁ hi₁ _ => ?_) hinv
  refine (ensures_readHead (hpast.trans (hg₁ key))).seq (fun answer w₂ _ hi₂ hanswer => ?_) hi₁
  refine Method.ensures_orRaise (fun found w₃ hfound hg₃ _ => ?_)
  obtain ⟨l, hl, habsent, hhead⟩ := hanswer
  rcases checkDocument_ok hfound with ⟨ha, hevents, htag⟩ | ⟨v, ha, hvalue, htag, hne⟩
  · have hnil := habsent ha
    refine ⟨l, hl.grows hg₃, ?_, .inl ⟨htag, hnil⟩⟩
    rw [hevents, hnil]
    rfl
  · obtain ⟨rest, rfl⟩ : ∃ rest, l = v :: rest := by
      have := hhead v ha
      cases l with
      | nil => cases this
      | cons u rest => cases this; exact ⟨rest, rfl⟩
    refine ⟨v :: rest, hl.grows hg₃, ?_, .inr ⟨hne, v, rest, rfl, htag⟩⟩
    simp only [eventsAt, hvalue]

/-- A conditional write that reports success has put its contents on the head. -/
theorem ensures_write {found : Document × String} {change : Change} {written : List PendingTriggerEvent} {contents : Text}
    (hpast : past <:+ w.objects key) (hc : contents = ⟨.document ⟨triggerInboxSchema, written⟩, 0⟩)
    (hwrites : Writes found.1.events change written) (hfound : Found key past found w) :
    Ensures (protocol inbox key) i (fun (answer : WriteAnswer Text (Writer ι)) w' => ∀ v, answer = .applied v →
      Held key past contents w') (write key found.2 contents change) w := by
  obtain ⟨l, hl, hevents, htag⟩ := hfound
  rw [hevents] at hwrites
  have hput : ∀ {w₁ w₃ : World ι κ} {u v : Version Text (Writer ι)}, Grows w.objects w₁.objects → u.contents = contents →
      Grows (put w₁.objects key u) w₃.objects → Held key past contents w₃ := by
    intro w₁ w₃ u v hg hu hg'
    have hsuffix := hg' key
    rw [put_same] at hsuffix
    exact ⟨u :: w₁.objects key, u, _, ⟨(hpast.trans (hg key)).trans (List.suffix_cons _ _), hsuffix⟩, rfl, hu⟩
  unfold write
  rcases htag with ⟨htag, rfl⟩ | ⟨hne, u, rest, rfl, htag⟩
  · rw [if_pos htag]
    refine ensures_op (fun _ _ _ => ⟨rfl, written, hc, hwrites⟩) ?_
    rintro w₁ answer w₂ w₃ hg - ⟨s, hcreate, rfl⟩ hg' v rfl
    rcases hcreate with ⟨-, u, -, hu, -, rfl, -⟩ | ⟨-, ha⟩
    · exact hput (v := v) hg hu hg'
    · rcases ha with ha | ha | ha <;> cases ha
  · rw [if_neg hne]
    refine ensures_op (fun w' hg _ => ⟨rfl, u, (hg key).subset (hl.2.subset List.mem_cons_self), htag, written, hc, ?_⟩) ?_
    · rw [← eventsAt_cons (u := u) rest rfl]
      exact hwrites
    · rintro w₁ answer w₂ w₃ hg - ⟨s, hswap, rfl⟩ hg' v rfl
      rcases hswap with ⟨-, u, -, hu, -, rfl, -⟩ | ⟨-, ha⟩
      · exact hput (v := v) hg hu hg'
      · rcases ha with ha | ha | ha <;> cases ha

/-- **What a change must do**: it leaves a document with its effect alone, and writes one with its effect. -/
structure Sound (apply : List PendingTriggerEvent → Except Err (List PendingTriggerEvent)) (change : Change)
    (E : List PendingTriggerEvent → Prop) : Prop where
  found  : ∀ old new, (ids old).Nodup → apply old = .ok new → equalPendingEvents new old = true → E old
  writes : ∀ old new contents, (ids old).Nodup → (∀ e ∈ old, e.marshal = some e) → apply old = .ok new →
    equalPendingEvents new old = false → marshal new = some contents →
    ∃ written, contents = ⟨.document ⟨triggerInboxSchema, written⟩, 0⟩ ∧ Writes old change written ∧ E written

theorem sound_added {event : PendingTriggerEvent} (h : isValid event.id = true) :
    Sound (added event) (.add event) (fun events => event.id ∈ ids events) :=
  ⟨fun _ _ _ => found_add, fun _ _ _ _ hold => writes_add h hold⟩

theorem sound_removed (eventID : Bytes) :
    Sound (removed eventID) (.remove eventID) (fun events => eventID ∉ ids events) :=
  ⟨fun _ _ => found_remove, fun _ _ _ => writes_remove⟩

variable {apply : List PendingTriggerEvent → Except Err (List PendingTriggerEvent)} {change : Change}
  {E : List PendingTriggerEvent → Prop}

theorem ensures_settle {contents : Text} {written : List PendingTriggerEvent} {retry : M (Writer ι) Unit}
    {answer : WriteAnswer Text (Writer ι)} (hinv : Inv key w) (hpast : past <:+ w.objects key)
    (hc : contents = ⟨.document ⟨triggerInboxSchema, written⟩, 0⟩) (hE : E written)
    (hanswer : ∀ v, answer = .applied v → Held key past contents w)
    (hretry : ∀ w' : World ι κ, Grows w.objects w'.objects → Inv key w' →
      Ensures (protocol inbox key) i (fun _ w' => Effected key past E w') retry w') :
    Ensures (protocol inbox key) i (fun _ w' => Effected key past E w') (settle key contents retry answer) w := by
  cases answer with
  | applied v => exact Method.ensures_pure (fun w' hg _ => ((hanswer v rfl).grows hg).effected hc hE)
  | conflict => exact hretry w (Grows.refl _) hinv
  | failed => exact Method.ensures_throw
  | unknown =>
    refine (ensures_readHead hpast).seq (fun observed w₁ hg₁ hi₁ hread => ?_) hinv
    obtain ⟨l, hl, -, hhead⟩ := hread
    cases observed with
    | absent => exact hretry w₁ hg₁ hi₁
    | failed => exact hretry w₁ hg₁ hi₁
    | found object =>
      show Ensures (protocol inbox key) i _ (if object.contents = contents then _ else _) w₁
      split
      · rename_i heq
        refine Method.ensures_pure (fun w' hg _ => Held.effected ?_ hc hE)
        have hobject := hhead object rfl
        cases l with
        | nil => cases hobject
        | cons u rest =>
          cases hobject
          exact ⟨object :: rest, object, rest, hl.grows hg, rfl, heq⟩
      · exact hretry w₁ hg₁ hi₁

theorem ensures_attemptWith {retry : M (Writer ι) Unit} {found : Document × String} (hsound : Sound apply change E)
    (hinv : Inv key w) (hpast : past <:+ w.objects key) (hfound : Found key past found w)
    (hretry : ∀ w' : World ι κ, Grows w.objects w'.objects → Inv key w' →
      Ensures (protocol inbox key) i (fun _ w' => Effected key past E w') retry w') :
    Ensures (protocol inbox key) i (fun _ w' => Effected key past E w') (attemptWith key apply change retry found) w := by
  obtain ⟨l, hl, hevents, -⟩ := id hfound
  have hlegal := hinv.legal.suffix hl.2
  have hnodup : (ids found.1.events).Nodup := by rw [hevents]; exact hlegal.bounded.2
  have hcanon : ∀ e ∈ found.1.events, e.marshal = some e := by rw [hevents]; exact hlegal.canonical
  unfold attemptWith
  split
  · exact Method.ensures_throw
  · rename_i events happly
    split
    · rename_i heq
      refine Method.ensures_pure (fun w' hg _ => ⟨l, hl.grows hg, ?_⟩)
      rw [← hevents]
      exact hsound.found _ _ hnodup happly heq
    · rename_i hne
      rw [Bool.not_eq_true] at hne
      split
      · exact Method.ensures_throw
      · rename_i contents hmarshal
        split
        · exact Method.ensures_throw
        · obtain ⟨written, hc, hwrites, hE⟩ := hsound.writes _ _ _ hnodup hcanon happly hne hmarshal
          refine (ensures_write hpast hc hwrites hfound).seq (fun answer w₁ hg₁ hi₁ hanswer => ?_) hinv
          exact ensures_settle hi₁ (hpast.trans (hg₁ key)) hc hE hanswer (fun w' hg hi => hretry w' (hg₁.trans hg) hi)

/-- **An update that returns `nil` has had its effect.** -/
theorem ensures_update (hsound : Sound apply change E) : ∀ (attempts : Nat) {w : World ι κ}, Inv key w →
    past <:+ w.objects key →
    Ensures (protocol inbox key) i (fun _ w' => Effected key past E w') (update key apply change attempts) w
  | 0, _, _, _ => Method.ensures_throw
  | attempts + 1, w, hinv, hpast => by
    refine (ensures_read hinv hpast).seq (fun found w₁ hg₁ hi₁ hfound => ?_) hinv
    exact ensures_attemptWith hsound hi₁ (hpast.trans (hg₁ key)) hfound
      (fun w' hg hi => ensures_update hsound attempts hi (hpast.trans ((hg₁.trans hg) key)))

/-! ## Calls -/

/-- The ids a call names are valid UTF-8. -/
def Call.isValid : Call → Bool
  | .add event => Utf8.isValid event.id
  | .remove eventID => Utf8.isValid eventID
  | .pending => true

/-- What a call that returns `result` without an error has found or made of the pending events. -/
def Call.Effect : Call → List PendingTriggerEvent → List PendingTriggerEvent → Prop
  | .add event, _, events => event.id ∈ ids events
  | .remove eventID, _, events => eventID ∉ ids events
  | .pending, result, events => result = events

/-- **Every call is safe**, and has its effect when it returns without an error. -/
theorem safe_call {call : Call} (hvalid : call.isValid = true) (hinv : Inv key w) (hpast : past <:+ w.objects key) :
    (protocol inbox key).Safe i (fun r w' => ∀ result, r = .ok result → Effected key past (call.Effect result) w')
      (call.program key) w := by
  cases call with
  | add event =>
    have hadd : Ensures (protocol inbox key) i (fun _ w' => Effected key past (fun events => event.id ∈ ids events) w')
        (add key event) w := by
      unfold add
      split
      · exact Method.ensures_throw
      · exact ensures_update (sound_added hvalid) _ hinv hpast
    exact (Ensures.map (f := fun _ => []) hadd).safe (fun r w' _ hr => hr)
  | remove eventID =>
    have hremove : Ensures (protocol inbox key) i (fun _ w' => Effected key past (fun events => eventID ∉ ids events) w')
        (remove key eventID) w := ensures_update (sound_removed eventID) _ hinv hpast
    exact (Ensures.map (f := fun _ => []) hremove).safe (fun r w' _ hr => hr)
  | pending =>
    have hread : Ensures (protocol inbox key) i (fun result w' => Effected key past (Call.pending.Effect result) w')
        (pending key) w := by
      refine (ensures_read hinv hpast).seq (fun found w₁ _ hi₁ hfound => ?_) hinv
      refine Method.ensures_pure (fun w' hg _ => ?_)
      obtain ⟨l, hl, hevents, -⟩ := hfound
      exact ⟨l, hl.grows hg, hevents⟩
    exact hread.safe (fun r w' _ hr => hr)

end

/-! ## Every run -/

/-- **Where a run starts**: no head, and every call about to be made. -/
structure Start (key : String) (c : Config Op (Ans (Writer ι)) (Except Err (List PendingTriggerEvent)) (World ι κ) ι) :
    Prop where
  wf    : Wf c.state.objects
  head  : c.state.objects key = []
  calls : ∀ i, ∃ call : Call, c.threads i = call.program key ∧ call.isValid = true

variable {c c₀ c' : Config Op (Ans (Writer ι)) (Except Err (List PendingTriggerEvent)) (World ι κ) ι}

omit [DecidableEq κ] in
theorem Start.inv (h : Start key c) : Inv key c.state := ⟨h.wf, by rw [h.head]; trivial⟩

theorem Start.safe (h : Start key c) (i : ι) :
    (protocol inbox key).Safe i (fun _ _ => True) (c.threads i) c.state := by
  obtain ⟨call, hcall, hvalid⟩ := h.calls i
  rw [hcall]
  exact (safe_call hvalid h.inv List.suffix_rfl).mono (fun _ _ _ => trivial)

/-- An `Add` that finds its id pending returns without a write. -/
theorem attemptWith_added {T : Type} {event : PendingTriggerEvent} {found : Document × String} (retry : M T Unit)
    (h : event.id ∈ ids found.1.events) : attemptWith key (added event) (.add event) retry found = pure () := by
  obtain ⟨e, he, hid⟩ := List.mem_map.1 h
  have hany : found.1.events.any (fun pending => pending.id == event.id) = true :=
    List.any_eq_true.2 ⟨e, he, by simpa using hid⟩
  unfold attemptWith
  simp only [added, hany, if_true]
  rw [if_pos (by simp [equalPendingEvents])]

/-- **Trigger inbox safety.**  In every state that any interleaving of calls reaches, with any answers of the store and
any calls stopped: whenever the head existed it listed the replay of the writes applied so far, in the order of the writes
that inserted them, within the bound and with no id twice; each write appended an event whose id was not pending, or took
out the one event it names and left the others; a call that returned without an error found or made a document with its
effect while it ran, and an id that an `Add` was answered for stays listed until a `Remove` of it is applied; an `Add` that
finds its id pending writes nothing. -/
theorem inbox_safe (hstart : Start key c) (hrun₀ : Config.Run (step inbox) c c₀) (hrun : Config.Run (step inbox) c₀ c') :
    (∀ l, l <:+ c'.state.objects key → (eventsAt l).length ≤ maxPendingTriggerEvents ∧ (ids (eventsAt l)).Nodup ∧
      eventsAt l = (replay l).map Prod.fst ∧ (replay l).Pairwise (fun a b => a.2 < b.2)) ∧
    (∀ v rest, v :: rest <:+ c'.state.objects key →
      v.contents = ⟨.document ⟨triggerInboxSchema, eventsAt (v :: rest)⟩, 0⟩ ∧
      (∀ event, v.writer.change = .add event → event.id ∉ ids (eventsAt rest) ∧
        eventsAt (v :: rest) = eventsAt rest ++ [stored event]) ∧
      (∀ eventID, v.writer.change = .remove eventID → eventID ∈ ids (eventsAt rest) ∧
        eventsAt (v :: rest) = (eventsAt rest).filter (fun e => e.id != eventID))) ∧
    (∀ i (call : Call), c₀.threads i = call.program key → call.isValid = true → ∀ result, c'.threads i = .ret (.ok result) →
      ∃ l, c₀.state.objects key <:+ l ∧ l <:+ c'.state.objects key ∧ call.Effect result (eventsAt l)) ∧
    (∀ eventID newer l, newer ++ l <:+ c'.state.objects key → eventID ∈ ids (eventsAt l) →
      (∀ v ∈ newer, v.writer.change ≠ .remove eventID) → eventID ∈ ids (eventsAt (newer ++ l))) ∧
    (∀ event found (retry : M (Writer ι) Unit), event.id ∈ ids found.1.events →
      attemptWith key (added event) (.add event) retry found = pure ()) := by
  have hsafe₀ := Protocol.safe_run (P := protocol inbox key) (Q := fun _ _ _ => True) hrun₀ hstart.inv hstart.safe
  have hinv := (Protocol.safe_run hrun hsafe₀.1 hsafe₀.2).1
  refine ⟨?_, ?_, ?_, ?_, ?_⟩
  · intro l hl
    have hlegal := hinv.legal.suffix hl
    exact ⟨hlegal.bounded.1, hlegal.bounded.2, (eventsAt_replay hlegal).symm, (replay_ordered l).1⟩
  · intro v rest hs
    obtain ⟨hc, hw, -⟩ := hinv.legal.suffix hs
    refine ⟨hc, fun event he => ?_, fun eventID he => ?_⟩
    · rw [he] at hw
      exact ⟨hw.1, hw.2.2.2.2⟩
    · rw [he] at hw
      exact hw
  · intro i call hcall hvalid result hret
    have hi : (protocol inbox key).Safe i
        (fun r w' => ∀ result, r = .ok result → Effected key (c₀.state.objects key) (call.Effect result) w')
        (c₀.threads i) c₀.state := by
      rw [hcall]
      exact safe_call hvalid hsafe₀.1 List.suffix_rfl
    obtain ⟨l, hl, hE⟩ := Protocol.post_from hrun hsafe₀.1 hsafe₀.2 hi hret result rfl
    exact ⟨l, hl.1, hl.2, hE⟩
  · intro eventID newer l hs hlisted hnone
    exact Legal.listed hlisted (hinv.legal.suffix hs) hnone
  · intro event found retry h
    exact attemptWith_added retry h

def sampleEvent : PendingTriggerEvent := ⟨ascii "evt-1", ascii "1"⟩

def sampleVersion (id : String) (change : Change) (events : List PendingTriggerEvent) : Version Text (Writer Unit) :=
  ⟨id, id, ⟨.document ⟨triggerInboxSchema, events⟩, 0⟩, ⟨(), change⟩⟩

/-- No objects, and one call about to add an event. -/
def sampleStart : Config Op (Ans (Writer Unit)) (Except Err (List PendingTriggerEvent)) (World Unit Unit) Unit :=
  ⟨⟨fun _ => [], fun _ => false⟩, fun _ => (Call.add sampleEvent).program "inbox/head"⟩

theorem sampleStart_start : Start "inbox/head" sampleStart :=
  ⟨wf_empty, rfl, fun _ => ⟨.add sampleEvent, rfl, by decide⟩⟩

theorem sample_adds : ∃ w' : World Unit Unit,
    Returns (step id ()) (add "inbox/head" sampleEvent) sampleStart.state () w' ∧
    w'.objects "inbox/head" = [sampleVersion "v2" (.add sampleEvent) [sampleEvent], sampleVersion "v1" .createHead []] := by
  let empty : Objects Text (Writer Unit) := fun _ => []
  let first : Objects Text (Writer Unit) := put empty "inbox/head" (sampleVersion "v1" .createHead [])
  have hfresh1 : Fresh empty "inbox/head" (sampleVersion "v1" .createHead []) :=
    ⟨by decide, by decide, fun _ h => (by cases h), fun _ h => (by cases h)⟩
  have hfresh2 : Fresh first "inbox/head" (sampleVersion "v2" (.add sampleEvent) [sampleEvent]) := by
    have hmem : ∀ u ∈ first "inbox/head", u = sampleVersion "v1" .createHead [] := fun u hu => List.mem_singleton.1 hu
    refine ⟨by decide, by decide, fun u hu => ?_, fun u hu h => ?_⟩
    · rw [hmem u hu]
      decide
    · rw [hmem u hu] at h
      exact absurd h (by decide)
  have hhead : Returns (step id ()) (createHead "inbox/head") sampleStart.state () ⟨first, fun _ => true⟩ := by
    refine returns_bind.2 ⟨false, sampleStart.state, returns_act.2 ⟨rfl, rfl⟩, ?_⟩
    refine returns_bind.2 ⟨.applied (sampleVersion "v1" .createHead []), ⟨first, fun _ => false⟩, returns_act.2 ?_, ?_⟩
    · exact ⟨first, .inl ⟨rfl, _, hfresh1, rfl, rfl, rfl, .inl rfl⟩, rfl⟩
    · exact returns_act.2 (congrArg (World.mk first) (funext fun _ => rfl))
  have hread : Returns (step id ()) (read "inbox/head") sampleStart.state (⟨triggerInboxSchema, []⟩, "v1")
      ⟨first, fun _ => true⟩ :=
    returns_bind.2 ⟨(), _, hhead, returns_bind.2 ⟨.found (sampleVersion "v1" .createHead []), _,
      returns_act.2 ⟨rfl, rfl⟩, returns_orRaise.2 ⟨rfl, rfl⟩⟩⟩
  have hmarshal : marshal [sampleEvent] = some ⟨.document ⟨triggerInboxSchema, [sampleEvent]⟩, 0⟩ := by decide
  have hsize : ¬ maxTriggerInboxBytes < marshaledSize [sampleEvent] := by decide
  have hwrite : Returns (step id ())
      (attemptWith "inbox/head" (added sampleEvent) (.add sampleEvent) (update "inbox/head" (added sampleEvent) (.add sampleEvent) 7)
        (⟨triggerInboxSchema, []⟩, "v1")) ⟨first, fun _ => true⟩ ()
      ⟨put first "inbox/head" (sampleVersion "v2" (.add sampleEvent) [sampleEvent]), fun _ => true⟩ := by
    have happly : added sampleEvent [] = .ok [sampleEvent] := rfl
    have hne : equalPendingEvents [sampleEvent] [] = false := rfl
    unfold attemptWith
    simp only [happly, hne, hmarshal, if_neg hsize]
    refine returns_bind.2 ⟨.applied (sampleVersion "v2" (.add sampleEvent) [sampleEvent]), _, returns_act.2 ?_,
      returns_pure.2 ⟨rfl, rfl⟩⟩
    exact ⟨_, .inl ⟨⟨_, rfl, rfl⟩, _, hfresh2, rfl, rfl, rfl, .inl rfl⟩, rfl⟩
  refine ⟨⟨put first "inbox/head" (sampleVersion "v2" (.add sampleEvent) [sampleEvent]), fun _ => true⟩, ?_, rfl⟩
  have hvalid : ¬ (trimSpace sampleEvent.id = [] ∨ Json.parse maxNestingDepth sampleEvent.event = none) := by decide
  unfold add
  rw [if_neg hvalid]
  exact returns_bind.2 ⟨_, _, hread, hwrite⟩

/-- One call adds an event to an inbox that does not exist. -/
theorem inbox_safe_added : ∃ w' : World Unit Unit,
    Config.Run (step id) sampleStart ⟨w', fun _ => .ret (.ok [])⟩ ∧ eventsAt (w'.objects "inbox/head") = [sampleEvent] ∧
    (ids (eventsAt (w'.objects "inbox/head"))).Nodup := by
  obtain ⟨w', hadd, hobjects⟩ := sample_adds
  have hcall : Prog.Exec (step id ()) ((Call.add sampleEvent).program "inbox/head") sampleStart.state (.ok []) w' :=
    (Prog.exec_bind (step id ()) _ _ _ _ _).2 ⟨.ok (), w', hadd, rfl, rfl⟩
  have hrun : Config.Run (step id) sampleStart ⟨w', fun _ => .ret (.ok [])⟩ :=
    Config.run_alone (step id) () (c := sampleStart) hcall
  refine ⟨w', hrun, by rw [hobjects]; rfl, ?_⟩
  exact ((inbox_safe sampleStart_start .refl hrun).1 _ List.suffix_rfl).2.1

end Inbox
end Dex
