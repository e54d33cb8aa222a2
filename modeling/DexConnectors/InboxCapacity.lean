import DexConnectors.InboxSafety
/-!
# InboxCapacity — a trigger inbox over S3 (`sdkgo/projectconfig/trigger_inbox.go`, `s3.go`)

`S3ObjectStore.writeObject` refuses a body over `maximumObjectBytes` before it asks S3, and the caller sees an error like any
other.  The inbox holds its documents to `maxTriggerInboxBytes`, which is twice as much.
-/
namespace Dex
namespace Inbox

open Lib Lib.Store Lib.Utf8

def maximumObjectBytes : Nat := 4 * 2 ^ 20

/-- The length of a body that `update` writes.  Only the new event may have an id that is not UTF-8, which `json.Marshal`
escapes; it is repaired in the document. -/
def Text.size (contents : Text) (change : Change) : Nat :=
  match contents.value, change with
  | .document document, .add event => marshaledSize (document.events.dropLast ++ [event])
  | .document document, _ => marshaledSize document.events
  | .other, _ => 0

section

variable {ι κ : Type} [DecidableEq κ] (inbox : ι → κ)

/-- `step`, with the bound of `writeObject`. -/
def s3Step (i : ι) : (o : Op) → World ι κ → Ans (Writer ι) o → World ι κ → Prop
  | .create key contents change, w, a, w' =>
    if maximumObjectBytes < contents.size change then a = .failed ∧ w' = w else step inbox i (.create key contents change) w a w'
  | .swap key etag contents change, w, a, w' =>
    if maximumObjectBytes < contents.size change then a = .failed ∧ w' = w
    else step inbox i (.swap key etag contents change) w a w'
  | o, w, a, w' => step inbox i o w a w'

/-- An answer of a store that does not fail: a conflict is a conflict. -/
def Quiet : (o : Op) → World ι κ → Ans (Writer ι) o → Prop
  | .read _ _, _, a => a ≠ .failed
  | .create key contents change, w, a =>
    contents.size change ≤ maximumObjectBytes → (∃ v, a = .applied v) ∨ a = .conflict ∧ w.objects key ≠ []
  | .swap key etag contents change, w, a =>
    contents.size change ≤ maximumObjectBytes →
      (∃ v, a = .applied v) ∨ a = .conflict ∧ ¬ ∃ v, (w.objects key).head? = some v ∧ v.etag = etag
  | .loadHeadExists, _, _ => True
  | .storeHeadExists, _, _ => True

def quietStep (i : ι) (o : Op) (w : World ι κ) (a : Ans (Writer ι) o) (w' : World ι κ) : Prop :=
  s3Step inbox i o w a w' ∧ Quiet o w a

end

/-! ## What stands in the way of an event -/

/-- `Add` takes the event, and `read` the document. -/
def Admissible (old : List PendingTriggerEvent) (event : PendingTriggerEvent) : Prop :=
  ¬ (trimSpace event.id = [] ∨ Json.parse maxNestingDepth event.event = none) ∧
    (strictJSON ⟨.document ⟨triggerInboxSchema, old⟩, 0⟩).isSome

/-- Too many events, or too many bytes for the inbox or for the store. -/
def DoesNotFit (old : List PendingTriggerEvent) (event : PendingTriggerEvent) : Prop :=
  event.id ∉ ids old ∧
    (maxPendingTriggerEvents ≤ old.length ∨ maxTriggerInboxBytes < marshaledSize (old ++ [event]) ∨
      maximumObjectBytes < marshaledSize (old ++ [event]))

/-- The inbox takes the event, within its own bounds. -/
def WithinBounds (old : List PendingTriggerEvent) (event : PendingTriggerEvent) : Prop :=
  event.id ∉ ids old ∧ old.length < maxPendingTriggerEvents ∧ marshaledSize (old ++ [event]) ≤ maxTriggerInboxBytes

/-- **An inbox that cannot grow says it is full**, and the store takes what the inbox takes: `Add` alone, over a store that does
not fail. -/
structure SaysFull {ι κ : Type} [DecidableEq κ] (inbox : ι → κ) (i : ι) (key : String) (w : World ι κ) (event : PendingTriggerEvent) :
    Prop where
  refused : ∀ r w', Prog.Exec (quietStep inbox i) (add key event).run w r w' →
    Admissible (eventsAt (w.objects key)) event → DoesNotFit (eventsAt (w.objects key)) event →
    r = .error .triggerInboxFull ∧ eventsAt (w'.objects key) = eventsAt (w.objects key)
  stored  : ∀ r w', Prog.Exec (quietStep inbox i) (add key event).run w r w' →
    Admissible (eventsAt (w.objects key)) event → WithinBounds (eventsAt (w.objects key)) event →
    r = .ok () ∧ eventsAt (w'.objects key) = eventsAt (w.objects key) ++ [Inbox.stored event]

/-- The new document is within the bound of the inbox and over that of the store. -/
def BetweenBounds (old : List PendingTriggerEvent) (event : PendingTriggerEvent) : Prop :=
  Admissible old event ∧ WithinBounds old event ∧ maximumObjectBytes < marshaledSize (old ++ [event])

/-! ## Documents that are written -/

/-- A document as `json.Marshal` leaves it. -/
def Text.Marshaled (contents : Text) : Prop :=
  ∃ events, contents = ⟨.document ⟨triggerInboxSchema, events⟩, 0⟩ ∧ ∀ e ∈ events, e.marshal = some e

theorem marshalEvents_marshaled : ∀ {events written : List PendingTriggerEvent}, marshalEvents events = some written →
    ∀ e ∈ written, e.marshal = some e
  | [], _, h, e, he => by
    cases h
    cases he
  | event :: rest, written, h, e, he => by
    cases hevent : event.marshal with
    | none =>
      rw [marshalEvents, hevent] at h
      cases h
    | some first =>
      cases hrest : marshalEvents rest with
      | none =>
        rw [marshalEvents, hevent, hrest] at h
        cases h
      | some more =>
        rw [marshalEvents, hevent, hrest] at h
        cases h
        rcases List.mem_cons.1 he with rfl | he
        · exact (marshal_marshal hevent).1
        · exact marshalEvents_marshaled hrest e he

theorem marshaled_of_marshal {events : List PendingTriggerEvent} {contents : Text} (h : marshal events = some contents) :
    contents.Marshaled := by
  obtain ⟨written, hwritten, rfl⟩ := Option.map_eq_some_iff.1 h
  exact ⟨written, rfl, marshalEvents_marshaled hwritten⟩

/-- What a call may write. -/
def Op.Marshaled : Op → Prop
  | .create _ contents _ | .swap _ _ contents _ => contents.Marshaled
  | _ => True

section

open Method

variable {T : Type} (key : String)

theorem performs_read : (read key : M T (Document × String)).run.Performs Op.Marshaled := by
  refine performs_seq ?_ (fun _ => performs_seq (performs_act trivial) (fun _ => trivial))
  refine performs_seq (performs_act trivial) (fun headExists => ?_)
  split
  · trivial
  · split
    · trivial
    next contents hcontents =>
      refine performs_seq (performs_act (marshaled_of_marshal hcontents)) (fun answer => ?_)
      cases answer with
      | applied v => exact performs_act trivial
      | conflict => exact performs_act trivial
      | unknown => trivial
      | failed => trivial

theorem performs_update (apply : List PendingTriggerEvent → Except Err (List PendingTriggerEvent)) (change : Change) :
    ∀ attempts, (update key apply change attempts : M T Unit).run.Performs Op.Marshaled
  | 0 => trivial
  | attempts + 1 => by
    refine performs_seq (performs_read key) (fun found => ?_)
    unfold attemptWith
    split
    · trivial
    · split
      · trivial
      · split
        · trivial
        next contents hcontents =>
          split
          · trivial
          · refine performs_seq ?_ (fun answer => ?_)
            · unfold write
              split
              · exact performs_act (marshaled_of_marshal hcontents)
              · exact performs_act (marshaled_of_marshal hcontents)
            · cases answer with
              | applied v => trivial
              | conflict => exact performs_update apply change attempts
              | failed => trivial
              | unknown =>
                refine performs_seq (performs_act trivial) (fun observed => ?_)
                cases observed with
                | found object =>
                  show (if object.contents = contents then (pure () : M T Unit) else _).run.Performs _
                  split
                  · trivial
                  · exact performs_update apply change attempts
                | absent => exact performs_update apply change attempts
                | failed => exact performs_update apply change attempts

theorem performs_call : ∀ call : Call, (call.program key : Prog Op (Ans T) _).Performs Op.Marshaled
  | .add event => by
    refine performs_map ?_
    unfold add
    split
    · trivial
    · exact performs_update key _ _ _
  | .remove eventID => performs_map (performs_update key _ _ _)
  | .pending => performs_seq (performs_read key) (fun _ => trivial)

end

/-! ## Any number of calls -/

variable {ι κ : Type} [DecidableEq κ] {inbox : ι → κ} {key : String}

/-- **What holds of the head** whatever the calls do. -/
structure Tidy (key : String) (w : World ι κ) : Prop where
  wf       : Wf w.objects
  marshaled : ∀ v ∈ w.objects key, v.contents.Marshaled

omit [DecidableEq κ] in
theorem Tidy.put {w : World ι κ} (h : Tidy key w) {k : String} {v : Version Text (Writer ι)} (hfresh : Fresh w.objects k v)
    (hv : v.contents.Marshaled) : Tidy key { w with objects := Store.put w.objects k v } := by
  refine ⟨h.wf.put hfresh, fun u hu => ?_⟩
  have hu' : u ∈ Store.put w.objects k v key := hu
  by_cases hk : key = k
  · subst hk
    rw [put_same] at hu'
    rcases List.mem_cons.1 hu' with rfl | hu'
    · exact hv
    · exact h.marshaled u hu'
  · rw [put_of_ne _ _ hk] at hu'
    exact h.marshaled u hu'

theorem s3Step_create {i : ι} {k : String} {contents : Text} {change : Change} {w w' : World ι κ} {a : WriteAnswer Text (Writer ι)} :
    s3Step inbox i (.create k contents change) w a w' ↔
      maximumObjectBytes < contents.size change ∧ a = .failed ∧ w' = w ∨
        contents.size change ≤ maximumObjectBytes ∧
          ∃ s, Creates w.objects k contents (⟨i, change⟩ : Writer ι) a s ∧ w' = { w with objects := s } := by
  show (if maximumObjectBytes < contents.size change then a = .failed ∧ w' = w else _) ↔ _
  split
  next hlarge => exact ⟨.inl ∘ And.intro hlarge, fun h => h.elim And.right fun h => absurd hlarge (Nat.not_lt.2 h.1)⟩
  next hsmall =>
    exact ⟨fun h => .inr ⟨Nat.not_lt.1 hsmall, h⟩, fun h => h.elim (fun h => absurd h.1 hsmall) And.right⟩

theorem s3Step_swap {i : ι} {k etag : String} {contents : Text} {change : Change} {w w' : World ι κ}
    {a : WriteAnswer Text (Writer ι)} :
    s3Step inbox i (.swap k etag contents change) w a w' ↔
      maximumObjectBytes < contents.size change ∧ a = .failed ∧ w' = w ∨
        contents.size change ≤ maximumObjectBytes ∧
          ∃ s, Swaps w.objects k etag contents (⟨i, change⟩ : Writer ι) a s ∧ w' = { w with objects := s } := by
  show (if maximumObjectBytes < contents.size change then a = .failed ∧ w' = w else _) ↔ _
  split
  next hlarge => exact ⟨.inl ∘ And.intro hlarge, fun h => h.elim And.right fun h => absurd hlarge (Nat.not_lt.2 h.1)⟩
  next hsmall =>
    exact ⟨fun h => .inr ⟨Nat.not_lt.1 hsmall, h⟩, fun h => h.elim (fun h => absurd h.1 hsmall) And.right⟩

theorem Tidy.step {i : ι} {o : Op} {w w' : World ι κ} {a : Ans (Writer ι) o} (h : Tidy key w) (ho : o.Marshaled)
    (hs : s3Step inbox i o w a w') : Tidy key w' := by
  have hwrite : ∀ {k contents change answer s}, Text.Marshaled contents →
      (Applies w.objects k contents (⟨i, change⟩ : Writer ι) answer s ∨ Refuses w.objects answer s) →
      Tidy key { w with objects := s } := by
    rintro k contents change answer s hcontents (⟨v, hfresh, rfl, -, rfl, -⟩ | ⟨rfl, -⟩)
    · exact h.put hfresh hcontents
    · exact h
  cases o with
  | read k version =>
    obtain ⟨-, rfl⟩ := hs
    exact h
  | loadHeadExists =>
    obtain ⟨-, rfl⟩ := hs
    exact h
  | storeHeadExists =>
    rw [show w' = _ from hs]
    exact ⟨h.wf, h.marshaled⟩
  | create k contents change =>
    rcases s3Step_create.1 hs with ⟨-, -, rfl⟩ | ⟨-, s, hcreate, rfl⟩
    · exact h
    · exact hwrite ho (hcreate.imp And.right id)
  | swap k etag contents change =>
    rcases s3Step_swap.1 hs with ⟨-, -, rfl⟩ | ⟨-, s, hswap, rfl⟩
    · exact h
    · exact hwrite ho (hswap.imp And.right id)

variable (inbox key) in
def s3Protocol : Protocol Op (Ans (Writer ι)) (World ι κ) ι where
  step := s3Step inbox
  inv := Tidy key
  guar := fun _ _ _ => True
  rely := fun _ _ _ => True
  rely_refl := fun _ _ => trivial
  rely_trans := fun _ _ _ _ _ _ => trivial
  guar_rely := fun _ _ _ _ _ _ => trivial

/-- **Where a run starts**: no head, and every call about to be made. -/
structure S3Start (key : String) (c : Config Op (Ans (Writer ι)) (Except Err (List PendingTriggerEvent)) (World ι κ) ι) : Prop where
  wf    : Wf c.state.objects
  head  : c.state.objects key = []
  calls : ∀ i, ∃ call : Call, c.threads i = call.program key

theorem S3Start.tidy {c c' : Config Op (Ans (Writer ι)) (Except Err (List PendingTriggerEvent)) (World ι κ) ι}
    (h : S3Start key c) (hrun : Config.Run (s3Step inbox) c c') : Tidy key c'.state := by
  have hstart : Tidy key c.state := ⟨h.wf, fun v hv => by rw [h.head] at hv; cases hv⟩
  refine (Protocol.safe_run (P := s3Protocol inbox key) (Q := fun _ _ _ => True) hrun hstart (fun i => ?_)).1
  obtain ⟨call, hcall⟩ := h.calls i
  rw [hcall]
  refine Protocol.safe_of_performs (P := s3Protocol inbox key) (φ := Op.Marshaled) ?_ (performs_call key call)
  exact fun o s r s' ho hinv hs => ⟨Tidy.step hinv ho hs, trivial⟩

/-! ## `Add` alone -/

section

open Method

variable {i : ι} {w w' : World ι κ}

omit [DecidableEq κ] in
theorem Tidy.head {l : List (Version Text (Writer ι))} (h : Tidy key w) (hl : w.objects key = l) :
    l = [] ∨ ∃ v rest, l = v :: rest ∧ v.contents = ⟨.document ⟨triggerInboxSchema, eventsAt l⟩, 0⟩ ∧ v.etag ≠ "" ∧
      ∀ e ∈ eventsAt l, e.marshal = some e := by
  subst hl
  cases hl : w.objects key with
  | nil => exact .inl rfl
  | cons v rest =>
    have hv : v ∈ w.objects key := by rw [hl]; exact List.mem_cons_self
    obtain ⟨events, hcontents, hevents⟩ := h.marshaled v hv
    have heventsAt : eventsAt (v :: rest) = events := by
      simp only [eventsAt, hcontents]
    rw [heventsAt]
    exact .inr ⟨v, rest, rfl, hcontents, (h.wf.named key v hv).2, hevents⟩

omit [DecidableEq κ] in
theorem Tidy.canonical (h : Tidy key w) : ∀ e ∈ eventsAt (w.objects key), e.marshal = some e := by
  rcases h.head rfl with hnil | ⟨v, rest, -, -, -, hevents⟩
  · rw [hnil]
    exact fun e he => absurd he List.not_mem_nil
  · exact hevents

theorem quiet_createHead {r : Except Err Unit} (h : Tidy key w) (hexec : Prog.Exec (quietStep inbox i) (createHead key).run w r w') :
    r = .ok () ∧ Tidy key w' ∧ eventsAt (w'.objects key) = eventsAt (w.objects key) := by
  obtain ⟨headExists, w₁, ⟨⟨-, rfl⟩, -⟩, hcreate⟩ := exec_act.1 hexec
  split at hcreate
  · obtain ⟨rfl, rfl⟩ := hcreate
    exact ⟨rfl, h, rfl⟩
  have hempty : Text.Marshaled ⟨.document ⟨triggerInboxSchema, []⟩, 0⟩ := ⟨[], rfl, fun e he => absurd he List.not_mem_nil⟩
  have hsize : Text.size ⟨.document ⟨triggerInboxSchema, []⟩, 0⟩ .createHead ≤ maximumObjectBytes := by decide
  obtain ⟨answer, w₂, ⟨hs, hquiet⟩, hcreated⟩ := exec_act.1 hcreate
  have hstored : ∀ {w₃ : World ι κ} {r : Except Err Unit}, Tidy key w₃ → eventsAt (w₃.objects key) = eventsAt (w₁.objects key) →
      Prog.Exec (quietStep inbox i) (act .storeHeadExists : M (Writer ι) Unit).run w₃ r w' →
      r = .ok () ∧ Tidy key w' ∧ eventsAt (w'.objects key) = eventsAt (w₁.objects key) := by
    intro w₃ r htidy hevents hstore
    obtain ⟨_, w₄, hstep, hr, hw⟩ := hstore
    rw [hr, hw, show w₄ = _ from hstep.1]
    exact ⟨rfl, ⟨htidy.wf, htidy.marshaled⟩, hevents⟩
  have htidy : Tidy key w₂ := Tidy.step (o := .create key _ .createHead) h hempty hs
  obtain ⟨-, s, hcreates, rfl⟩ := (s3Step_create.1 hs).resolve_left fun hlarge => Nat.not_lt.2 hsize hlarge.1
  rcases hquiet hsize with ⟨v, rfl⟩ | ⟨rfl, -⟩
  · obtain ⟨hnil, u, -, hcontents, -, rfl, -⟩ := hcreates.resolve_right fun hrefuses => by
      rcases hrefuses.2 with ha | ha | ha <;> cases ha
    refine hstored htidy ?_ hcreated
    show eventsAt (put w₁.objects key u key) = _
    rw [put_same, hnil]
    simp only [eventsAt, hcontents]
  · obtain ⟨rfl, -⟩ := hcreates.resolve_left fun happlies => by
      obtain ⟨-, u, -, -, -, -, ha⟩ := happlies
      rcases ha with ha | ha <;> cases ha
    exact hstored htidy rfl hcreated

/-- A document that can be read, as the inbox writes it. -/
theorem checkDocument_found {T : Type} {v : Version Text T} {events : List PendingTriggerEvent}
    (hcontents : v.contents = ⟨.document ⟨triggerInboxSchema, events⟩, 0⟩) (hetag : v.etag ≠ "")
    (hreadable : (strictJSON ⟨.document ⟨triggerInboxSchema, events⟩, 0⟩).isSome) :
    checkDocument (.found v) = .ok (⟨triggerInboxSchema, events⟩, v.etag) := by
  obtain ⟨document, hdocument⟩ := Option.isSome_iff_exists.1 hreadable
  have hsame : document = ⟨triggerInboxSchema, events⟩ := by
    unfold strictJSON at hdocument
    dsimp only at hdocument
    split at hdocument
    · exact (Option.some.inj hdocument).symm
    · cases hdocument
  subst hsame
  unfold checkDocument
  simp only [hcontents, hdocument]
  exact if_neg fun h => h.elim (fun h => h rfl) hetag

/-- What `read` has found. -/
def Current (key : String) (w : World ι κ) (found : Document × String) : Prop :=
  found.1.events = eventsAt (w.objects key) ∧
    (found.2 = "" ∧ w.objects key = [] ∨ found.2 ≠ "" ∧ ∃ v, (w.objects key).head? = some v ∧ v.etag = found.2)

theorem quiet_read {r : Except Err (Document × String)} (h : Tidy key w)
    (hreadable : (strictJSON ⟨.document ⟨triggerInboxSchema, eventsAt (w.objects key)⟩, 0⟩).isSome)
    (hexec : Prog.Exec (quietStep inbox i) (read key).run w r w') :
    Tidy key w' ∧ eventsAt (w'.objects key) = eventsAt (w.objects key) ∧ ∃ found, r = .ok found ∧ Current key w' found := by
  rcases exec_seq.1 hexec with ⟨_, w₁, hhead, hread⟩ | ⟨e, -, hraises⟩
  · obtain ⟨-, htidy, hevents⟩ := quiet_createHead h hhead
    obtain ⟨answer, w₂, ⟨⟨hreads, rfl⟩, hquiet⟩, hrest, rfl⟩ := exec_act.1 hread
    refine ⟨htidy, hevents, ?_⟩
    rw [← hevents] at hreadable
    subst hrest
    cases answer with
    | failed => exact absurd rfl hquiet
    | absent =>
      have hnil : w'.objects key = [] := List.head?_eq_none_iff.1 hreads
      exact ⟨_, rfl, by rw [hnil]; rfl, .inl ⟨rfl, hnil⟩⟩
    | found v =>
      have hv : (w'.objects key).head? = some v := hreads
      rcases htidy.head rfl with hnil | ⟨u, rest, hl, hcontents, hetag, -⟩
      · rw [hnil] at hv
        cases hv
      · rw [hl] at hv
        cases hv
        exact ⟨_, checkDocument_found hcontents hetag hreadable, rfl, .inr ⟨hetag, v, by rw [hl]; rfl, rfl⟩⟩
  · obtain ⟨hok, -, -⟩ := quiet_createHead h hraises
    cases hok

/-- What `Add` answers and leaves pending. -/
def outcome (old : List PendingTriggerEvent) (event : PendingTriggerEvent) : Except Err Unit × List PendingTriggerEvent :=
  if event.id ∈ ids old then (.ok (), old)
  else if maxPendingTriggerEvents ≤ old.length then (.error .triggerInboxFull, old)
  else if maxTriggerInboxBytes < marshaledSize (old ++ [event]) then (.error .triggerInboxFull, old)
  else if maximumObjectBytes < marshaledSize (old ++ [event]) then (.error .storage, old)
  else (.ok (), old ++ [stored event])

theorem added_new {old : List PendingTriggerEvent} {event : PendingTriggerEvent} (h : event.id ∉ ids old)
    (hroom : ¬ maxPendingTriggerEvents ≤ old.length) : added event old = .ok (old ++ [event]) := by
  have hany : ¬ old.any (fun pending => pending.id == event.id) = true := fun hany => by
    obtain ⟨e, he, hid⟩ := List.any_eq_true.1 hany
    exact h (List.mem_map.2 ⟨e, he, eq_of_beq hid⟩)
  unfold added
  rw [if_neg hany, if_neg hroom]

theorem equalPendingEvents_append (old : List PendingTriggerEvent) (event : PendingTriggerEvent) :
    equalPendingEvents (old ++ [event]) old = false := by
  unfold equalPendingEvents
  rw [beq_eq_false_iff_ne]
  intro h
  have := congrArg List.length h
  rw [List.length_map, List.length_map, List.length_append, List.length_singleton] at this
  omega

/-- The document with the event at its end. -/
theorem marshal_append {old : List PendingTriggerEvent} {event : PendingTriggerEvent} (hold : ∀ e ∈ old, e.marshal = some e)
    (hevent : Json.parse maxNestingDepth event.event ≠ none) :
    marshal (old ++ [event]) = some ⟨.document ⟨triggerInboxSchema, old ++ [stored event]⟩, 0⟩ := by
  have hmarshal : event.marshal = some (stored event) := by
    unfold stored PendingTriggerEvent.marshal
    split
    · rfl
    · cases hp : Json.parse maxNestingDepth event.event with
      | none => exact absurd hp hevent
      | some ts =>
        unfold Json.compact
        rw [hp]
        rfl
  unfold marshal
  rw [marshalEvents_append hold]
  simp only [marshalEvents, hmarshal, Option.map_some]

theorem size_append (old : List PendingTriggerEvent) (event : PendingTriggerEvent) :
    Text.size ⟨.document ⟨triggerInboxSchema, old ++ [stored event]⟩, 0⟩ (.add event) = marshaledSize (old ++ [event]) := by
  unfold Text.size
  dsimp only
  rw [List.dropLast_concat]

/-- The conditional write of a document that was read. -/
theorem quiet_write {etag : String} {contents : Text} {change : Change} {written : List PendingTriggerEvent}
    {answer : WriteAnswer Text (Writer ι)} (hcontents : contents = ⟨.document ⟨triggerInboxSchema, written⟩, 0⟩)
    (htag : etag = "" ∧ w.objects key = [] ∨ etag ≠ "" ∧ ∃ v, (w.objects key).head? = some v ∧ v.etag = etag)
    (hwrite : Returns (quietStep inbox i) (write key etag contents change) w answer w') :
    maximumObjectBytes < contents.size change ∧ answer = .failed ∧ w' = w ∨
      contents.size change ≤ maximumObjectBytes ∧ (∃ v, answer = .applied v) ∧ eventsAt (w'.objects key) = written := by
  have happlied : ∀ {s : Objects Text (Writer ι)}, Applies w.objects key contents ⟨i, change⟩ answer s →
      eventsAt (s key) = written := by
    rintro s ⟨v, -, hv, -, rfl, -⟩
    rw [put_same]
    simp only [eventsAt, hv, hcontents]
  have hnone : ∀ {v : Version Text (Writer ι)} {s : Objects Text (Writer ι)}, answer = .applied v → ¬ Refuses w.objects answer s := by
    rintro v s rfl ⟨-, ha | ha | ha⟩ <;> cases ha
  unfold write at hwrite
  rcases htag with ⟨htag, hnil⟩ | ⟨htag, hhead⟩
  · rw [if_pos htag] at hwrite
    obtain ⟨hs, hquiet⟩ := returns_act.1 hwrite
    rcases s3Step_create.1 hs with hlarge | ⟨hsmall, s, hcreates, rfl⟩
    · exact .inl hlarge
    · obtain ⟨v, hv⟩ := (hquiet hsmall).resolve_right fun h => h.2 hnil
      exact .inr ⟨hsmall, ⟨v, hv⟩, happlied (hcreates.resolve_right (hnone hv)).2⟩
  · rw [if_neg htag] at hwrite
    obtain ⟨hs, hquiet⟩ := returns_act.1 hwrite
    rcases s3Step_swap.1 hs with hlarge | ⟨hsmall, s, hswaps, rfl⟩
    · exact .inl hlarge
    · obtain ⟨v, hv⟩ := (hquiet hsmall).resolve_right fun h => h.2 hhead
      exact .inr ⟨hsmall, ⟨v, hv⟩, happlied (hswaps.resolve_right (hnone hv)).2⟩

theorem quiet_attempt {r : Except Err Unit} {retry : M (Writer ι) Unit} {event : PendingTriggerEvent} {found : Document × String}
    (h : Tidy key w) (hfound : Current key w found) (hevent : Json.parse maxNestingDepth event.event ≠ none)
    (hexec : Prog.Exec (quietStep inbox i) (attemptWith key (added event) (.add event) retry found).run w r w') :
    (r, eventsAt (w'.objects key)) = outcome (eventsAt (w.objects key)) event := by
  obtain ⟨hevents, htag⟩ := hfound
  unfold outcome
  by_cases hid : event.id ∈ ids (eventsAt (w.objects key))
  · rw [attemptWith_added retry (by rw [hevents]; exact hid)] at hexec
    obtain ⟨rfl, rfl⟩ := hexec
    rw [if_pos hid]
  rw [if_neg hid]
  by_cases hroom : maxPendingTriggerEvents ≤ (eventsAt (w.objects key)).length
  · have hadded : added event found.1.events = .error .triggerInboxFull := by
      have hany : ¬ (eventsAt (w.objects key)).any (fun pending => pending.id == event.id) = true := fun hany => by
        obtain ⟨e, he, hid'⟩ := List.any_eq_true.1 hany
        exact hid (List.mem_map.2 ⟨e, he, eq_of_beq hid'⟩)
      rw [hevents]
      unfold added
      rw [if_neg hany, if_pos hroom]
    unfold attemptWith at hexec
    simp only [hadded] at hexec
    obtain ⟨rfl, rfl⟩ := hexec
    rw [if_pos hroom]
  rw [if_neg hroom]
  have hadded := added_new hid hroom
  have hmarshal := marshal_append h.canonical hevent
  unfold attemptWith at hexec
  rw [hevents] at hexec
  simp only [hadded, equalPendingEvents_append, hmarshal, Bool.false_eq_true, if_false] at hexec
  by_cases hlarge : maxTriggerInboxBytes < marshaledSize (eventsAt (w.objects key) ++ [event])
  · rw [if_pos hlarge] at hexec ⊢
    obtain ⟨rfl, rfl⟩ := hexec
    rfl
  rw [if_neg hlarge] at hexec ⊢
  have hsize := size_append (eventsAt (w.objects key)) event
  rcases exec_seq.1 hexec with ⟨answer, w₁, hwrite, hsettle⟩ | ⟨e, -, hraises⟩
  · rcases quiet_write rfl htag hwrite with ⟨hstore, rfl, rfl⟩ | ⟨hstore, ⟨v, rfl⟩, hwritten⟩
    · rw [hsize] at hstore
      obtain ⟨rfl, rfl⟩ := hsettle
      rw [if_pos hstore]
    · rw [hsize] at hstore
      obtain ⟨rfl, rfl⟩ := hsettle
      rw [if_neg (Nat.not_lt.2 hstore), hwritten]
  · unfold write at hraises
    split at hraises
    · exact absurd hraises not_raises_act
    · exact absurd hraises not_raises_act

/-- **`Add` alone**, over a store that does not fail. -/
theorem quiet_add {r : Except Err Unit} {event : PendingTriggerEvent} (h : Tidy key w)
    (hadmissible : Admissible (eventsAt (w.objects key)) event)
    (hexec : Prog.Exec (quietStep inbox i) (add key event).run w r w') :
    (r, eventsAt (w'.objects key)) = outcome (eventsAt (w.objects key)) event := by
  obtain ⟨hevent, hreadable⟩ := hadmissible
  unfold add at hexec
  rw [if_neg hevent] at hexec
  rcases exec_seq.1 hexec with ⟨found, w₁, hread, hattempt⟩ | ⟨e, rfl, hread⟩
  · obtain ⟨htidy, hevents, found', hok, hfound⟩ := quiet_read h hreadable hread
    cases hok
    rw [← hevents]
    exact quiet_attempt htidy hfound (fun hnone => hevent (.inr hnone)) hattempt
  · obtain ⟨-, -, found', hok, -⟩ := quiet_read h hreadable hread
    cases hok

/-- A store that does not fail answers. -/
theorem exists_quietStep (o : Op) (w : World ι κ) : ∃ a w', quietStep inbox i o w a w' := by
  cases o with
  | read k version =>
    cases hlookup : lookup w.objects k version with
    | none => exact ⟨.absent, w, ⟨hlookup, rfl⟩, fun h => by cases h⟩
    | some v => exact ⟨.found v, w, ⟨hlookup, rfl⟩, fun h => by cases h⟩
  | loadHeadExists => exact ⟨w.headExists (inbox i), w, ⟨rfl, rfl⟩, trivial⟩
  | storeHeadExists => exact ⟨(), _, rfl, trivial⟩
  | create k contents change =>
    by_cases hlarge : maximumObjectBytes < contents.size change
    · exact ⟨.failed, w, s3Step_create.2 (.inl ⟨hlarge, rfl, rfl⟩), fun hsmall => absurd hlarge (Nat.not_lt.2 hsmall)⟩
    have hsmall := Nat.not_lt.1 hlarge
    by_cases hnil : w.objects k = []
    · obtain ⟨v, hfresh, hcontents, hwriter⟩ := exists_fresh w.objects k contents (⟨i, change⟩ : Writer ι)
      refine ⟨.applied v, _, s3Step_create.2 (.inr ⟨hsmall, _, .inl ⟨hnil, v, hfresh, hcontents, hwriter, rfl, .inl rfl⟩, rfl⟩), ?_⟩
      exact fun _ => .inl ⟨v, rfl⟩
    · refine ⟨.conflict, w, s3Step_create.2 (.inr ⟨hsmall, w.objects, .inr ⟨rfl, .inl rfl⟩, rfl⟩), ?_⟩
      exact fun _ => .inr ⟨rfl, hnil⟩
  | swap k etag contents change =>
    by_cases hlarge : maximumObjectBytes < contents.size change
    · exact ⟨.failed, w, s3Step_swap.2 (.inl ⟨hlarge, rfl, rfl⟩), fun hsmall => absurd hlarge (Nat.not_lt.2 hsmall)⟩
    have hsmall := Nat.not_lt.1 hlarge
    by_cases hhead : ∃ v, (w.objects k).head? = some v ∧ v.etag = etag
    · obtain ⟨v, hfresh, hcontents, hwriter⟩ := exists_fresh w.objects k contents (⟨i, change⟩ : Writer ι)
      refine ⟨.applied v, _, s3Step_swap.2 (.inr ⟨hsmall, _, .inl ⟨hhead, v, hfresh, hcontents, hwriter, rfl, .inl rfl⟩, rfl⟩), ?_⟩
      exact fun _ => .inl ⟨v, rfl⟩
    · refine ⟨.conflict, w, s3Step_swap.2 (.inr ⟨hsmall, w.objects, .inr ⟨rfl, .inl rfl⟩, rfl⟩), ?_⟩
      exact fun _ => .inr ⟨rfl, hhead⟩

end

/-! ## When an inbox says it is full -/

theorem Tidy.saysFull_iff {w : World ι κ} (htidy : Tidy key w) (i : ι) (event : PendingTriggerEvent) :
    SaysFull inbox i key w event ↔ ¬ BetweenBounds (eventsAt (w.objects key)) event := by
  constructor
  · rintro hfull ⟨hadmissible, hwithin, hlarge⟩
    have hstep : ∀ (o : Op) (v : World ι κ), ∃ a v', quietStep inbox i o v a v' := exists_quietStep
    obtain ⟨r, w', hexec⟩ := Prog.exists_exec hstep (add key event).run w
    obtain ⟨hnew, hroom, hbound⟩ := hwithin
    have houtcome := quiet_add htidy hadmissible hexec
    obtain ⟨hok, -⟩ := hfull.stored r w' hexec hadmissible ⟨hnew, hroom, hbound⟩
    unfold outcome at houtcome
    rw [if_neg hnew, if_neg (Nat.not_le.2 hroom), if_neg (Nat.not_lt.2 hbound), if_pos hlarge, hok] at houtcome
    cases congrArg Prod.fst houtcome
  · intro hbetween
    refine ⟨fun r w' hexec hadmissible hfit => ?_, fun r w' hexec hadmissible hwithin => ?_⟩
    · have houtcome := quiet_add htidy hadmissible hexec
      obtain ⟨hnew, hfit⟩ := hfit
      unfold outcome at houtcome
      rw [if_neg hnew] at houtcome
      by_cases hroom : maxPendingTriggerEvents ≤ (eventsAt (w.objects key)).length
      · rw [if_pos hroom] at houtcome
        exact ⟨congrArg Prod.fst houtcome, congrArg Prod.snd houtcome⟩
      rw [if_neg hroom] at houtcome
      by_cases hlarge : maxTriggerInboxBytes < marshaledSize (eventsAt (w.objects key) ++ [event])
      · rw [if_pos hlarge] at houtcome
        exact ⟨congrArg Prod.fst houtcome, congrArg Prod.snd houtcome⟩
      have hstore := (hfit.resolve_left hroom).resolve_left hlarge
      exact absurd ⟨hadmissible, ⟨hnew, Nat.not_le.1 hroom, Nat.not_lt.1 hlarge⟩, hstore⟩ hbetween
    · have houtcome := quiet_add htidy hadmissible hexec
      obtain ⟨hnew, hroom, hbound⟩ := hwithin
      have hstore : ¬ maximumObjectBytes < marshaledSize (eventsAt (w.objects key) ++ [event]) :=
        fun hlarge => hbetween ⟨hadmissible, ⟨hnew, hroom, hbound⟩, hlarge⟩
      unfold outcome at houtcome
      rw [if_neg hnew, if_neg (Nat.not_le.2 hroom), if_neg (Nat.not_lt.2 hbound), if_neg hstore] at houtcome
      exact ⟨congrArg Prod.fst houtcome, congrArg Prod.snd houtcome⟩

/-- **An inbox says that it is full, in every state that its calls reach, exactly when the new document is not between the bounds**
of the store and of the inbox. -/
theorem says_full_iff {c c' : Config Op (Ans (Writer ι)) (Except Err (List PendingTriggerEvent)) (World ι κ) ι}
    (hstart : S3Start key c) (hrun : Config.Run (s3Step inbox) c c') (i : ι) (event : PendingTriggerEvent) :
    SaysFull inbox i key c'.state event ↔ ¬ BetweenBounds (eventsAt (c'.state.objects key)) event :=
  (hstart.tidy hrun).saysFull_iff i event

theorem sampleStart_s3 : S3Start "inbox/head" sampleStart := ⟨wf_empty, rfl, fun _ => ⟨.add sampleEvent, rfl⟩⟩

theorem says_full_sample : SaysFull id () "inbox/head" sampleStart.state sampleEvent := by
  refine (says_full_iff sampleStart_s3 .refl () sampleEvent).2 ?_
  rintro ⟨-, -, hlarge⟩
  exact absurd hlarge (by decide)

/-- An event whose text is a string of `n` letters. -/
def longEvent (n : Nat) : PendingTriggerEvent := ⟨ascii "evt-1", Json.render [.string (List.replicate n 0x61)]⟩

theorem body_letters : ∀ n : Nat, Json.Body (List.replicate n 0x61)
  | 0 => .nil
  | n + 1 => .plain (by decide) (by decide) (by decide) (body_letters n)

theorem escapeHTML_letters : ∀ n : Nat, Json.escapeHTML (List.replicate n 0x61) = List.replicate n 0x61
  | 0 => rfl
  | n + 1 => by
    have ih := escapeHTML_letters n
    unfold Json.escapeHTML at ih ⊢
    have hseparator : Json.isLineSeparator (0x61 :: List.replicate n 0x61) = false := by
      cases n with
      | zero => rfl
      | succ n => cases n <;> rfl
    rw [List.replicate_succ, Json.escapeFrom, if_neg (by decide), hseparator, if_neg Bool.false_ne_true, ih]

theorem parse_longEvent (n : Nat) : Json.parse maxNestingDepth (longEvent n).event = some [.string (List.replicate n 0x61)] := by
  have hlex : Json.lex (longEvent n).event = some [.string (List.replicate n 0x61)] := by
    refine Json.lex_render (fun t ht => ?_) (List.isChain_singleton _)
    rw [List.mem_singleton.1 ht]
    exact body_letters n
  unfold Json.parse
  rw [hlex]
  rfl

theorem marshaledSize_longEvent (n : Nat) : marshaledSize [longEvent n] = n + 106 := by
  have hne : ¬ (longEvent n).event = [] := fun h => by cases h
  have hmarshal : (longEvent n).marshal = some (longEvent n) := by
    unfold PendingTriggerEvent.marshal Json.compact
    rw [if_neg hne, parse_longEvent, Option.map_some, Option.map_some, List.map_singleton, Json.Token.escape, escapeHTML_letters]
    rfl
  have hlength : (longEvent n).event.length = n + 2 := by
    have htext : (longEvent n).event = 0x22 :: (List.replicate n 0x61 ++ [0x22]) ++ [] := rfl
    rw [htext, List.append_nil, List.length_cons, List.length_append, List.length_replicate, List.length_singleton]
  have hsize : (longEvent n).size = n + 25 := by
    unfold PendingTriggerEvent.size
    rw [hmarshal, Option.map_some, Option.getD_some, hlength]
    show (ascii "\x7b\"id\":\"").length + (Json.quote (ascii "evt-1")).length + (ascii "\",\"event\":").length + (n + 2) + 1 = n + 25
    have : (ascii "\x7b\"id\":\"").length + (Json.quote (ascii "evt-1")).length + (ascii "\",\"event\":").length = 22 := by decide
    omega
  unfold marshaledSize
  rw [List.map_singleton, List.sum_singleton, hsize]
  show _ + (n + 25) + 0 + 2 = n + 106
  have : (ascii "\x7b\"schemaVersion\":\"").length + triggerInboxSchema.length + (ascii "\",\"events\":[").length = 79 := by decide
  omega

/-- An event of five megabytes, and an inbox that does not exist yet. -/
theorem long_event_refused : S3Start "inbox/head" sampleStart ∧
    ¬ SaysFull id () "inbox/head" sampleStart.state (longEvent (5 * 2 ^ 20)) := by
  refine ⟨sampleStart_s3, fun hfull => ?_⟩
  have htidy : Tidy "inbox/head" sampleStart.state := @S3Start.tidy _ _ _ id _ _ _ sampleStart_s3 .refl
  refine (htidy.saysFull_iff () _).1 hfull ⟨⟨?_, rfl⟩, ⟨?_, by decide, ?_⟩, ?_⟩
  · rintro (h | h)
    · exact absurd h (by decide)
    · rw [parse_longEvent] at h
      cases h
  · exact List.not_mem_nil
  · show marshaledSize [longEvent (5 * 2 ^ 20)] ≤ maxTriggerInboxBytes
    rw [marshaledSize_longEvent]
    decide
  · show maximumObjectBytes < marshaledSize [longEvent (5 * 2 ^ 20)]
    rw [marshaledSize_longEvent]
    decide

end Inbox
end Dex
