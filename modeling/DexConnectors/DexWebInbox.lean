import DexConnectors.DexWebPartition
/-!
# DexWebInbox — a trigger inbox under `dexcli dev` (`sdkgo/projectconfig/dexweb.go`, `trigger_inbox.go`)

A key that its methods keep in the files partition is an object store of its own to the inbox, and `Add` is accepted.
-/
namespace Dex
namespace DexWeb

open Lib Lib.Store Lib.Utf8 Lib.Method ConfigStore ObjectKeys
open Inbox (PendingTriggerEvent Document Change triggerInboxSchema Admissible WithinBounds strictJSON checkDocument createHead
  attemptWith added equalPendingEvents ids stored maxNestingDepth)

variable {L κ : Type} {digestBytes : Text → String} {project : Project L} {key : String}

/-! ## What the head holds -/

/-- No head, or a document as the inbox writes it. -/
def Held (key : String) (w : World L κ) : Prop :=
  ∀ head ∈ (w.inbox key).head?, head.etag ≠ "" ∧ head.contents.Marshaled

/-- What a method may write. -/
def Op.Marshaled : Op → Prop
  | .create _ _ contents | .swap _ _ _ contents => contents.Marshaled
  | _ => True

theorem etag_ne (digestBytes : Text → String) (previous : List StoredObject) (contents : Text) :
    (nextObject digestBytes previous contents).etag ≠ "" := by
  intro h
  have hlist := congrArg String.toList h
  unfold nextObject at hlist
  simp [String.toList_append] at hlist

theorem held_append {w : World L κ} (h : Held key w) (k : String) {contents : Text} (hcontents : contents.Marshaled) :
    Held key (w.setStore .inbox (appendVersion digestBytes w.writable w.inbox k contents).2) := by
  unfold appendVersion
  cases w.writable with
  | false => exact h
  | true =>
    intro head hhead
    by_cases hk : key = k
    · subst hk
      have hhead : some (nextObject digestBytes (w.inbox key) contents) = some head := by
        simpa [World.setStore] using hhead
      cases hhead
      exact ⟨etag_ne digestBytes _ contents, hcontents⟩
    · exact h head (by simpa [World.setStore, hk] using hhead)

theorem held_create {w : World L κ} (h : Held key w) (k : String) {contents : Text} (hcontents : contents.Marshaled) :
    Held key (w.setStore .inbox (versionedCreate digestBytes w.writable w.inbox k contents).2) := by
  unfold versionedCreate
  split
  · exact h
  · split
    · exact h
    · exact held_append h k hcontents

theorem held_swap {w : World L κ} (h : Held key w) (k etag : String) {contents : Text} (hcontents : contents.Marshaled) :
    Held key (w.setStore .inbox (versionedSwap digestBytes w.writable w.inbox k etag contents).2) := by
  unfold versionedSwap
  split
  · exact h
  · split
    · exact h
    · split
      · exact h
      · exact held_append h k hcontents

theorem held_answer (o : Op) (w : World L κ) (ho : o.Marshaled) (h : Held key w) : Held key (answer digestBytes project o w).2 := by
  cases o with
  | sync => exact h
  | read partition k version => exact h
  | writeBack head => exact h
  | create partition k contents =>
    cases partition with
    | memory => exact h
    | inbox => exact held_create h k ho
  | swap partition k expectedETag contents =>
    cases partition with
    | memory => exact h
    | inbox => exact held_swap h k expectedETag ho

/-! ## A key of the files partition -/

/-- What the methods do with a key that belongs to the files. -/
structure InFiles (key : String) : Prop where
  partition : DexWeb.partition key = .inbox
  notHead   : isConnectionHead key = false
  valid     : LocalStore.isObjectKey (ascii key) = true

variable {w : World L κ}

/-- The world after a write of the key. -/
def written (digestBytes : Text → String) (key : String) (contents : Text) (w : World L κ) : World L κ :=
  w.setStore .inbox (fun k => if k = key then
    nextObject digestBytes (w.inbox key) contents :: (if LocalStore.keepsHistory (ascii key) then w.inbox key else [])
    else w.inbox k)

theorem pendingAt_written {contents : Text} {events : List PendingTriggerEvent}
    (h : contents = ⟨.document ⟨triggerInboxSchema, events⟩, 0⟩) :
    pendingAt ((written digestBytes key contents w).inbox key) = events := by
  subst h
  simp only [written, World.setStore, if_true, pendingAt, nextObject]

theorem held_written {contents : Text} (hcontents : contents.Marshaled) : Held key (written digestBytes key contents w) := by
  intro head hhead
  have hhead : some (nextObject digestBytes (w.inbox key) contents) = some head := by
    simpa [written, World.setStore] using hhead
  cases hhead
  exact ⟨etag_ne digestBytes _ contents, hcontents⟩

/-- A head is a document of its events, as `json.Marshal` leaves them. -/
theorem Held.cons (h : Held key w) {head : StoredObject} {rest : List StoredObject} (hhead : w.inbox key = head :: rest) :
    head.etag ≠ "" ∧ head.contents = ⟨.document ⟨triggerInboxSchema, pendingAt (w.inbox key)⟩, 0⟩ ∧
      ∀ e ∈ pendingAt (w.inbox key), e.marshal = some e := by
  obtain ⟨hetag, events, hcontents, hevents⟩ := h head (by rw [hhead]; rfl)
  have hpending : pendingAt (w.inbox key) = events := by
    rw [hhead]
    simp only [pendingAt, hcontents]
  rw [hpending]
  exact ⟨hetag, hcontents, hevents⟩

theorem Held.canonical (h : Held key w) : ∀ e ∈ pendingAt (w.inbox key), e.marshal = some e := by
  cases hhead : w.inbox key with
  | nil => exact fun e he => absurd he List.not_mem_nil
  | cons head rest =>
    rw [← hhead]
    exact (h.cons hhead).2.2

theorem runWith_read (hkey : InFiles key) (version : String) :
    (readObject key version).run.runWith (answer digestBytes project) w = (versionedRead w.inbox key version, w) := by
  unfold readObject
  rw [hkey.notHead, hkey.partition]
  rfl

theorem runWith_create (hpartition : DexWeb.partition key = .inbox) (contents : Text) :
    (createObject key contents).run.runWith (answer digestBytes project) w =
      ((versionedCreate digestBytes w.writable w.inbox key contents).1,
        w.setStore .inbox (versionedCreate digestBytes w.writable w.inbox key contents).2) := by
  unfold createObject
  rw [hpartition]
  rfl

theorem runWith_swap (hkey : InFiles key) (etag : String) (contents : Text) :
    (compareAndSwapObject key etag contents).run.runWith (answer digestBytes project) w =
      ((versionedSwap digestBytes w.writable w.inbox key etag contents).1,
        w.setStore .inbox (versionedSwap digestBytes w.writable w.inbox key etag contents).2) := by
  unfold compareAndSwapObject
  rw [hkey.notHead, hkey.partition]
  rfl

/-! ## Calls -/

variable [DecidableEq κ]

theorem held_inboxAnswer (i : κ) (o : Inbox.Op) (w : World L κ) (ho : o.Marshaled) (h : Held key w) :
    Held key (inboxAnswer digestBytes project i o w).2 := by
  have hkeeps : ∀ {m : M StoredObject}, m.run.Performs Op.Marshaled → Held key (m.run.runWith (answer digestBytes project) w).2 :=
    fun hm => Prog.runWith_keeps (I := Held key) held_answer hm h
  cases o with
  | read k version => exact hkeeps ((performs_read k version).2 ⟨fun _ => trivial, trivial⟩)
  | create k contents change => exact hkeeps ((performs_create k contents).2 ho)
  | swap k etag contents change =>
    refine hkeeps ((performs_swap k etag contents).2 ?_)
    split
    · exact ⟨trivial, ho, fun _ => trivial⟩
    · exact ho
  | loadHeadExists => exact h
  | storeHeadExists => exact h

/-- **In every state that calls on inboxes reach**, the head holds a document that an inbox wrote. -/
theorem held_turns : ∀ (before : List (Turn κ)) {w : World L κ}, Held key w → Held key (turns digestBytes project key before w)
  | [], _, h => h
  | turn :: rest, w, h =>
    held_turns rest (Prog.runWith_keeps (I := Held key) (held_inboxAnswer turn.inbox) (Inbox.performs_call key turn.call)
      (show Held key { w with writable := turn.writable } from h))

/-! ## What the inbox is answered -/

theorem inboxAnswer_created {i : κ} (hpartition : DexWeb.partition key = .inbox) (hvalid : LocalStore.isObjectKey (ascii key) = true)
    (hwritable : w.writable = true) (h : w.inbox key = []) (contents : Text) (change : Change) :
    inboxAnswer digestBytes project i (.create key contents change) w =
      (.applied (nextObject digestBytes (w.inbox key) contents), written digestBytes key contents w) := by
  simp only [inboxAnswer, runWith_create hpartition]
  unfold versionedCreate
  rw [if_neg (by rw [hvalid]; exact Bool.false_ne_true), if_neg (not_not.2 h), appendVersion, hwritable]
  rfl

section

variable {i : κ} (hkey : InFiles key)

include hkey

theorem inboxAnswer_absent (h : w.inbox key = []) : inboxAnswer digestBytes project i (.read key "") w = (.absent, w) := by
  simp only [inboxAnswer, runWith_read hkey]
  unfold versionedRead
  rw [if_neg (by rw [hkey.valid]; exact Bool.false_ne_true)]
  simp [lookup, h, readAnswer]

theorem inboxAnswer_found {head : StoredObject} {rest : List StoredObject} (h : w.inbox key = head :: rest) :
    inboxAnswer digestBytes project i (.read key "") w = (.found head, w) := by
  simp only [inboxAnswer, runWith_read hkey]
  unfold versionedRead
  rw [if_neg (by rw [hkey.valid]; exact Bool.false_ne_true)]
  simp [lookup, h, readAnswer]

theorem inboxAnswer_conflict (h : w.inbox key ≠ []) (contents : Text) (change : Change) :
    inboxAnswer digestBytes project i (.create key contents change) w = (.conflict, w) := by
  simp only [inboxAnswer, runWith_create hkey.partition]
  unfold versionedCreate
  rw [if_neg (by rw [hkey.valid]; exact Bool.false_ne_true), if_pos h]
  rfl

theorem inboxAnswer_swapped (hwritable : w.writable = true) {head : StoredObject} {rest : List StoredObject}
    (h : w.inbox key = head :: rest) (contents : Text) (change : Change) :
    inboxAnswer digestBytes project i (.swap key head.etag contents change) w =
      (.applied (nextObject digestBytes (w.inbox key) contents), written digestBytes key contents w) := by
  simp only [inboxAnswer, runWith_swap hkey]
  unfold versionedSwap
  rw [if_neg (by rw [hkey.valid]; exact Bool.false_ne_true), h]
  dsimp only
  rw [if_neg (not_not.2 rfl), appendVersion, hwritable, ← h]
  rfl

/-! ## `Add` alone -/

omit hkey in
theorem run_act {α : Type} {o : Inbox.Op} {f : Inbox.Ans Unit o → Inbox.M Unit α} :
    (Inbox.act o >>= f).run.runWith (inboxAnswer digestBytes project i) w =
      (f (inboxAnswer digestBytes project i o w).1).run.runWith (inboxAnswer digestBytes project i)
        (inboxAnswer digestBytes project i o w).2 := rfl

theorem run_createHead (hwritable : w.writable = true) (hheld : Held key w) :
    ∃ w', (createHead key : Inbox.M Unit Unit).run.runWith (inboxAnswer digestBytes project i) w = (.ok (), w') ∧
      w'.writable = true ∧ Held key w' ∧ pendingAt (w'.inbox key) = pendingAt (w.inbox key) := by
  have hempty : Inbox.marshal [] = some ⟨.document ⟨triggerInboxSchema, []⟩, 0⟩ := rfl
  unfold createHead
  rw [run_act, show inboxAnswer digestBytes project i .loadHeadExists w = (w.headExists i, w) from rfl, hempty]
  cases hexists : w.headExists i with
  | true => exact ⟨w, rfl, hwritable, hheld, rfl⟩
  | false =>
    simp only [Bool.false_eq_true, if_false]
    rw [run_act]
    cases hhead : w.inbox key with
    | nil =>
      rw [inboxAnswer_created hkey.partition hkey.valid hwritable hhead]
      exact ⟨_, rfl, hwritable, held_written ⟨[], rfl, fun e he => absurd he List.not_mem_nil⟩, pendingAt_written rfl⟩
    | cons head rest =>
      rw [inboxAnswer_conflict hkey (by rw [hhead]; exact List.cons_ne_nil head rest)]
      exact ⟨_, rfl, hwritable, hheld, congrArg pendingAt hhead⟩

/-- What `read` has found. -/
def Current (key : String) (w : World L κ) (found : Document × String) : Prop :=
  found.1.events = pendingAt (w.inbox key) ∧
    (found.2 = "" ∧ w.inbox key = [] ∨ found.2 ≠ "" ∧ ∃ head rest, w.inbox key = head :: rest ∧ head.etag = found.2)

theorem run_read (hwritable : w.writable = true) (hheld : Held key w)
    (hreadable : (strictJSON ⟨.document ⟨triggerInboxSchema, pendingAt (w.inbox key)⟩, 0⟩).isSome) :
    ∃ w' found, (Inbox.read key : Inbox.M Unit (Document × String)).run.runWith (inboxAnswer digestBytes project i) w =
        (.ok found, w') ∧
      w'.writable = true ∧ Held key w' ∧ pendingAt (w'.inbox key) = pendingAt (w.inbox key) ∧ Current key w' found := by
  obtain ⟨w₁, hcreate, hwritable₁, hheld₁, hpending⟩ := @run_createHead _ _ digestBytes project key w _ i
    hkey hwritable hheld
  rw [← hpending] at hreadable
  unfold Inbox.read
  rw [runWith_ok hcreate, run_act]
  cases hhead : w₁.inbox key with
  | nil =>
    rw [inboxAnswer_absent hkey hhead]
    refine ⟨w₁, (⟨triggerInboxSchema, []⟩, ""), rfl, hwritable₁, hheld₁, hpending, ?_, .inl ⟨rfl, hhead⟩⟩
    rw [hhead]
    rfl
  | cons head rest =>
    obtain ⟨hetag, hcontents, -⟩ := hheld₁.cons hhead
    rw [inboxAnswer_found hkey hhead, Inbox.checkDocument_found hcontents hetag hreadable]
    exact ⟨w₁, _, rfl, hwritable₁, hheld₁, hpending, rfl, .inr ⟨hetag, head, rest, hhead, rfl⟩⟩

/-- The conditional write of a document that was read. -/
theorem run_write (hwritable : w.writable = true) {found : Document × String} (hfound : Current key w found) (contents : Text)
    (change : Change) :
    ∃ object, (Inbox.write key found.2 contents change : Inbox.M Unit _).run.runWith (inboxAnswer digestBytes project i) w =
      (.ok (.applied object), written digestBytes key contents w) := by
  unfold Inbox.write
  rcases hfound.2 with ⟨htag, hnil⟩ | ⟨htag, head, rest, hhead, hetag⟩
  · rw [if_pos htag]
    have hanswer := @inboxAnswer_created _ _ digestBytes project key w _ i hkey.partition hkey.valid
      hwritable hnil contents change
    exact ⟨_, congrArg (fun r => (Except.ok r.1, r.2)) hanswer⟩
  · rw [if_neg htag, ← hetag]
    have hanswer := @inboxAnswer_swapped _ _ digestBytes project key w _ i hkey hwritable head rest hhead contents change
    exact ⟨_, congrArg (fun r => (Except.ok r.1, r.2)) hanswer⟩

/-- **What `Add` leaves pending**: an event is added once. -/
def Takes (old : List PendingTriggerEvent) (event : PendingTriggerEvent) (new : List PendingTriggerEvent) : Prop :=
  event.id ∈ ids old ∧ new = old ∨ WithinBounds old event ∧ new = old ++ [stored event]

theorem run_attempt (hwritable : w.writable = true) (hheld : Held key w) {found : Document × String} (hfound : Current key w found)
    {event : PendingTriggerEvent} (hevent : Json.parse maxNestingDepth event.event ≠ none) (retry : Inbox.M Unit Unit)
    {new : List PendingTriggerEvent} (htakes : Takes (pendingAt (w.inbox key)) event new) :
    ∃ w', (attemptWith key (added event) (.add event) retry found).run.runWith (inboxAnswer digestBytes project i) w = (.ok (), w') ∧
      pendingAt (w'.inbox key) = new := by
  rcases htakes with ⟨hid, rfl⟩ | ⟨⟨hid, hroom, hbound⟩, rfl⟩
  · rw [Inbox.attemptWith_added retry (by rw [hfound.1]; exact hid)]
    exact ⟨w, rfl, rfl⟩
  · have hadded := Inbox.added_new hid (Nat.not_le.2 hroom)
    have hmarshal := Inbox.marshal_append hheld.canonical hevent
    unfold attemptWith
    rw [hfound.1]
    simp only [hadded, Inbox.equalPendingEvents_append, hmarshal, Bool.false_eq_true, if_false]
    rw [if_neg (Nat.not_lt.2 hbound)]
    obtain ⟨object, hwrite⟩ := @run_write _ _ digestBytes project key w _ i hkey hwritable found hfound
      ⟨.document ⟨triggerInboxSchema, pendingAt (w.inbox key) ++ [stored event]⟩, 0⟩ (.add event)
    rw [runWith_ok hwrite]
    exact ⟨_, rfl, pendingAt_written rfl⟩

theorem run_add (hwritable : w.writable = true) (hheld : Held key w) {event : PendingTriggerEvent}
    (hadmissible : Admissible (pendingAt (w.inbox key)) event) {new : List PendingTriggerEvent}
    (htakes : Takes (pendingAt (w.inbox key)) event new) :
    ∃ w', (Inbox.add key event : Inbox.M Unit Unit).run.runWith (inboxAnswer digestBytes project i) w = (.ok (), w') ∧
      pendingAt (w'.inbox key) = new := by
  obtain ⟨hevent, hreadable⟩ := hadmissible
  obtain ⟨w₁, found, hread, hwritable₁, hheld₁, hpending, hfound⟩ := @run_read _ _ digestBytes project key w _ i
    hkey hwritable hheld hreadable
  unfold Inbox.add
  rw [if_neg hevent]
  have hupdate : (Inbox.update key (added event) (.add event) Inbox.maxTriggerInboxAttempts : Inbox.M Unit Unit) =
      Inbox.read key >>= attemptWith key (added event) (.add event) (Inbox.update key (added event) (.add event) 7) := rfl
  rw [hupdate, runWith_ok hread]
  exact run_attempt hkey hwritable₁ hheld₁ hfound (fun hnone => hevent (.inr hnone)) _ (by rw [hpending]; exact htakes)

end

/-! ## One store for a key -/

/-- **The store is one object store for a key**: its three methods act on one partition, which is that of the files for the key of
a trigger inbox; only the head of a connection is synchronized and written back; and a trigger inbox takes an event, after any
calls on inboxes of its key, while the files are writable. -/
structure OneStore (digestBytes : Text → String) (project : Project L) (κ : Type) [DecidableEq κ] (k : ScopedKey) : Prop where
  partition    : ∃ p, (p = .inbox ↔ isTriggerInbox k.key = true) ∧ (∀ version, ActsOn p (readObject k.path version)) ∧
    (∀ contents, ActsOn p (createObject k.path contents)) ∧
    ∀ expectedETag contents, ActsOn p (compareAndSwapObject k.path expectedETag contents)
  synchronized : (∀ version, Reaches Op.isSync (readObject k.path version) ↔ isHead k.key = true) ∧
    (∀ expectedETag contents, Reaches Op.isSync (compareAndSwapObject k.path expectedETag contents) ↔ isHead k.key = true) ∧
    ∀ contents, ¬ Reaches Op.isSync (createObject k.path contents)
  writtenBack  : (∀ expectedETag contents, Reaches Op.isWriteBack (compareAndSwapObject k.path expectedETag contents) ↔
      isHead k.key = true) ∧
    (∀ version, ¬ Reaches Op.isWriteBack (readObject k.path version)) ∧
    ∀ contents, ¬ Reaches Op.isWriteBack (createObject k.path contents)
  accepts      : isTriggerInbox k.key = true → ∀ (start : World L κ) (before : List (Turn κ)) (i : κ) (event : PendingTriggerEvent)
      (w : World L κ) (new : List PendingTriggerEvent), start.inbox k.path = [] →
    w = { turns digestBytes project k.path before start with writable := true } →
    Admissible (pendingAt (w.inbox k.path)) event → Takes (pendingAt (w.inbox k.path)) event new →
    ∃ w', (Inbox.add k.path event : Inbox.M Unit Unit).run.runWith (inboxAnswer digestBytes project i) w = (.ok (), w') ∧
      pendingAt (w'.inbox k.path) = new

/-- **The store is one object store for a key exactly when no identifier in it reads like the name of another kind of key.** -/
theorem one_store_iff (digestBytes : Text → String) (project : Project L) (k : ScopedKey) :
    OneStore digestBytes project κ k ↔ Clear k := by
  rw [clear_iff]
  constructor
  · rintro ⟨⟨p, hp, hread, -, -⟩, ⟨hsync, -⟩, -, -⟩
    have hpartition := (actsOn_read k.path "").1 (hread "")
    rw [hpartition] at hp
    refine ⟨hp, ?_⟩
    rw [← hsync "", reaches_read]
    simp [Op.isSync]
  · rintro ⟨hpartition, hhead⟩
    have hmemory : isConnectionHead k.path = true → DexWeb.partition k.path = .memory := by
      intro h
      cases hp : DexWeb.partition k.path with
      | memory => rfl
      | inbox =>
        have hinbox := hpartition.1 hp
        have hishead := hhead.1 h
        cases hkey : k.key <;> rw [hkey] at hinbox hishead <;> cases hinbox
        cases hishead
    refine ⟨⟨DexWeb.partition k.path, hpartition, fun version => (actsOn_read k.path version).2 rfl,
      fun contents => (actsOn_create k.path contents).2 rfl, fun expectedETag contents => (actsOn_swap k.path expectedETag contents).2 ?_⟩,
      ⟨fun version => ?_, fun expectedETag contents => ?_, fun contents => ?_⟩,
      ⟨fun expectedETag contents => ?_, fun version => ?_, fun contents => ?_⟩, ?_⟩
    · split
      next h => exact hmemory h
      · rfl
    · rw [← hhead, reaches_read]
      simp [Op.isSync]
    · rw [← hhead]
      cases h : isConnectionHead k.path with
      | true => simp [reaches_swap_head k.path expectedETag contents h, Op.isSync]
      | false => simp [reaches_swap k.path expectedETag contents h, Op.isSync]
    · rw [reaches_create]
      exact id
    · rw [← hhead]
      cases h : isConnectionHead k.path with
      | true =>
        rw [reaches_swap_head k.path expectedETag contents h]
        exact ⟨fun _ => rfl, fun _ => .inr (.inr ⟨⟨"", "", contents, ()⟩, trivial⟩)⟩
      | false => simp [reaches_swap k.path expectedETag contents h, Op.isWriteBack]
    · rw [reaches_read]
      simp [Op.isWriteBack]
    · rw [reaches_create]
      exact id
    · rintro htrigger start before i event w new hstart rfl hadmissible htakes
      have hnot : isConnectionHead k.path = false := by
        cases h : isConnectionHead k.path with
        | false => rfl
        | true =>
          have hmem := hmemory h
          rw [hpartition.2 htrigger] at hmem
          cases hmem
      have hkey : InFiles k.path := ⟨hpartition.2 htrigger, hnot, isObjectKey_path k⟩
      have hheld : Held k.path start := fun head hhead => by
        rw [hstart] at hhead
        cases hhead
      have hturns : Held k.path { turns digestBytes project k.path before start with writable := true } := held_turns before hheld
      exact run_add hkey rfl hturns hadmissible htakes

/-- The inbox of a trigger whose connector is called `connections`. -/
def connectionsInbox : ScopedKey :=
  ⟨⟨"local", "preview"⟩, "projects/local/preview", rfl, .triggerInbox ⟨"connections", ascii "main", "onEvent", ascii "binding"⟩, by decide⟩

def sampleProject : Project Unit := ⟨fun project memory => (.ok (), project, memory), fun _ project _ => project⟩

theorem inboxAnswer_head {i : κ} {w : World Unit κ} (hpartition : DexWeb.partition key = .inbox)
    (hhead : isConnectionHead key = true) (hvalid : LocalStore.isObjectKey (ascii key) = true) {head : StoredObject}
    {rest : List StoredObject} (h : w.inbox key = head :: rest) :
    inboxAnswer digestBytes sampleProject i (.read key "") w = (.found head, w) := by
  have hread : (readObject key "").run.runWith (answer digestBytes sampleProject) w = (versionedRead w.inbox key "", w) := by
    unfold readObject
    rw [hhead, hpartition]
    rfl
  simp only [inboxAnswer, hread]
  unfold versionedRead
  rw [if_neg (by rw [hvalid]; exact Bool.false_ne_true)]
  simp [lookup, h, readAnswer]

theorem inboxAnswer_missing {i : κ} {w : World Unit κ} (hhead : isConnectionHead key = true)
    (hvalid : LocalStore.isObjectKey (ascii key) = true) (h : w.memory key = []) (etag : String) (contents : Text) (change : Change) :
    inboxAnswer digestBytes sampleProject i (.swap key etag contents change) w = (.failed, w) := by
  have hversioned : versionedSwap digestBytes true w.memory key etag contents = (.error .objectNotFound, w.memory) := by
    unfold versionedSwap
    rw [if_neg (by rw [hvalid]; exact Bool.false_ne_true), h]
  have hanswer : answer digestBytes sampleProject (.swap .memory key etag contents) w = (.error .objectNotFound, w) :=
    congrArg (fun r => (r.1, { w with memory := r.2 })) hversioned
  have hsync : sync.run.runWith (answer digestBytes sampleProject) w = (.ok (), w) := rfl
  have hswap : (compareAndSwapObject key etag contents).run.runWith (answer digestBytes sampleProject) w =
      (.error .objectNotFound, w) := by
    unfold compareAndSwapObject
    rw [hhead, if_neg (by decide), runWith_ok hsync]
    show (swapped (answer digestBytes sampleProject (.swap .memory key etag contents) w).1).run.runWith
      (answer digestBytes sampleProject) (answer digestBytes sampleProject (.swap .memory key etag contents) w).2 = _
    rw [hanswer]
    rfl
  simp only [inboxAnswer, hswap]
  rfl

/-- **The head of such an inbox is created among the files, and its events are written to memory**, where it is not. -/
theorem refused_add {i : κ} {w : World Unit κ} (hpartition : DexWeb.partition key = .inbox) (hhead : isConnectionHead key = true)
    (hvalid : LocalStore.isObjectKey (ascii key) = true) (hwritable : w.writable = true) (hinbox : w.inbox key = [])
    (hmemory : w.memory key = []) (hnew : w.headExists i = false) {event : PendingTriggerEvent} (hadmissible : Admissible [] event)
    (hwithin : WithinBounds [] event) :
    ((Inbox.add key event : Inbox.M Unit Unit).run.runWith (inboxAnswer digestBytes sampleProject i) w).1 = .error .storage := by
  obtain ⟨hevent, hreadable⟩ := hadmissible
  obtain ⟨hid, hroom, hbound⟩ := hwithin
  have hempty : Inbox.marshal [] = some ⟨.document ⟨triggerInboxSchema, []⟩, 0⟩ := rfl
  have hcreate : ∃ w', (createHead key : Inbox.M Unit Unit).run.runWith (inboxAnswer digestBytes sampleProject i) w = (.ok (), w') ∧
      w'.memory key = [] ∧ ∃ head rest, w'.inbox key = head :: rest ∧ head.etag ≠ "" ∧
        head.contents = ⟨.document ⟨triggerInboxSchema, []⟩, 0⟩ := by
    unfold createHead
    rw [run_act, show inboxAnswer digestBytes sampleProject i .loadHeadExists w = (w.headExists i, w) from rfl, hempty, hnew]
    simp only [Bool.false_eq_true, if_false]
    rw [run_act, inboxAnswer_created hpartition hvalid hwritable hinbox]
    exact ⟨_, rfl, hmemory, _, _, if_pos rfl, etag_ne _ _ _, rfl⟩
  obtain ⟨w₁, hcreate, hmemory₁, head, rest, hhead₁, hetag, hcontents⟩ := hcreate
  have hread : (Inbox.read key : Inbox.M Unit (Document × String)).run.runWith (inboxAnswer digestBytes sampleProject i) w =
      (.ok (⟨triggerInboxSchema, []⟩, head.etag), w₁) := by
    unfold Inbox.read
    rw [runWith_ok hcreate, run_act, inboxAnswer_head hpartition hhead hvalid hhead₁,
      Inbox.checkDocument_found hcontents hetag hreadable]
    rfl
  have hupdate : (Inbox.update key (added event) (.add event) Inbox.maxTriggerInboxAttempts : Inbox.M Unit Unit) =
      Inbox.read key >>= attemptWith key (added event) (.add event) (Inbox.update key (added event) (.add event) 7) := rfl
  have hadded := Inbox.added_new hid (Nat.not_le.2 hroom)
  have hmarshal := @Inbox.marshal_append [] event (fun e he => absurd he List.not_mem_nil) (fun hnone => hevent (.inr hnone))
  unfold Inbox.add
  rw [if_neg hevent, hupdate, runWith_ok hread]
  unfold attemptWith
  simp only [hadded, Inbox.equalPendingEvents_append, hmarshal, Bool.false_eq_true, if_false]
  rw [if_neg (Nat.not_lt.2 hbound)]
  unfold Inbox.write
  rw [if_neg hetag, run_act, inboxAnswer_missing hhead hvalid hmemory₁]
  rfl

/-- The key of a connector that is called `connections`, and an event that its inbox refuses. -/
theorem connections_inbox_refused : ¬ OneStore (fun _ => "") sampleProject Unit connectionsInbox ∧
    ((Inbox.add connectionsInbox.path Inbox.sampleEvent : Inbox.M Unit Unit).run.runWith (inboxAnswer (fun _ => "") sampleProject ())
      ⟨fun _ => [], fun _ => [], (), true, fun _ => false⟩).1 = .error .storage := by
  constructor
  · intro h
    exact absurd (((one_store_iff (fun _ => "") sampleProject connectionsInbox).1 h).connections (.inl rfl)) (by decide)
  · have hpartition : DexWeb.partition connectionsInbox.path = .inbox := (partition_iff connectionsInbox).2 (.inl rfl)
    have hhead : isConnectionHead connectionsInbox.path = true :=
      (isConnectionHead_iff connectionsInbox).2 (.inr (.inl ⟨.inl rfl, by decide⟩))
    exact refused_add hpartition hhead (isObjectKey_path connectionsInbox) rfl rfl rfl rfl ⟨by decide, rfl⟩
      ⟨List.not_mem_nil, by decide, by decide⟩

end DexWeb
end Dex
