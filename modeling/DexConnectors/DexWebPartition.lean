import DexConnectors.DexWebStore
import DexConnectors.ObjectKeysDistinct
import DexConnectors.InboxCapacity
/-!
# DexWebPartition — which partition a key belongs to (`sdkgo/projectconfig/dexweb.go`)

`partition` and `isConnectionHead` look for a segment anywhere in a key.  A key is in the place its kind asks for exactly when no
identifier in it reads like the name of another kind.
-/
namespace Dex
namespace DexWeb

open Lib Lib.Store Lib.Utf8 ConfigStore ObjectKeys

/-! ## What a method does -/

/-- Some run of the method performs such an operation. -/
def Reaches {α : Type} (φ : Op → Prop) (m : M α) : Prop := ¬ m.run.Performs (fun o => ¬ φ o)

def Op.partition : Op → Option Partition
  | .read partition _ _ | .create partition _ _ | .swap partition _ _ _ => some partition
  | .sync | .writeBack _ => none

/-- What a method asks of the partitions, it asks of this one. -/
def ActsOn {α : Type} (p : Partition) (m : M α) : Prop := ∀ q, Reaches (fun o => o.partition = some q) m ↔ q = p

def Op.isSync : Op → Prop
  | .sync => True
  | _ => False

def Op.isWriteBack : Op → Prop
  | .writeBack _ => True
  | _ => False

theorem performs_orRaise {α : Type} {ψ : Op → Prop} (r : Except Err α) : (Method.orRaise r : M α).run.Performs ψ := trivial

theorem performs_read {ψ : Op → Prop} (key version : String) :
    (readObject key version).run.Performs ψ ↔
      (isConnectionHead key = true → ψ .sync) ∧ ψ (.read (DexWeb.partition key) key version) := by
  unfold readObject
  cases isConnectionHead key with
  | false => exact ⟨fun h => ⟨fun hf => (by cases hf), h.1⟩, fun h => ⟨h.2, fun r => performs_orRaise r⟩⟩
  | true =>
    constructor
    · intro h
      exact ⟨fun _ => h.1, (h.2 (.ok ())).1⟩
    · rintro ⟨hsync, hread⟩
      refine ⟨hsync rfl, fun r => ?_⟩
      cases r with
      | error e => trivial
      | ok _ => exact ⟨hread, fun r => performs_orRaise r⟩

theorem performs_create {ψ : Op → Prop} (key : String) (contents : Text) :
    (createObject key contents).run.Performs ψ ↔ ψ (.create (DexWeb.partition key) key contents) :=
  ⟨And.left, fun h => ⟨h, fun r => performs_orRaise r⟩⟩

theorem performs_swap {ψ : Op → Prop} (key expectedETag : String) (contents : Text) :
    (compareAndSwapObject key expectedETag contents).run.Performs ψ ↔
      if isConnectionHead key = true then
        ψ .sync ∧ ψ (.swap .memory key expectedETag contents) ∧ ∀ head, ψ (.writeBack head)
      else ψ (.swap (DexWeb.partition key) key expectedETag contents) := by
  unfold compareAndSwapObject
  cases isConnectionHead key with
  | false => exact ⟨fun h => h.1, fun h => ⟨h, fun r => performs_orRaise r⟩⟩
  | true =>
    rw [if_pos rfl]
    constructor
    · intro h
      have hswap := h.2 (.ok ())
      exact ⟨h.1, hswap.1, fun head => (hswap.2 (.ok head)).1⟩
    · rintro ⟨hsync, hswap, hback⟩
      refine ⟨hsync, fun r => ?_⟩
      cases r with
      | error e => trivial
      | ok _ =>
        refine ⟨hswap, fun r => ?_⟩
        cases r with
        | error e => trivial
        | ok head => exact ⟨hback head, fun _ => trivial⟩

section

variable {φ : Op → Prop} (key version expectedETag : String) (contents : Text)

theorem reaches_read : Reaches φ (readObject key version) ↔
    isConnectionHead key = true ∧ φ .sync ∨ φ (.read (DexWeb.partition key) key version) := by
  unfold Reaches
  rw [performs_read]
  tauto

theorem reaches_create : Reaches φ (createObject key contents) ↔ φ (.create (DexWeb.partition key) key contents) := by
  unfold Reaches
  rw [performs_create, not_not]

theorem reaches_swap_head (h : isConnectionHead key = true) : Reaches φ (compareAndSwapObject key expectedETag contents) ↔
    φ .sync ∨ φ (.swap .memory key expectedETag contents) ∨ ∃ head, φ (.writeBack head) := by
  unfold Reaches
  rw [performs_swap, if_pos h, not_and_or, not_and_or, not_not, not_not, not_forall]
  simp only [not_not]

theorem reaches_swap (h : isConnectionHead key = false) : Reaches φ (compareAndSwapObject key expectedETag contents) ↔
    φ (.swap (DexWeb.partition key) key expectedETag contents) := by
  unfold Reaches
  rw [performs_swap, if_neg (by rw [h]; exact Bool.false_ne_true), not_not]

theorem actsOn_read {p : Partition} : ActsOn p (readObject key version) ↔ p = DexWeb.partition key := by
  unfold ActsOn
  simp only [reaches_read, Op.partition, reduceCtorEq, and_false, false_or, Option.some.injEq]
  exact ⟨fun h => ((h _).1 rfl).symm, fun h q => by rw [h, eq_comm]⟩

theorem actsOn_create {p : Partition} : ActsOn p (createObject key contents) ↔ p = DexWeb.partition key := by
  unfold ActsOn
  simp only [reaches_create, Op.partition, Option.some.injEq]
  exact ⟨fun h => ((h _).1 rfl).symm, fun h q => by rw [h, eq_comm]⟩

theorem actsOn_swap {p : Partition} : ActsOn p (compareAndSwapObject key expectedETag contents) ↔
    p = if isConnectionHead key = true then .memory else DexWeb.partition key := by
  unfold ActsOn
  cases h : isConnectionHead key with
  | true =>
    simp only [reaches_swap_head key expectedETag contents h, Op.partition, reduceCtorEq, false_or, exists_false, or_false,
      Option.some.injEq, if_true]
    exact ⟨fun h => ((h _).1 rfl).symm, fun h q => by rw [h, eq_comm]⟩
  | false =>
    simp only [reaches_swap key expectedETag contents h, Op.partition, Option.some.injEq, Bool.false_eq_true, if_false]
    exact ⟨fun h => ((h _).1 rfl).symm, fun h q => by rw [h, eq_comm]⟩

end

/-! ## Where a key belongs -/

def isTriggerInbox : ObjectKey → Bool
  | .triggerInbox _ => true
  | _ => false

def isHead : ObjectKey → Bool
  | .connectionHead _ => true
  | _ => false

/-- The identifiers between the slashes of a key. -/
def identifiers (k : ScopedKey) : List (List Char) :=
  k.scope.projectID.toList ::
    match k.key with
    | .connectionHead key | .credential key _ | .exchangeResult key _ =>
      [key.connectorID.toList, Connections.base64URL key.connectionName]
    | .triggerInbox key =>
      [key.connectorID.toList, Connections.base64URL key.connectionName, key.triggerName.toList,
        Connections.base64URL key.bindingName]
    | .applicationSecret name _ => [name.toList]
    | .configuration => []

/-- **No identifier reads like the name of another kind of key.** -/
structure Clear (k : ScopedKey) : Prop where
  triggerInboxes : isTriggerInbox k.key = false → "trigger-inboxes".toList ∉ identifiers k
  connections    : isTriggerInbox k.key = true ∨ k.key = .configuration → "connections".toList ∉ identifiers k
  attempt        : ∀ key, k.key ≠ .exchangeResult key "head"

theorem contains_path (k : ScopedKey) {part : String} {segment : List Char} (hpart : part.toList = '/' :: segment ++ ['/'])
    (h : '/' ∉ segment) : contains part k.path = true ↔
      segment ∈ k.scope.projectID.toList :: k.scope.kind.toList :: k.key.segments.dropLast := by
  have hne : k.key.segments ≠ [] := by
    cases k.key <;> exact List.cons_ne_nil _ _
  unfold contains
  rw [decide_eq_true_eq, toList_path, hpart, Segments.between_iff k.plain k.segments_ne_nil h, Segments.inner_iff]
  unfold ScopedKey.segments
  rw [List.tail_cons, List.dropLast_cons_of_ne_nil (List.cons_ne_nil _ _), List.dropLast_cons_of_ne_nil hne]

theorem endsWith_path (k : ScopedKey) : endsWith "/head" k.path = true ↔ k.key.segments.getLast? = some "head".toList := by
  have hne : k.key.segments ≠ [] := by
    cases k.key <;> exact List.cons_ne_nil _ _
  have hhead : "/head".toList = '/' :: "head".toList := by decide
  unfold endsWith
  rw [List.isSuffixOf_iff_suffix, toList_path, hhead, Segments.ends_iff k.plain k.segments_ne_nil (by decide)]
  have hlast : k.segments.getLast? = k.key.segments.getLast? := by
    unfold ScopedKey.segments
    rw [List.getLast?_cons_of_ne_nil (List.cons_ne_nil _ _), List.getLast?_cons_of_ne_nil (List.cons_ne_nil _ _),
      List.getLast?_cons_of_ne_nil hne]
  rw [← hlast]
  constructor
  · rintro ⟨pre, hsegments, -⟩
    rw [hsegments, List.getLast?_concat]
  · intro h
    obtain ⟨pre, hsegments⟩ := List.getLast?_eq_some_iff.1 h
    refine ⟨pre, hsegments, ?_⟩
    rintro rfl
    have hlength := congrArg List.length hsegments
    unfold ScopedKey.segments at hlength
    simp at hlength

theorem triggerInboxes_plain : '/' ∉ "trigger-inboxes".toList := by decide

theorem connections_plain : '/' ∉ "connections".toList := by decide

theorem kind_ne {k : ScopedKey} {text : List Char} (hlive : text ≠ "live".toList) (hpreview : text ≠ "preview".toList) :
    text ≠ k.scope.kind.toList := by
  obtain ⟨-, hkind, -⟩ := scopePrefix_ok k.isScope
  rcases hkind with hkind | hkind
  · rw [hkind]
    exact hlive
  · rw [hkind]
    exact hpreview

/-- **The files partition** takes a key of a trigger inbox, and one that reads like it. -/
theorem partition_iff (k : ScopedKey) : DexWeb.partition k.path = .inbox ↔
    isTriggerInbox k.key = true ∨ "trigger-inboxes".toList ∈ identifiers k := by
  have hcontains := @contains_path k "/trigger-inboxes/" _ (by decide) triggerInboxes_plain
  have hkind : "trigger-inboxes".toList ≠ k.scope.kind.toList := kind_ne (by decide) (by decide)
  have hpartition : DexWeb.partition k.path = .inbox ↔ contains "/trigger-inboxes/" k.path = true := by
    unfold DexWeb.partition
    cases contains "/trigger-inboxes/" k.path <;> decide
  rw [hpartition, hcontains]
  unfold identifiers
  cases k.key with
  | connectionHead key => simp [-String.reduceToList, String.toList_inj, ObjectKey.segments, isTriggerInbox, hkind]
  | credential key digest => simp [-String.reduceToList, String.toList_inj, ObjectKey.segments, isTriggerInbox, hkind]
  | exchangeResult key attemptID => simp [-String.reduceToList, String.toList_inj, ObjectKey.segments, isTriggerInbox, hkind]
  | triggerInbox key => simp [-String.reduceToList, String.toList_inj, ObjectKey.segments, isTriggerInbox]
  | applicationSecret name identifier => simp [-String.reduceToList, String.toList_inj, ObjectKey.segments, isTriggerInbox, hkind]
  | configuration => simp [-String.reduceToList, String.toList_inj, ObjectKey.segments, isTriggerInbox, hkind]

/-- The text of an identifier that is not `head`. -/
theorem ne_head {text : List Char} {n : Nat} (h : text.length = n) (hn : n ≠ 4) : text ≠ "head".toList := by
  rintro rfl
  exact hn (h.symm.trans rfl)

/-- **What is taken for the head of a connection.** -/
theorem isConnectionHead_iff (k : ScopedKey) : isConnectionHead k.path = true ↔
    isHead k.key = true ∨ (isTriggerInbox k.key = true ∨ k.key = .configuration) ∧ "connections".toList ∈ identifiers k ∨
      ∃ key, k.key = .exchangeResult key "head" := by
  have hcontains := @contains_path k "/connections/" _ (by decide) connections_plain
  have hkind : "connections".toList ≠ k.scope.kind.toList := kind_ne (by decide) (by decide)
  unfold isConnectionHead
  rw [Bool.and_eq_true, hcontains, endsWith_path]
  have hvalid := k.isValid
  unfold identifiers
  revert hvalid
  cases k.key with
  | connectionHead key => exact fun _ => by simp [-String.reduceToList, String.toList_inj, ObjectKey.segments, isHead]
  | credential key digest =>
    intro hvalid
    have hdigest : digest.toList ≠ "head".toList :=
      ne_head (eq_of_beq (Bool.and_eq_true_iff.1 (Bool.and_eq_true_iff.1 hvalid).2).1) (by decide)
    have hdigest' : digest ≠ "head" := fun h => hdigest (by rw [h])
    simp [-String.reduceToList, String.toList_inj, ObjectKey.segments, isHead, isTriggerInbox, hdigest]
  | exchangeResult key attemptID =>
    intro _
    simp [-String.reduceToList, String.toList_inj, ObjectKey.segments, isHead, isTriggerInbox]
  | triggerInbox key =>
    intro _
    simp [-String.reduceToList, String.toList_inj, ObjectKey.segments, isHead, isTriggerInbox, hkind]
  | applicationSecret name identifier =>
    intro hvalid
    have hidentifier : identifier.toList ≠ "head".toList :=
      ne_head (eq_of_beq (Bool.and_eq_true_iff.1 (Bool.and_eq_true_iff.1 hvalid).2).1) (by decide)
    simp [-String.reduceToList, String.toList_inj, ObjectKey.segments, isHead, isTriggerInbox, hidentifier]
  | configuration =>
    intro _
    simp [-String.reduceToList, String.toList_inj, ObjectKey.segments, isHead, isTriggerInbox, hkind]

theorem clear_iff (k : ScopedKey) : Clear k ↔
    (DexWeb.partition k.path = .inbox ↔ isTriggerInbox k.key = true) ∧ (isConnectionHead k.path = true ↔ isHead k.key = true) := by
  rw [partition_iff, isConnectionHead_iff]
  constructor
  · rintro ⟨hinbox, hconnections, hattempt⟩
    refine ⟨⟨fun h => ?_, .inl⟩, ⟨fun h => ?_, .inl⟩⟩
    · rcases h with h | h
      · exact h
      · by_contra hnot
        exact hinbox (Bool.eq_false_iff.2 hnot) h
    · rcases h with h | ⟨hkind, h⟩ | ⟨key, h⟩
      · exact h
      · exact absurd h (hconnections hkind)
      · exact absurd h (hattempt key)
  · rintro ⟨hinbox, hhead⟩
    refine ⟨fun hnot h => ?_, fun hkind h => ?_, fun key h => ?_⟩
    · rw [hinbox.1 (.inr h)] at hnot
      cases hnot
    · have hishead := hhead.1 (.inr (.inl ⟨hkind, h⟩))
      rcases hkind with hkind | hkind
      · cases hkey : k.key <;> rw [hkey] at hkind hishead <;> cases hkind
        cases hishead
      · rw [hkind] at hishead
        cases hishead
    · have hishead := hhead.1 (.inr (.inr ⟨key, h⟩))
      rw [h] at hishead
      cases hishead

end DexWeb
end Dex
