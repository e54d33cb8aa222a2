import DexConnectors.LibRecency
import DexConnectors.LibUtf8
/-!
# IssuedRevisions — the revisions a shared connection remembers (`shared_connection_calls.go`, `broker.py`, `shared_connections.ts`)

A shared connection remembers which revision it issued to a call, for at most 4096 calls.  The Go list is ordered by the last
issue to a call; a Python `dict` and a JavaScript `Map` keep a key in its place when it is assigned again, so what they give
up is the call that came first.
-/
namespace Dex
namespace Issued

open Lib Lib.Recency

def maximumIssuedCalls : Nat := 4096

/-- Ten minutes, in nanoseconds. -/
def issuedCallRetention : Int := 600 * 1000000000

structure IssuedCredential where
  revision : Nat
  issuedAt : Int
  deriving DecidableEq

/-- A revision is issued to a call, which has no identity when its id is empty. -/
structure Issue where
  callID   : Bytes
  revision : Nat
  time     : Int

def Issue.entry (i : Issue) : Bytes × IssuedCredential := (i.callID, ⟨i.revision, i.time⟩)

namespace Go

/-- The loop at the end of `recordIssued`, over `issuedOrder` from its front. -/
def forget (now : Int) : List (Bytes × IssuedCredential) → List (Bytes × IssuedCredential)
  | [] => []
  | oldest :: rest =>
    if (oldest :: rest).length ≤ maximumIssuedCalls ∧ now - oldest.2.issuedAt < issuedCallRetention then oldest :: rest
    else forget now rest

/-- `recordIssued`, on `issuedOrder`, whose elements `issuedByCall` finds by their call. -/
def recordIssued (issuedOrder : List (Bytes × IssuedCredential)) (i : Issue) : List (Bytes × IssuedCredential) :=
  if i.callID = [] then issuedOrder
  else forget i.time
    (if i.callID ∈ issuedOrder.map Prod.fst then others i.callID issuedOrder ++ [i.entry] else issuedOrder ++ [i.entry])

def table (issues : List Issue) : List (Bytes × IssuedCredential) := issues.foldl recordIssued []

end Go

namespace Python

/-- `_record_issued`. -/
def recordIssued (issuedByCall : List (Bytes × IssuedCredential)) (i : Issue) : List (Bytes × IssuedCredential) :=
  if i.callID = [] then issuedByCall
  else
    let assigned := assign issuedByCall i.callID ⟨i.revision, i.time⟩
    if maximumIssuedCalls < assigned.length then
      let kept := assigned.filter (fun e => decide (i.time - issuedCallRetention < e.2.issuedAt))
      if maximumIssuedCalls < kept.length then kept.tail else kept
    else assigned

def table (issues : List Issue) : List (Bytes × IssuedCredential) := issues.foldl recordIssued []

end Python

namespace TypeScript

/-- `rememberIssued`. -/
def rememberIssued (issuedByCall : List (Bytes × Nat)) (i : Issue) : List (Bytes × Nat) :=
  let assigned := assign issuedByCall i.callID i.revision
  if maximumIssuedCalls < assigned.length then assigned.tail else assigned

def table (issues : List Issue) : List (Bytes × Nat) := issues.foldl rememberIssued []

end TypeScript

/-! ## What a table should hold -/

/-- The issues to calls that have an identity, newest first. -/
def history (issues : List Issue) : List (Bytes × IssuedCredential) :=
  ((issues.filter (fun i => i.callID != [])).map Issue.entry).reverse

/-- `rememberIssued` takes the empty id for a call as well. -/
def TypeScript.history (issues : List Issue) : List (Bytes × Nat) := (issues.map (fun i => (i.callID, i.revision))).reverse

/-- Issues one after another, all within the retention. -/
def Within (issues : List Issue) : Prop :=
  issues.Pairwise (fun a b => a.time ≤ b.time ∧ b.time - a.time < issuedCallRetention)

def Go.Keeps (issues : List Issue) : Prop := Holds maximumIssuedCalls (Go.table issues) (history issues)

def Python.Keeps (issues : List Issue) : Prop := Holds maximumIssuedCalls (Python.table issues) (history issues)

def TypeScript.Keeps (issues : List Issue) : Prop := Holds maximumIssuedCalls (TypeScript.table issues) (TypeScript.history issues)

theorem history_append_empty {issues : List Issue} {i : Issue} (h : i.callID = []) : history (issues ++ [i]) = history issues := by
  unfold history
  have hnone : [i].filter (fun i => i.callID != []) = [] := by
    rw [List.filter_eq_nil_iff]
    intro j hj
    rw [List.mem_singleton.1 hj, h]
    decide
  rw [List.filter_append, hnone, List.append_nil]

theorem history_append {issues : List Issue} {i : Issue} (h : i.callID ≠ []) :
    history (issues ++ [i]) = i.entry :: history issues := by
  unfold history
  have hsome : [i].filter (fun i => i.callID != []) = [i] := List.filter_cons_of_pos (bne_iff_ne.2 h)
  rw [List.filter_append, hsome, List.map_append, List.map_singleton, List.reverse_append]
  rfl

theorem TypeScript.history_append (issues : List Issue) (i : Issue) :
    TypeScript.history (issues ++ [i]) = (i.callID, i.revision) :: TypeScript.history issues := by
  unfold TypeScript.history
  rw [List.map_append, List.map_singleton, List.reverse_append]
  rfl

theorem Within.of_append {issues more : List Issue} (h : Within (issues ++ more)) : Within issues := (List.pairwise_append.1 h).1

/-- Nothing that was issued before is too old. -/
theorem Within.young {issues : List Issue} {i : Issue} (h : Within (issues ++ [i])) :
    ∀ e ∈ history issues, i.time - e.2.issuedAt < issuedCallRetention := by
  intro e he
  obtain ⟨a, ha, rfl⟩ := List.mem_map.1 (List.mem_reverse.1 he)
  exact ((List.pairwise_append.1 h).2.2 a (List.mem_filter.1 ha).1 i (List.mem_singleton_self i)).2

theorem young_new (i : Issue) : i.time - i.entry.2.issuedAt < issuedCallRetention := by
  show i.time - i.time < issuedCallRetention
  rw [Int.sub_self]
  decide

/-! ## Go -/

theorem Go.forget_same {now : Int} {order : List (Bytes × IssuedCredential)} (hlength : order.length ≤ maximumIssuedCalls)
    (hyoung : ∀ e ∈ order, now - e.2.issuedAt < issuedCallRetention) : Go.forget now order = order := by
  cases order with
  | nil => rfl
  | cons oldest rest => exact if_pos ⟨hlength, hyoung oldest List.mem_cons_self⟩

theorem Go.forget_full {now : Int} {oldest : Bytes × IssuedCredential} {rest : List (Bytes × IssuedCredential)}
    (hlength : rest.length = maximumIssuedCalls) (hyoung : ∀ e ∈ rest, now - e.2.issuedAt < issuedCallRetention) :
    Go.forget now (oldest :: rest) = rest := by
  have hover : ¬ ((oldest :: rest).length ≤ maximumIssuedCalls ∧ now - oldest.2.issuedAt < issuedCallRetention) := fun h => by
    have := h.1
    rw [List.length_cons] at this
    omega
  rw [Go.forget, if_neg hover, Go.forget_same (Nat.le_of_eq hlength) hyoung]

/-- **The Go list is the history of its calls**, the last issue at its back. -/
theorem Go.table_eq {issues : List Issue} (h : Within issues) :
    Go.table issues = (bounded maximumIssuedCalls (history issues)).reverse := by
  induction issues using List.reverseRecOn with
  | nil =>
    show [] = (bounded maximumIssuedCalls ([] : List (Bytes × IssuedCredential))).reverse
    unfold bounded recent
    rw [List.take_nil]
    rfl
  | append_singleton issues i ih =>
    have hbefore := ih h.of_append
    have hstep : Go.table (issues ++ [i]) = Go.recordIssued (Go.table issues) i := by
      unfold Go.table
      rw [List.foldl_append]
      rfl
    rw [hstep, hbefore]
    by_cases hid : i.callID = []
    · rw [Go.recordIssued, if_pos hid, history_append_empty hid]
    · have hmem : ∀ e ∈ bounded maximumIssuedCalls (history issues), i.time - e.2.issuedAt < issuedCallRetention :=
        fun e he => h.young e (mem_of_mem_recent (List.mem_of_mem_take he))
      have hkeys : (i.callID ∈ (bounded maximumIssuedCalls (history issues)).reverse.map Prod.fst) ↔
          i.callID ∈ (bounded maximumIssuedCalls (history issues)).map Prod.fst := by
        rw [List.map_reverse, List.mem_reverse]
      rw [Go.recordIssued, if_neg hid, history_append hid]
      by_cases hknown : i.callID ∈ (bounded maximumIssuedCalls (history issues)).map Prod.fst
      · rw [if_pos (hkeys.2 hknown)]
        have hothers : others i.callID (bounded maximumIssuedCalls (history issues)).reverse =
            (others i.callID (bounded maximumIssuedCalls (history issues))).reverse := List.filter_reverse
        have hnew : bounded maximumIssuedCalls (i.entry :: history issues) =
            i.entry :: others i.callID (bounded maximumIssuedCalls (history issues)) := bounded_known hknown _
        have hlength := length_bounded_le maximumIssuedCalls (i.entry :: history issues)
        rw [hothers, hnew, List.reverse_cons]
        rw [hnew] at hlength
        refine Go.forget_same ?_ ?_
        · rw [List.length_append, List.length_reverse, List.length_singleton]
          exact hlength
        · intro e he
          rcases List.mem_append.1 he with he | he
          · exact hmem e (mem_others.1 (List.mem_reverse.1 he)).1
          · rw [List.mem_singleton.1 he]
            exact young_new i
      · rw [if_neg (fun hm => hknown (hkeys.1 hm))]
        have hnew : bounded maximumIssuedCalls (i.entry :: history issues) =
            i.entry :: (bounded maximumIssuedCalls (history issues)).take 4095 := bounded_new hknown _
        rw [hnew, List.reverse_cons]
        have hyoung : ∀ {l : List (Bytes × IssuedCredential)}, (∀ e ∈ l, e ∈ bounded maximumIssuedCalls (history issues)) →
            ∀ e ∈ l.reverse ++ [i.entry], i.time - e.2.issuedAt < issuedCallRetention := by
          intro l hl e he
          rcases List.mem_append.1 he with he | he
          · exact hmem e (hl e (List.mem_reverse.1 he))
          · rw [List.mem_singleton.1 he]
            exact young_new i
        by_cases hroom : (bounded maximumIssuedCalls (history issues)).length ≤ 4095
        · rw [List.take_of_length_le hroom]
          refine Go.forget_same ?_ (hyoung fun e he => he)
          rw [List.length_append, List.length_reverse, List.length_singleton]
          exact Nat.succ_le_succ hroom
        · have hfull : (bounded maximumIssuedCalls (history issues)).length = 4096 :=
            Nat.le_antisymm (length_bounded_le maximumIssuedCalls _) (Nat.not_le.1 hroom)
          have hne : bounded maximumIssuedCalls (history issues) ≠ [] := fun heq => by rw [heq] at hfull; cases hfull
          have htake : (bounded maximumIssuedCalls (history issues)).take 4095 =
              (bounded maximumIssuedCalls (history issues)).dropLast := by
            rw [List.dropLast_eq_take, hfull]
          have hreverse : (bounded maximumIssuedCalls (history issues)).reverse =
              (bounded maximumIssuedCalls (history issues)).getLast hne ::
                (bounded maximumIssuedCalls (history issues)).dropLast.reverse := by
            conv_lhs => rw [← List.dropLast_append_getLast hne, List.reverse_append]
            rfl
          rw [htake, hreverse, List.cons_append]
          refine Go.forget_full ?_ (hyoung fun e he => (List.dropLast_sublist _).subset he)
          rw [List.length_append, List.length_reverse, List.length_dropLast, hfull]
          rfl

theorem Go.keeps {issues : List Issue} (h : Within issues) : Go.Keeps issues := by
  refine ⟨?_, fun e => ?_⟩
  · rw [Go.table_eq h, List.map_reverse, List.nodup_reverse]
    exact nodup_bounded _ _
  · rw [Go.table_eq h, List.mem_reverse]

/-! ## Python and TypeScript -/

theorem Python.table_append (issues : List Issue) (i : Issue) :
    Python.table (issues ++ [i]) = Python.recordIssued (Python.table issues) i := by
  unfold Python.table
  rw [List.foldl_append]
  rfl

theorem TypeScript.table_append (issues : List Issue) (i : Issue) :
    TypeScript.table (issues ++ [i]) = put maximumIssuedCalls (TypeScript.table issues) i.callID i.revision := by
  unfold TypeScript.table
  rw [List.foldl_append]
  rfl

theorem mem_of_mem_assign {table : List (Bytes × IssuedCredential)} {key : Bytes} {value : IssuedCredential} {e : Bytes × IssuedCredential}
    (h : e ∈ assign table key value) : e = (key, value) ∨ e ∈ table := by
  unfold assign at h
  split at h
  · obtain ⟨d, hd, rfl⟩ := List.mem_map.1 h
    split
    · exact .inl rfl
    · exact .inr hd
  · rcases List.mem_append.1 h with h | h
    · exact .inr h
    · exact .inl (List.mem_singleton.1 h)

/-- Within the retention no entry is too old to be kept. -/
theorem Python.recordIssued_put {issues : List Issue} {i : Issue} (h : Within (issues ++ [i])) (hkeeps : Python.Keeps issues)
    (hid : i.callID ≠ []) :
    Python.recordIssued (Python.table issues) i = put maximumIssuedCalls (Python.table issues) i.callID ⟨i.revision, i.time⟩ := by
  have hkept : (assign (Python.table issues) i.callID ⟨i.revision, i.time⟩).filter
      (fun e => decide (i.time - issuedCallRetention < e.2.issuedAt)) = assign (Python.table issues) i.callID ⟨i.revision, i.time⟩ := by
    rw [List.filter_eq_self]
    intro e he
    rw [decide_eq_true_eq]
    rcases mem_of_mem_assign he with rfl | he
    · show i.time - issuedCallRetention < i.time
      have : (0 : Int) < issuedCallRetention := by decide
      omega
    · have := h.young e (mem_of_mem_recent (List.mem_of_mem_take ((hkeeps.same e).1 he)))
      omega
  unfold Python.recordIssued put
  rw [if_neg hid]
  dsimp only
  rw [hkept]
  split
  · rfl
  · rfl

/-- What `_record_issued` gives up for the call is what was issued longest ago. -/
def Python.GivesUpOldest (issues : List Issue) (i : Issue) : Prop :=
  GivesUpLast maximumIssuedCalls (Python.table issues) (Issued.history issues) i.callID

def TypeScript.GivesUpOldest (issues : List Issue) (i : Issue) : Prop :=
  GivesUpLast maximumIssuedCalls (TypeScript.table issues) (TypeScript.history issues) i.callID

theorem Python.keeps_append_iff {issues : List Issue} {i : Issue} (h : Within (issues ++ [i])) (hkeeps : Python.Keeps issues) :
    Python.Keeps (issues ++ [i]) ↔ (i.callID ≠ [] → Python.GivesUpOldest issues i) := by
  unfold Python.Keeps
  rw [Python.table_append]
  by_cases hid : i.callID = []
  · rw [Python.recordIssued, if_pos hid, history_append_empty hid]
    exact ⟨fun _ hne => absurd hid hne, fun _ => hkeeps⟩
  · rw [Python.recordIssued_put h hkeeps hid, history_append hid]
    exact (holds_put_iff hkeeps i.callID _).trans ⟨fun h _ => h, fun h => h hid⟩

theorem TypeScript.keeps_append_iff {issues : List Issue} {i : Issue} (hkeeps : TypeScript.Keeps issues) :
    TypeScript.Keeps (issues ++ [i]) ↔ TypeScript.GivesUpOldest issues i := by
  unfold TypeScript.Keeps
  rw [TypeScript.table_append, TypeScript.history_append]
  exact holds_put_iff hkeeps i.callID i.revision

/-- The `n`th of as many calls as there may be. -/
def sampleCall (n : Nat) : Issue := ⟨List.replicate (n + 1) 0x61, 1, 0⟩

theorem nodup_sampleCalls (n : Nat) :
    ((((List.range n).map sampleCall).map (fun i => (i.callID, i.revision))).map Prod.fst).Nodup := by
  rw [List.map_map, List.map_map]
  refine List.Nodup.map (fun a b hab => ?_) List.nodup_range
  have hlength : (List.replicate (a + 1) (0x61 : UInt8)).length = (List.replicate (b + 1) (0x61 : UInt8)).length :=
    congrArg List.length hab
  rw [List.length_replicate, List.length_replicate] at hlength
  exact Nat.succ.inj hlength

/-- A call is issued to again once the table is full; the next call takes its place. -/
def reissued : List Issue := (List.range 4096).map sampleCall ++ [sampleCall 0] ++ [sampleCall 4096]

theorem within_of_same_time {issues : List Issue} {t : Int} (h : ∀ i ∈ issues, i.time = t) : Within issues := by
  refine List.Pairwise.imp_of_mem (fun {a b} ha hb _ => ?_) (List.pairwise_of_forall (R := fun _ _ => True) (fun _ _ => trivial))
  rw [h a ha, h b hb, Int.sub_self]
  exact ⟨Int.le_refl t, by decide⟩

theorem time_of_mem_reissued : ∀ i ∈ reissued, i.time = 0 := by
  intro i hi
  rcases List.mem_append.1 hi with hi | hi
  · rcases List.mem_append.1 hi with hi | hi
    · obtain ⟨n, -, rfl⟩ := List.mem_map.1 hi
      rfl
    · rw [List.mem_singleton.1 hi]
      rfl
  · rw [List.mem_singleton.1 hi]
    rfl

end Issued
end Dex
