import Mathlib.Data.List.Nodup
import DexConnectors.SharedTypeScriptModel
/-!
# SharedTypeScriptServed — rejected revisions in the TypeScript shared-connection cache

`readAfterRejection` takes the revision remembered for its call id as the rejected one, and 0 when there is none; the Go
and Python caches then take the cached revision.  So a call that is not remembered is handed what is cached
(`rejected_revision_served`).  In every run in which such a call finds nothing cached, nothing pending and nothing handed
to it before (`Meets`), no call is handed the revision it rejects (`rejected_revisions`).
-/
namespace Dex
namespace SharedTypeScript

open Lib

variable {ι : Type}

/-- **The condition of the theorem**, on the state in which a `readAfterRejection` begins: its call id is remembered, or
nothing was handed to it and nothing is cached or being read. -/
def Meets : Op → World ι → Prop
  | .readAfterRejection callID, w => w.entry.remembered callID ≠ none ∨
    (w.handed callID = none ∧ w.entry.cached = none ∧ w.entry.pending = none)
  | _, _ => True

/-- A credential with a positive revision, checked by the broker client at the end of the read `ticket`. -/
structure Brought (ticket : Nat) (c : BrokerCredential) (w : World ι) : Prop where
  positive : 0 < c.revision
  receipt  : c.receipt = ticket
  checked  : ∃ now ∈ w.checks ticket, isUnexpired c now = true

structure Inv (w : World ι) : Prop where
  keys     : (w.entry.issuedByCall.map Prod.fst).Nodup
  issued   : ∀ id r, (id, r) ∈ w.entry.issuedByCall → w.handed id = some r ∧ 0 < r
  cached   : ∀ c, w.entry.cached = some c → 0 < c.revision
  settled  : ∀ ticket c, w.settled ticket = some (.ok c) → Brought ticket c w
  sent     : ∀ ticket, w.nextRead ≤ ticket → w.sent ticket = none

/-- **What grows around call `i`**, by its own operations and by the others'. -/
structure Grow (i : ι) (w w' : World ι) : Prop where
  log       : ∀ t ∈ w.log i, t ∈ w'.log i
  awaited   : ∀ t ∈ w.awaited i, t ∈ w'.awaited i
  rejection : w'.rejection i = w.rejection i
  sent      : ∀ t n, w.sent t = some (i, n) → w'.sent t = some (i, n)
  checks    : ∀ t, ∀ now ∈ w.checks t, now ∈ w'.checks t

theorem Grow.refl (i : ι) (w : World ι) : Grow i w w :=
  ⟨fun _ => id, fun _ => id, rfl, fun _ _ => id, fun _ _ => id⟩

theorem Grow.trans (i : ι) {w w' w'' : World ι} (h : Grow i w w') (h' : Grow i w' w'') : Grow i w w'' :=
  ⟨fun t ht => h'.log t (h.log t ht), fun t ht => h'.awaited t (h.awaited t ht), h'.rejection.trans h.rejection,
    fun t n ht => h'.sent t n (h.sent t n ht), fun t now ht => h'.checks t now (h.checks t now ht)⟩

theorem Brought.grow {i : ι} {ticket : Nat} {c : BrokerCredential} {w w' : World ι} (h : Brought ticket c w)
    (hg : Grow i w w') : Brought ticket c w' := by
  obtain ⟨now, hnow, hu⟩ := h.checked
  exact ⟨h.positive, h.receipt, now, hg.checks ticket now hnow, hu⟩

theorem Brought.same {ticket : Nat} {c : BrokerCredential} {w w' : World ι} (h : Brought ticket c w)
    (hchecks : w'.checks = w.checks) : Brought ticket c w' := by
  obtain ⟨now, hnow, hu⟩ := h.checked
  exact ⟨h.positive, h.receipt, now, hchecks ▸ hnow, hu⟩

/-- An operation that changes only the entry and what is settled. -/
theorem Grow.same {i : ι} {w w' : World ι} (hlog : w'.log = w.log) (hawaited : w'.awaited = w.awaited)
    (hrejection : w'.rejection = w.rejection) (hsent : w'.sent = w.sent) (hchecks : w'.checks = w.checks) : Grow i w w' := by
  refine ⟨?_, ?_, ?_, ?_, ?_⟩
  · rw [hlog]; exact fun _ => id
  · rw [hawaited]; exact fun _ => id
  · rw [hrejection]
  · rw [hsent]; exact fun _ _ => id
  · rw [hchecks]; exact fun _ _ => id

section Protocol

variable [DecidableEq ι]

/-- The steps that meet the condition. -/
def stepMeeting (i : ι) (o : Op) (w : World ι) (a : Ans o) (w' : World ι) : Prop := step i o w a w' ∧ Meets o w

def protocol : Protocol Op Ans (World ι) ι where
  step := stepMeeting
  inv := Inv
  guar := fun i w w' => ∀ j, j ≠ i → Grow j w w'
  rely := Grow
  rely_refl := Grow.refl
  rely_trans := fun i {_ _ _} h h' => Grow.trans i h h'
  guar_rely := fun _ j _ _ hne h => h j (Ne.symm hne)

end Protocol

/-! ## The table of issued revisions -/

theorem mem_setIssued {callID : String} {revision : Nat} : ∀ {l : List (String × Nat)}, (l.map Prod.fst).Nodup →
    ∀ {x : String} {v : Nat}, (x, v) ∈ setIssued callID revision l → x = callID ∧ v = revision ∨ x ≠ callID ∧ (x, v) ∈ l
  | [], _, x, v, h => by
    simp only [setIssued, List.mem_singleton, Prod.mk.injEq] at h
    exact .inl h
  | issued :: rest, hn, x, v, h => by
    rw [List.map_cons, List.nodup_cons] at hn
    unfold setIssued at h
    by_cases hid : issued.1 = callID
    · rw [if_pos hid] at h
      obtain heq | hmem := List.mem_cons.1 h
      · exact .inl (Prod.mk.injEq .. ▸ heq)
      · refine .inr ⟨?_, List.mem_cons_of_mem _ hmem⟩
        intro hx
        apply hn.1
        rw [hid, ← hx]
        exact List.mem_map_of_mem (f := Prod.fst) hmem
    · rw [if_neg hid] at h
      obtain h | h := List.mem_cons.1 h
      · subst h
        exact .inr ⟨hid, List.mem_cons_self⟩
      · obtain h | ⟨hne, h⟩ := mem_setIssued hn.2 h
        · exact .inl h
        · exact .inr ⟨hne, List.mem_cons_of_mem _ h⟩

theorem setIssued_keys {callID : String} {revision : Nat} : ∀ {l : List (String × Nat)}, (l.map Prod.fst).Nodup →
    ((setIssued callID revision l).map Prod.fst).Nodup
  | [], _ => by simp [setIssued]
  | issued :: rest, hn => by
    rw [List.map_cons, List.nodup_cons] at hn
    unfold setIssued
    by_cases hid : issued.1 = callID
    · rw [if_pos hid, List.map_cons, List.nodup_cons]
      exact ⟨hid ▸ hn.1, hn.2⟩
    · rw [if_neg hid, List.map_cons, List.nodup_cons]
      refine ⟨fun h => ?_, setIssued_keys hn.2⟩
      obtain ⟨⟨x, v⟩, hmem, hx⟩ := List.mem_map.1 h
      obtain ⟨rfl, -⟩ | ⟨-, hmem⟩ := mem_setIssued hn.2 hmem
      · exact hid hx.symm
      · exact hn.1 (hx ▸ List.mem_map_of_mem hmem)

theorem rememberIssued_sublist (callID : String) (revision : Nat) (l : List (String × Nat)) :
    (rememberIssued callID revision l).Sublist (setIssued callID revision l) := by
  unfold rememberIssued
  dsimp only
  split
  · exact List.tail_sublist _
  · exact List.Sublist.refl _

theorem remembered_mem {entry : SharedEntry} {callID : String} {r : Nat} (h : entry.remembered callID = some r) :
    (callID, r) ∈ entry.issuedByCall := by
  unfold SharedEntry.remembered at h
  obtain ⟨⟨x, v⟩, hf, rfl⟩ := Option.map_eq_some_iff.1 h
  have hx := List.find?_some hf
  simp only [beq_iff_eq] at hx
  exact hx ▸ List.mem_of_find?_eq_some hf

theorem servesRead_some {entry : SharedEntry} {now : Int} {c : BrokerCredential} (h : entry.servesRead now = some c) :
    entry.cached = some c ∧ isUnexpired c now = true := by
  unfold SharedEntry.servesRead at h
  cases hc : entry.cached with
  | none => simp [hc] at h
  | some cached =>
    simp only [hc] at h
    by_cases hs : (isFresh entry now || (entry.pending.isSome && isUnexpired cached now)) = true
    · rw [if_pos hs, Option.some_inj] at h
      subst h
      refine ⟨rfl, ?_⟩
      rw [Bool.or_eq_true, Bool.and_eq_true] at hs
      obtain hf | ⟨-, hu⟩ := hs
      · unfold isFresh at hf
        simp only [hc] at hf
        by_contra hu
        rw [Bool.not_eq_true] at hu
        simp [hu] at hf
      · exact hu
    · rw [if_neg hs] at h
      cases h

theorem servesRejection_some {entry : SharedEntry} {issued : Nat} {now : Int} {c : BrokerCredential}
    (h : entry.servesRejection issued now = some c) :
    entry.cached = some c ∧ issued < c.revision ∧ isUnexpired c now = true := by
  unfold SharedEntry.servesRejection at h
  cases hc : entry.cached with
  | none => simp [hc] at h
  | some cached =>
    simp only [hc] at h
    by_cases hs : (decide (issued < cached.revision) && isUnexpired cached now) = true
    · rw [if_pos hs, Option.some_inj] at h
      subst h
      rw [Bool.and_eq_true, decide_eq_true_eq] at hs
      exact ⟨rfl, hs⟩
    · rw [if_neg hs] at h
      cases h

theorem servesFallback_some {entry : SharedEntry} {now : Int} {c : BrokerCredential}
    (h : entry.servesFallback now = some c) : entry.cached = some c ∧ isUnexpired c now = true := by
  unfold SharedEntry.servesFallback at h
  cases hc : entry.cached with
  | none => simp [hc] at h
  | some cached =>
    simp only [hc] at h
    by_cases hs : isUnexpired cached now = true
    · rw [if_pos hs, Option.some_inj] at h
      subst h
      exact ⟨rfl, hs⟩
    · rw [if_neg hs] at h
      cases h

/-! ## One operation -/

theorem Inv.remember {w : World ι} (hinv : Inv w) (callID : String) {revision : Nat} (hpos : 0 < revision) :
    Inv (w.rememberIssued callID revision) := by
  have hsub := rememberIssued_sublist callID revision w.entry.issuedByCall
  refine ⟨?_, fun id r hmem => ?_, hinv.cached, fun ticket c hc => ?_, hinv.sent⟩
  · exact (setIssued_keys hinv.keys).sublist (hsub.map Prod.fst)
  · show (if id = callID then some revision else w.handed id) = some r ∧ 0 < r
    obtain ⟨rfl, rfl⟩ | ⟨hne, hmem⟩ := mem_setIssued hinv.keys (hsub.subset hmem)
    · rw [if_pos rfl]
      exact ⟨rfl, hpos⟩
    · rw [if_neg hne]
      exact hinv.issued id r hmem
  · exact (hinv.settled ticket c hc).same rfl

theorem Grow.remember {j : ι} {w : World ι} (callID : String) (revision : Nat) : Grow j w (w.rememberIssued callID revision) :=
  ⟨fun _ => id, fun _ => id, rfl, fun _ _ => id, fun _ _ => id⟩

section Steps

variable [DecidableEq ι]

theorem Inv.serve {w : World ι} (hinv : Inv w) {i : ι} {callID : String} {c : BrokerCredential} {now : Int}
    (hpos : 0 < c.revision) : Inv (w.serve i callID c now) := by
  have h := hinv.remember callID hpos
  exact ⟨h.keys, h.issued, h.cached, fun ticket c' hc => (h.settled ticket c' hc).same rfl, h.sent⟩

theorem Grow.serve {j : ι} {w : World ι} (i : ι) (callID : String) (c : BrokerCredential) (now : Int) :
    Grow j w (w.serve i callID c now) := by
  refine ⟨fun t ht => ?_, fun _ => id, rfl, fun _ _ => id, fun _ _ => id⟩
  show t ∈ if j = i then now :: w.log j else w.log j
  split
  · exact List.mem_cons_of_mem _ ht
  · exact ht

omit [DecidableEq ι] in
theorem Inv.send {w : World ι} (hinv : Inv w) (i : ι) (rejectedRevision : Nat) : Inv (w.send i rejectedRevision) := by
  refine ⟨hinv.keys, hinv.issued, hinv.cached, fun ticket c hc => ?_, fun ticket hle => ?_⟩
  · exact (hinv.settled ticket c hc).same rfl
  · have hle' : w.nextRead + 1 ≤ ticket := hle
    show (if ticket = w.nextRead then some (i, rejectedRevision) else w.sent ticket) = none
    rw [if_neg (by omega)]
    exact hinv.sent ticket (by omega)

omit [DecidableEq ι] in
theorem Grow.send {j : ι} {w : World ι} (hinv : Inv w) (i : ι) (rejectedRevision : Nat) : Grow j w (w.send i rejectedRevision) := by
  refine ⟨fun _ => id, fun _ => id, rfl, fun t n ht => ?_, fun _ _ => id⟩
  show (if t = w.nextRead then some (i, rejectedRevision) else w.sent t) = some (j, n)
  by_cases heq : t = w.nextRead
  · have hnone := hinv.sent t (by omega)
    rw [hnone] at ht
    cases ht
  · rw [if_neg heq]
    exact ht

/-- **How `#readBroker` or the cache answers** a call that may take `cached`. -/
theorem enter_cases {w w' : World ι} {i : ι} {callID : String} {rejectedRevision : Nat} {cached : Option BrokerCredential}
    {now : Int} {entered : Entered} (h : (entered, w') = w.enter i callID rejectedRevision cached now) :
    (∃ c, cached = some c ∧ entered = .served c ∧ w' = w.serve i callID c now) ∨
    (∃ ticket, w.entry.pending = some ticket ∧ entered = .reading (.joined ticket) ∧ w' = w) ∨
    (w.entry.pending = none ∧ entered = .reading (.sent w.nextRead) ∧ w' = w.send i rejectedRevision) := by
  unfold World.enter at h
  cases hc : cached with
  | some c =>
    simp only [hc, Prod.mk.injEq] at h
    exact .inl ⟨c, rfl, h.1, h.2⟩
  | none =>
    cases hp : w.entry.pending with
    | some ticket =>
      simp only [hc, hp, Prod.mk.injEq] at h
      exact .inr (.inl ⟨ticket, rfl, h.1, h.2⟩)
    | none =>
      simp only [hc, hp, Prod.mk.injEq] at h
      exact .inr (.inr ⟨rfl, h.1, h.2⟩)

theorem enter_safe {w w' : World ι} {i : ι} {callID : String} {rejectedRevision : Nat} {cached : Option BrokerCredential}
    {now : Int} {entered : Entered} (hinv : Inv w) (hcached : ∀ c, cached = some c → 0 < c.revision)
    (h : (entered, w') = w.enter i callID rejectedRevision cached now) : Inv w' ∧ ∀ j, Grow j w w' := by
  obtain ⟨c, hc, -, rfl⟩ | ⟨ticket, -, -, rfl⟩ | ⟨-, -, rfl⟩ := enter_cases h
  · exact ⟨hinv.serve (hcached c hc), fun j => Grow.serve i callID c now⟩
  · exact ⟨hinv, fun j => Grow.refl j w'⟩
  · exact ⟨hinv.send i rejectedRevision, fun j => Grow.send hinv i rejectedRevision⟩

theorem Inv.reject {w : World ι} (hinv : Inv w) (i : ι) (callID : String) : Inv (w.reject i callID) :=
  ⟨hinv.keys, hinv.issued, hinv.cached, fun ticket c hc => (hinv.settled ticket c hc).same rfl, hinv.sent⟩

theorem Grow.reject {i j : ι} {w : World ι} (hj : j ≠ i) (callID : String) : Grow j w (w.reject i callID) :=
  ⟨fun _ => id, fun _ => id, if_neg hj, fun _ _ => id, fun _ _ => id⟩

theorem Grow.wait {j : ι} {w : World ι} (i : ι) (ticket : Nat) : Grow j w (w.wait i ticket) := by
  refine ⟨fun _ => id, fun t ht => ?_, rfl, fun _ _ => id, fun _ _ => id⟩
  show t ∈ if j = i then ticket :: w.awaited j else w.awaited j
  split
  · exact List.mem_cons_of_mem _ ht
  · exact ht

theorem Inv.wait {w : World ι} (hinv : Inv w) (i : ι) (ticket : Nat) : Inv (w.wait i ticket) :=
  ⟨hinv.keys, hinv.issued, hinv.cached, fun t c hc => (hinv.settled t c hc).same rfl, hinv.sent⟩

/-- What a call must know before an operation. -/
def Pre : Op → World ι → Prop
  | .settle ticket outcome, w => ∀ c, outcome = .ok c → Brought ticket c w
  | .rememberIssued _ revision, _ => 0 < revision
  | _, _ => True

def Op.isRejection : Op → Bool
  | .readAfterRejection _ => true
  | _ => false

theorem settle_cached {entry : SharedEntry} {outcome : Result} {now : Int} {c : BrokerCredential}
    (h : (entry.settle outcome now).cached = some c) : entry.cached = some c ∨ outcome = .ok c := by
  unfold SharedEntry.settle at h
  cases outcome with
  | ok credential =>
    simp only [Option.some_inj] at h
    exact .inr (by rw [h])
  | error exc =>
    by_cases ht : exc.isTerminal = true
    · simp [ht] at h
    · simp only [ht, Bool.false_eq_true, if_false] at h
      exact .inl h

theorem settle_issuedByCall (entry : SharedEntry) (outcome : Result) (now : Int) :
    (entry.settle outcome now).issuedByCall = entry.issuedByCall := by
  unfold SharedEntry.settle
  cases outcome with
  | ok credential => rfl
  | error exc => by_cases ht : exc.isTerminal = true <;> simp [ht]

/-- **What every operation keeps.** -/
theorem step_safe {i : ι} {o : Op} {w w' : World ι} {a : Ans o} (hs : step i o w a w') (hinv : Inv w) (hpre : Pre o w) :
    Inv w' ∧ ∀ j, j ≠ i ∨ o.isRejection = false → Grow j w w' := by
  cases o with
  | read callID =>
    obtain ⟨now, h⟩ := hs
    obtain ⟨h1, h2⟩ := enter_safe hinv (fun c hc => hinv.cached c (servesRead_some hc).1) h
    exact ⟨h1, fun j _ => h2 j⟩
  | readAfterRejection callID =>
    obtain ⟨-, hs⟩ := hs
    have hne : ∀ j, j ≠ i ∨ (Op.readAfterRejection callID).isRejection = false → j ≠ i := by
      intro j hj
      simpa [Op.isRejection] using hj
    cases hp : w.entry.pending with
    | some ticket =>
      simp only [hp] at hs
      obtain ⟨-, rfl⟩ := hs
      exact ⟨hinv.reject i callID, fun j hj => Grow.reject (hne j hj) callID⟩
    | none =>
      simp only [hp] at hs
      obtain ⟨now, entered, -, h⟩ := hs
      have hcached := fun c (hc : w.entry.servesRejection (w.issued callID) now = some c) =>
        hinv.cached c (servesRejection_some hc).1
      obtain ⟨h1, h2⟩ := enter_safe (hinv.reject i callID) hcached h
      exact ⟨h1, fun j hj => Grow.trans j (Grow.reject (hne j hj) callID) (h2 j)⟩
  | checkRejection callID issued =>
    obtain ⟨now, h⟩ := hs
    obtain ⟨h1, h2⟩ := enter_safe hinv (fun c hc => hinv.cached c (servesRejection_some hc).1) h
    exact ⟨h1, fun j _ => h2 j⟩
  | receive ticket =>
    cases a with
    | error exc =>
      obtain ⟨-, rfl⟩ := hs
      exact ⟨hinv.wait i ticket, fun j _ => Grow.wait i ticket⟩
    | ok c =>
      obtain ⟨-, -, now, -, rfl⟩ := hs
      have hchecks : ∀ t, ∀ n ∈ w.checks t, n ∈ if t = ticket then now :: w.checks t else w.checks t := by
        intro t n hn
        split
        · exact List.mem_cons_of_mem _ hn
        · exact hn
      refine ⟨⟨hinv.keys, hinv.issued, hinv.cached, fun t c' hc => ?_, hinv.sent⟩, fun j _ => ?_⟩
      · obtain ⟨n, hn, hu⟩ := (hinv.settled t c' hc).checked
        exact ⟨(hinv.settled t c' hc).positive, (hinv.settled t c' hc).receipt, n, hchecks t n hn, hu⟩
      · have hw := Grow.wait (j := j) (w := w) i ticket
        exact ⟨hw.log, hw.awaited, hw.rejection, hw.sent, hchecks⟩
  | settle ticket outcome =>
    obtain ⟨now, rfl⟩ := hs
    refine ⟨⟨?_, ?_, fun c hc => ?_, fun t c hc => ?_, hinv.sent⟩, fun j _ => Grow.same rfl rfl rfl rfl rfl⟩
    · simp only [settle_issuedByCall]
      exact hinv.keys
    · simp only [settle_issuedByCall]
      exact hinv.issued
    · obtain h | h := settle_cached hc
      · exact hinv.cached c h
      · exact (hpre c h).positive
    · simp only at hc
      by_cases ht : t = ticket
      · subst ht
        rw [if_pos rfl, Option.some_inj] at hc
        exact (hpre c hc).same rfl
      · rw [if_neg ht] at hc
        exact (hinv.settled t c hc).same rfl
  | clear ticket =>
    rw [show w' = _ from hs]
    exact ⟨⟨hinv.keys, hinv.issued, hinv.cached, fun t c hc => (hinv.settled t c hc).same rfl, hinv.sent⟩,
      fun j _ => Grow.same rfl rfl rfl rfl rfl⟩
  | await ticket =>
    obtain ⟨-, rfl⟩ := hs
    exact ⟨hinv.wait i ticket, fun j _ => Grow.wait i ticket⟩
  | fallback callID =>
    obtain ⟨now, now', -, hs⟩ := hs
    cases hf : w.entry.servesFallback now with
    | none =>
      simp only [hf] at hs
      subst hs
      exact ⟨hinv, fun j _ => Grow.refl j _⟩
    | some c =>
      simp only [hf] at hs
      subst hs
      have hinv' : Inv ({ w with entry := { w.entry with notBefore := now' + 10000 } } : World ι) :=
        ⟨hinv.keys, hinv.issued, hinv.cached, fun t c' hc => (hinv.settled t c' hc).same rfl, hinv.sent⟩
      refine ⟨hinv'.serve (hinv.cached c (servesFallback_some hf).1), fun j _ => ?_⟩
      have h := Grow.serve (j := j) (w := w) i callID c now
      exact ⟨h.log, h.awaited, h.rejection, h.sent, h.checks⟩
  | rememberIssued callID revision =>
    rw [show w' = _ from hs]
    exact ⟨hinv.remember callID hpre, fun j _ => Grow.remember callID revision⟩

end Steps

/-! ## The methods -/

/-- **A credential that call `i` may return**: unexpired at a reading of the call, or at the broker client's reading at the
end of a read that the call waited for. -/
def Served (i : ι) (c : BrokerCredential) (w : World ι) : Prop :=
  (∃ now ∈ w.log i, isUnexpired c now = true) ∨
  (c.receipt ∈ w.awaited i ∧ ∃ now ∈ w.checks c.receipt, isUnexpired c now = true)

/-- **A credential that a rejected call may return**: of another revision than the one last handed to the call id; and
when the call id was not remembered, brought by a read that the call sent with the cached revision as the rejected one. -/
def NotRejected (i : ι) (c : BrokerCredential) (w : World ι) : Prop :=
  ∃ s, w.rejection i = some s ∧ s.handed ≠ some c.revision ∧
    (s.remembered = none → w.sent c.receipt = some (i, s.cached.getD 0))

theorem Served.grow {i : ι} {c : BrokerCredential} {w w' : World ι} (h : Served i c w) (hg : Grow i w w') : Served i c w' := by
  obtain ⟨now, hnow, hu⟩ | ⟨hmem, now, hnow, hu⟩ := h
  · exact .inl ⟨now, hg.log now hnow, hu⟩
  · exact .inr ⟨hg.awaited _ hmem, now, hg.checks _ now hnow, hu⟩

theorem NotRejected.grow {i : ι} {c : BrokerCredential} {w w' : World ι} (h : NotRejected i c w) (hg : Grow i w w') :
    NotRejected i c w' := by
  obtain ⟨s, hs, hne, hsent⟩ := h
  exact ⟨s, hg.rejection.trans hs, hne, fun hr => hg.sent _ _ (hsent hr)⟩

section Methods

variable [DecidableEq ι] {i : ι} {w : World ι} {φ : BrokerCredential → World ι → Prop}

/-- What a call returns satisfies `φ`. -/
def Returns (φ : BrokerCredential → World ι → Prop) (result : Result) (w : World ι) : Prop := ∀ c, result = .ok c → φ c w

/-- **The proof rule of one operation** of a call that has begun. -/
theorem safe_call {α : Type} {Q : α → World ι → Prop} {o : Op} {k : Ans o → P α} (ho : o.isRejection = false)
    (hpre : ∀ w', Grow i w w' → Pre o w')
    (hk : ∀ w' a w'', Grow i w w'' → Inv w' → step i o w' a w'' → Inv w'' → protocol.Safe i Q (k a) w'') :
    protocol.Safe i Q (.call o k) w := by
  intro w' hr hinv a w'' hs
  obtain ⟨h1, h2⟩ := step_safe hs.1 hinv (hpre w' hr)
  exact ⟨h1, fun j hj => h2 j (.inl hj), hk w' a w'' (Grow.trans i hr (h2 i (.inr ho))) hinv hs.1 h1⟩

theorem safe_ok (hφ : ∀ c w w', Grow i w w' → φ c w → φ c w') {c : BrokerCredential} (h : φ c w) :
    protocol.Safe i (Returns φ) (.ret (.ok c)) w := by
  intro w' hr _ c' hc
  cases hc
  exact hφ c w w' hr h

theorem safe_error {exc : Exc} : protocol.Safe i (Returns φ) (.ret (.error exc)) w := by
  intro w' _ _ c hc
  cases hc

theorem handOut_safe (hφ : ∀ c w w', Grow i w w' → φ c w → φ c w') {callID : String} {c : BrokerCredential}
    (hpos : 0 < c.revision) (h : φ c w) : protocol.Safe i (Returns φ) (handOut callID c) w := by
  refine safe_call rfl (fun _ _ => hpos) fun w₁ _ w₂ hg _ _ _ => ?_
  exact safe_ok hφ (hφ c w w₂ hg h)

def BrokerRead.ticket : BrokerRead → Nat
  | .joined ticket => ticket
  | .sent ticket => ticket

/-- What `#readBroker` leaves call `i` with. -/
def Received (i : ι) (broker : BrokerRead) (result : Result) (w : World ι) : Prop :=
  ∀ c, result = .ok c → Brought broker.ticket c w ∧ broker.ticket ∈ w.awaited i

omit [DecidableEq ι] in
theorem Received.grow {broker : BrokerRead} {result : Result} {w' : World ι} (h : Received i broker result w)
    (hg : Grow i w w') : Received i broker result w' :=
  fun c hc => ⟨(h c hc).1.grow hg, hg.awaited _ (h c hc).2⟩

omit [DecidableEq ι] in
theorem Received.served {broker : BrokerRead} {c : BrokerCredential} (h : Received i broker (.ok c) w) : Served i c w := by
  obtain ⟨hb, ha⟩ := h c rfl
  refine .inr ⟨hb.receipt ▸ ha, ?_⟩
  rw [hb.receipt]
  exact hb.checked

theorem await_safe {ticket : Nat} :
    protocol.Safe i (fun result w' => Received i (.joined ticket) result w' ∧ Grow i w w') (act (.await ticket)) w := by
  refine safe_call rfl (fun _ _ => trivial) fun w₁ a w₂ hg hinv hs _ => ?_
  obtain ⟨hsettled, rfl⟩ := hs
  have h : Received i (.joined ticket) a (w₁.wait i ticket) := by
    rintro c rfl
    refine ⟨(hinv.settled ticket c hsettled).same rfl, ?_⟩
    show ticket ∈ if i = i then ticket :: w₁.awaited i else w₁.awaited i
    simp
  exact fun w' hr _ => ⟨h.grow hr, Grow.trans i hg hr⟩

theorem receive_received {ticket : Nat} {a : Result} {w₁ w₂ : World ι} (hs : step i (.receive ticket) w₁ a w₂) :
    Received i (.sent ticket) a w₂ := by
  rintro c rfl
  obtain ⟨hpos, hrec, now, hu, rfl⟩ := hs
  refine ⟨⟨hpos, hrec, now, ?_, hu⟩, ?_⟩
  · show now ∈ if ticket = ticket then now :: w₁.checks ticket else w₁.checks ticket
    simp
  · show ticket ∈ if i = i then ticket :: w₁.awaited i else w₁.awaited i
    simp

theorem readBroker_safe (broker : BrokerRead) :
    protocol.Safe i (fun result w' => Received i broker result w' ∧ Grow i w w') (readBroker broker) w := by
  cases broker with
  | joined ticket => exact await_safe
  | sent ticket =>
    refine safe_call rfl (fun _ _ => trivial) fun w₁ outcome w₂ hg _ hs _ => ?_
    have h := receive_received hs
    refine safe_call rfl (fun w₃ hg₃ c hc => ((h c hc).1).grow hg₃) fun w₃ _ w₄ hg₄ _ _ _ => ?_
    refine safe_call rfl (fun _ _ => trivial) fun w₅ _ w₆ hg₆ _ _ _ => ?_
    have hg' := Grow.trans i hg₄ hg₆
    exact fun w' hr _ => ⟨(h.grow hg').grow hr, Grow.trans i (Grow.trans i hg hg') hr⟩

theorem fallback_safe {callID : String} :
    protocol.Safe i (Returns (Served i)) (afterRead callID (.error .credentialBrokerUnavailable)) w := by
  refine safe_call rfl (fun _ _ => trivial) fun w₁ cached w₂ _ _ hs _ => ?_
  obtain ⟨now, now', ha, rfl⟩ := hs
  cases hc : w₁.entry.servesFallback now with
  | none =>
    rw [show cached = none from ha.trans hc]
    exact safe_error
  | some c =>
    rw [show cached = some c from ha.trans hc]
    refine safe_ok (fun _ _ _ hg h => h.grow hg) (.inl ⟨now, ?_, (servesFallback_some hc).2⟩)
    simp [World.serve]

theorem afterRead_safe {callID : String} {broker : BrokerRead} {result : Result} (h : Received i broker result w) :
    protocol.Safe i (Returns (Served i)) (afterRead callID result) w := by
  cases result with
  | ok c => exact handOut_safe (fun _ _ _ hg h => h.grow hg) (h c rfl).1.positive h.served
  | error exc =>
    cases exc with
    | credentialBrokerUnavailable => exact fallback_safe
    | credentialBrokerRejected => exact safe_error
    | reauthorizationRequired => exact safe_error
    | connectionNotSelected => exact safe_error
    | rejectedCredentialNotRefreshed => exact safe_error
    | other => exact safe_error

theorem served_log {callID : String} {c : BrokerCredential} {now : Int} (hu : isUnexpired c now = true) :
    Served i c (w.serve i callID c now) := by
  refine .inl ⟨now, ?_, hu⟩
  simp [World.serve]

theorem read_safe (callID : String) : protocol.Safe i (Returns (Served i)) (read callID) w := by
  refine safe_call rfl (fun _ _ => trivial) fun w₁ entered w₂ _ hinv hs hinv₂ => ?_
  obtain ⟨now, h⟩ := hs
  obtain ⟨c, hc, rfl, rfl⟩ | ⟨ticket, -, rfl, rfl⟩ | ⟨-, rfl, rfl⟩ := enter_cases h
  · exact safe_ok (fun _ _ _ hg h => h.grow hg) (served_log (servesRead_some hc).2)
  · exact (readBroker_safe _).bind (fun result w' _ h => afterRead_safe h.1) hinv₂
  · exact (readBroker_safe _).bind (fun result w' _ h => afterRead_safe h.1) hinv₂

/-! ## After a rejection -/

/-- What a rejected call may return. -/
def Allowed (i : ι) (c : BrokerCredential) (w : World ι) : Prop := Served i c w ∧ NotRejected i c w

omit [DecidableEq ι] in
theorem Allowed.grow {c : BrokerCredential} {w' : World ι} (h : Allowed i c w) (hg : Grow i w w') : Allowed i c w' :=
  ⟨h.1.grow hg, h.2.grow hg⟩

/-- **Call `i` knows the revision last handed to its call id.** -/
def Remembers (i : ι) (issued : Nat) (w : World ι) : Prop :=
  ∃ s, w.rejection i = some s ∧ s.handed = some issued ∧ s.remembered ≠ none ∧ 0 < issued

omit [DecidableEq ι] in
theorem Remembers.grow {issued : Nat} {w' : World ι} (h : Remembers i issued w) (hg : Grow i w w') : Remembers i issued w' := by
  obtain ⟨s, hs, hrest⟩ := h
  exact ⟨s, hg.rejection.trans hs, hrest⟩

omit [DecidableEq ι] in
theorem Remembers.notRejected {issued : Nat} {c : BrokerCredential} (h : Remembers i issued w) (hne : c.revision ≠ issued) :
    NotRejected i c w := by
  obtain ⟨s, hs, hh, hr, -⟩ := h
  refine ⟨s, hs, ?_, fun hnone => absurd hnone hr⟩
  rw [hh, ne_eq, Option.some_inj]
  exact hne.symm

theorem rejectedRead_safe {callID : String} {issued : Nat} {broker : BrokerRead} (hinv : Inv w)
    (hok : ∀ c w', Grow i w w' → c.receipt = broker.ticket → ¬ (0 < issued ∧ c.revision = issued) → NotRejected i c w') :
    protocol.Safe i (Returns (Allowed i)) (rejectedEntered callID issued (.reading broker)) w := by
  refine (readBroker_safe broker).bind (fun result w' _ h => ?_) hinv
  obtain ⟨hreceived, hg⟩ := h
  cases result with
  | error exc => exact safe_error
  | ok c =>
    dsimp only [afterRejectedRead]
    by_cases hsame : 0 < issued ∧ c.revision = issued
    · rw [if_pos hsame]
      exact safe_error
    · rw [if_neg hsame]
      have hb := (hreceived c rfl).1
      exact handOut_safe (fun _ _ _ hg h => h.grow hg) hb.positive ⟨hreceived.served, hok c w' hg hb.receipt hsame⟩

/-- A remembered call, from the cache or from the broker. -/
theorem remembered_safe {callID : String} {issued : Nat} {w₁ : World ι} {entered : Entered} {now : Int}
    (hinv : Inv w) (hr : Remembers i issued w) (hinv₁ : Inv w₁)
    (h : (entered, w) = w₁.enter i callID issued (w₁.entry.servesRejection issued now) now) :
    protocol.Safe i (Returns (Allowed i)) (rejectedEntered callID issued entered) w := by
  have hok : ∀ (broker : BrokerRead) (c : BrokerCredential) (w' : World ι), Grow i w w' → c.receipt = broker.ticket →
      ¬ (0 < issued ∧ c.revision = issued) → NotRejected i c w' := by
    intro broker c w' hg _ hsame
    obtain ⟨-, -, -, -, hpos⟩ := id hr
    exact (hr.grow hg).notRejected fun heq => hsame ⟨hpos, heq⟩
  obtain ⟨c, hc, rfl, rfl⟩ | ⟨ticket, -, rfl, rfl⟩ | ⟨-, rfl, rfl⟩ := enter_cases h
  · obtain ⟨-, hlt, hu⟩ := servesRejection_some hc
    exact safe_ok (fun _ _ _ hg h => h.grow hg) ⟨served_log hu, hr.notRejected (by omega)⟩
  · exact rejectedRead_safe hinv (hok _)
  · exact rejectedRead_safe hinv (hok _)

theorem rejectedAwaited_safe {callID : String} {issued : Nat} {result : Result} (hr : Remembers i issued w) :
    protocol.Safe i (Returns (Allowed i)) (rejectedAwaited callID issued result) w := by
  cases result with
  | error exc => exact safe_error
  | ok c =>
    refine safe_call rfl (fun _ _ => trivial) fun w₁ entered w₂ hg hinv hs hinv₂ => ?_
    obtain ⟨now, h⟩ := hs
    exact remembered_safe hinv₂ (hr.grow hg) hinv h

theorem readAfterRejection_safe (callID : String) :
    protocol.Safe i (Returns (Allowed i)) (readAfterRejection callID) w := by
  intro w₁ _ hinv begun w₂ hs
  obtain ⟨hs, hmeets⟩ := hs
  obtain ⟨hinv₂, hgrow⟩ := step_safe hs hinv trivial
  refine ⟨hinv₂, fun j hj => hgrow j (.inl hj), ?_⟩
  obtain ⟨issued, begun⟩ := begun
  obtain ⟨rfl, hs⟩ := hs
  have hrej : (w₁.reject i callID).rejection i = some (w₁.found callID) := if_pos rfl
  -- a remembered call id was last handed what is remembered
  have hrem : w₁.entry.remembered callID ≠ none → ∀ {w'}, Grow i (w₁.reject i callID) w' → Remembers i (w₁.issued callID) w' := by
    intro hne w' hg
    obtain ⟨r, hr⟩ := Option.ne_none_iff_exists'.1 hne
    obtain ⟨hh, hpos⟩ := hinv.issued callID r (remembered_mem hr)
    have hissued : w₁.issued callID = r := by
      unfold World.issued
      rw [hr]
      rfl
    rw [hissued]
    exact ⟨w₁.found callID, hg.rejection.trans hrej, hh, hne, hpos⟩
  cases hp : w₁.entry.pending with
  | some ticket =>
    simp only [hp] at hs
    obtain ⟨rfl, rfl⟩ := hs
    obtain hne | ⟨-, -, hnone⟩ := hmeets
    · refine await_safe.bind (fun result w' _ h => rejectedAwaited_safe (hrem hne h.2)) hinv₂
    · rw [hp] at hnone
      cases hnone
  | none =>
    simp only [hp] at hs
    obtain ⟨now, entered, rfl, h⟩ := hs
    obtain hne | ⟨hhanded, hcached, -⟩ := hmeets
    · obtain ⟨-, hg⟩ := enter_safe (hinv.reject i callID) (fun c hc => hinv.cached c (servesRejection_some hc).1) h
      exact remembered_safe hinv₂ (hrem hne (hg i)) (hinv.reject i callID) h
    · by_cases hne : w₁.entry.remembered callID = none
      · obtain ⟨c, hc, -, -⟩ | ⟨ticket, hpending, -, -⟩ | ⟨-, rfl, rfl⟩ := enter_cases h
        · rw [(servesRejection_some hc).1] at hcached
          cases hcached
        · exact absurd (hpending.symm.trans hp) (by simp)
        · refine rejectedRead_safe hinv₂ fun c w' hg hrec _ => ?_
          have hissued : w₁.issued callID = 0 := by
            unfold World.issued
            rw [hne]
            rfl
          refine ⟨w₁.found callID, hg.rejection.trans hrej, ?_, fun _ => hg.sent _ _ ?_⟩
          · simp [World.found, hhanded]
          · rw [hrec, hissued]
            simp [World.send, World.found, hcached, BrokerRead.ticket, World.reject]
      · obtain ⟨-, hg⟩ := enter_safe (hinv.reject i callID) (fun c hc => hinv.cached c (servesRejection_some hc).1) h
        exact remembered_safe hinv₂ (hrem hne (hg i)) (hinv.reject i callID) h

def CallPost (i : ι) (call : Call) (result : Result) (w : World ι) : Prop :=
  ∀ c, result = .ok c → Served i c w ∧ ∀ callID, call = .readAfterRejection callID → NotRejected i c w

theorem call_safe (call : Call) : protocol.Safe i (CallPost i call) call.program w := by
  cases call with
  | read callID => exact (read_safe callID).mono fun _ _ h c hc => ⟨h c hc, fun _ heq => by cases heq⟩
  | readAfterRejection callID =>
    exact (readAfterRejection_safe callID).mono fun _ _ h c hc => ⟨(h c hc).1, fun _ _ => (h c hc).2⟩

omit [DecidableEq ι] in
theorem inv_init : Inv (World.init : World ι) :=
  ⟨List.nodup_nil, fun _ _ h => (by cases h), fun _ h => (by cases h), fun _ _ h => (by cases h), fun _ _ => rfl⟩

/-- The first answer of a broker. -/
def token : BrokerCredential := ⟨"token", 1, none, none, 0⟩

/-- A first `read`, which the broker serves. -/
theorem read_token (i : ι) : ∃ w : World ι, w.entry = ⟨some token, 0, 1000, [("a", 1)], none⟩ ∧
    w.handed = (fun id => if id = "a" then some 1 else none) ∧
    w.sent = (fun ticket => if ticket = 0 then some (i, 0) else none) ∧
    Prog.Exec (stepMeeting i) (Call.read "a").program World.init (.ok token) w := by
  refine ⟨_, ?_, ?_, ?_, .reading (.sent 0), _, ⟨⟨0, rfl⟩, trivial⟩, .ok token, _, ⟨⟨by decide, rfl, 0, rfl, rfl⟩, trivial⟩, (), _,
    ⟨⟨0, rfl⟩, trivial⟩, (), _, ⟨rfl, trivial⟩, (), _, ⟨rfl, trivial⟩, rfl, rfl⟩
  all_goals rfl

/-- A call id that is not remembered, after that read. -/
theorem rejection_served {w : World Bool} (hentry : w.entry = ⟨some token, 0, 1000, [("a", 1)], none⟩) :
    ∃ w' : World Bool, w'.rejection true = some (w.found "b") ∧ w'.sent = w.sent ∧
      Prog.Exec (step true) (Call.readAfterRejection "b").program w (.ok token) w' := by
  have hissued : w.issued "b" = 0 := by
    unfold World.issued
    rw [hentry]
    rfl
  have hserves : w.entry.servesRejection 0 0 = some token := by
    rw [hentry]
    rfl
  refine ⟨(w.reject true "b").serve true "b" token 0, rfl, rfl, (w.issued "b", .entered (.served token)), _, ?_, rfl, rfl⟩
  have hpending : w.entry.pending = none := by rw [hentry]
  refine ⟨rfl, ?_⟩
  rw [hpending, hissued]
  refine ⟨0, .served token, rfl, ?_⟩
  rw [hserves]
  rfl

end Methods

end SharedTypeScript
end Dex
