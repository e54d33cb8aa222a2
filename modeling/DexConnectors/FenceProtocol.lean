import Mathlib.Logic.Relation
import DexConnectors.FenceOnce
import DexConnectors.FenceSdks
/-!
# FenceProtocol — what one attempt may do so that its call is dispatched at most once

A `Ledger` is an attempt as the protocol sees it: what it decided, how far its one dispatch is, which markers it began to
write, and what it did.  `Ledger.Step` are the things an attempt may do; a fence of an SDK `Refines` them.  An attempt dies by
taking no more steps, and a marker that was begun may reach the heartbeat history at any time after, or never.

`dispatch_once` is about the attempts of one call together: they run at the same time, and each reads at most a marker that an
earlier attempt stored.
-/
namespace Dex
namespace AsyncFence

open SingleDispatch

inductive Event where
  | stored (marker : Marker)       -- a marker reached the heartbeat history
  | recorded (marker : Marker)     -- the heartbeat of the marker returned no error
  | sent (attempt : Int)           -- the attempt invoked `send`
  | repeats (marker : Marker)      -- the repeater began to write the marker
  deriving DecidableEq, Repr

def Event.attempt : Event → Int
  | .stored m | .recorded m | .repeats m => m.attempt
  | .sent k => k

/-- What an attempt finds as its last heartbeat value. -/
inductive Last where
  | error
  | nothing
  | value (marker : Marker)
  deriving DecidableEq, Repr

/-! ## Markers on the wire -/

def stateText : DispatchState → String
  | .notSent => "notSent"
  | .claimed => "claimed"
  | .canResend => "canResend"
  | .other text => text

def wire (m : Marker) : WireMarker :=
  ⟨m.callID, m.attempt, stateText m.state, if m.providerID = "" then none else some m.providerID⟩

theorem marker_wire {m : Marker} (h : m.state.isDeclared = true) : (wire m).marker = m := by
  obtain ⟨callID, attempt, state, providerID⟩ := m
  have hstate : stateOf (stateText state) = state := by
    cases state with
    | other text => cases h
    | notSent => rfl
    | claimed => rfl
    | canResend => rfl
  have hprovider : (if providerID = "" then none else some providerID).getD "" = providerID := by
    by_cases hp : providerID = ""
    · rw [if_pos hp, hp]
      rfl
    · rw [if_neg hp]
      rfl
  simp only [wire, WireMarker.marker, hstate, hprovider]

/-! ## One attempt -/

/-- How far the one dispatch of an attempt is. -/
inductive Stage where
  | idle
  | claiming
  | claimed
  | abandoned      -- the claim failed
  | sending
  | settled
  deriving DecidableEq, Repr

structure Ledger where
  number  : Int
  decided : Bool
  allowed : Bool
  retried : Bool             -- it wrote, or writes, that it has not sent
  stage   : Stage
  begun   : List Marker
  hist    : List Event
  reads   : List Last

def Ledger.initial (k : Int) : Ledger := ⟨k, false, false, false, .idle, [], [], []⟩

section Call

variable (callID : String)

def notSentOf (k : Int) : Marker := ⟨callID, k, .notSent, ""⟩

/-- A marker that ends a dispatch. -/
def IsTerminal (k : Int) (m : Marker) : Prop :=
  m.callID = callID ∧ m.attempt = k ∧ (m.state = .canResend ∨ m.state = .claimed ∧ m.providerID ≠ "")

/-- **What an attempt may do.** -/
inductive Ledger.Step : Ledger → Ledger → Prop
  | decide (l : Ledger) (last : Last) (allowed : Bool) (hd : l.decided = false)
      (hp : allowed = true → l.number = 1 ∨ ∃ m, last = .value m ∧ m.attempt = l.number - 1 ∧ releases (wire m).marker) :
      Step l { l with decided := true, allowed := allowed, reads := l.reads ++ [last] }
  | giveUp (l : Ledger) (ha : l.allowed = true) (hs : l.stage = .idle ∨ l.stage = .abandoned) :
      Step l { l with retried := true, begun := notSentOf callID l.number :: l.begun }
  | claim (l : Ledger) (ha : l.allowed = true) (hs : l.stage = .idle) (hr : l.retried = false) :
      Step l { l with stage := .claiming, begun := claimOf callID l.number :: l.begun }
  | claimed (l : Ledger) (hs : l.stage = .claiming) (hr : .recorded (claimOf callID l.number) ∈ l.hist) :
      Step l { l with stage := .claimed }
  | abandon (l : Ledger) (hs : l.stage = .claiming) : Step l { l with stage := .abandoned }
  | send (l : Ledger) (hs : l.stage = .claimed) : Step l { l with stage := .sending, hist := l.hist ++ [.sent l.number] }
  | settle (l : Ledger) (hs : l.stage = .sending) : Step l { l with stage := .settled }
  | finish (l : Ledger) (m : Marker) (hs : l.stage = .settled) (hm : IsTerminal callID l.number m) :
      Step l { l with begun := m :: l.begun }
  | repeats (l : Ledger) (hs : l.stage = .sending ∨ l.stage = .settled)
      (hclean : ∀ m, .recorded m ∈ l.hist → m = claimOf callID l.number) :
      Step l { l with
        begun := claimOf callID l.number :: l.begun, hist := l.hist ++ [.repeats (claimOf callID l.number)] }
  | store (l : Ledger) (m : Marker) (hm : m ∈ l.begun) : Step l { l with hist := l.hist ++ [.stored m] }
  | record (l : Ledger) (m : Marker) (hm : m ∈ l.begun) : Step l { l with hist := l.hist ++ [.recorded m] }

abbrev Ledger.Steps : Ledger → Ledger → Prop := Relation.ReflTransGen (Ledger.Step callID)

/-- What a marker tells of the attempt that began it. -/
structure Began (l : Ledger) (m : Marker) : Prop where
  number   : m.attempt = l.number
  declared : m.state.isDeclared = true
  allowed  : l.allowed = true
  notSent  : m.state = .notSent → l.retried = true
  claim    : m.state ≠ .notSent → m = claimOf callID l.number ∨ l.stage = .settled

/-- **What every attempt keeps.** -/
structure Ledger.Inv (l : Ledger) : Prop where
  decided   : l.allowed = true → l.decided = true
  permitted : l.allowed = true →
    l.number = 1 ∨ ∃ m, .value m ∈ l.reads ∧ m.attempt = l.number - 1 ∧ releases (wire m).marker
  begun     : ∀ m ∈ l.begun, Began callID l m
  stored    : ∀ m, .stored m ∈ l.hist → m ∈ l.begun
  recorded  : ∀ m, .recorded m ∈ l.hist → m ∈ l.begun
  moved     : l.stage ≠ .idle → l.allowed = true
  retried   : l.retried = true → l.stage = .idle ∨ l.stage = .abandoned
  count     : l.hist.count (.sent l.number) = if l.stage = .sending ∨ l.stage = .settled then 1 else 0
  own       : ∀ k, .sent k ∈ l.hist → k = l.number
  claimed   : l.stage = .claimed ∨ l.stage = .sending ∨ l.stage = .settled → .recorded (claimOf callID l.number) ∈ l.hist
  ordered   : ∀ pre post, l.hist = pre ++ .sent l.number :: post → .recorded (claimOf callID l.number) ∈ pre
  repeats   : ∀ m pre post, l.hist = pre ++ .repeats m :: post →
    m = claimOf callID l.number ∧ ∀ later, .recorded later ∈ pre → later = m

variable {callID}

theorem inv_initial (k : Int) : Ledger.Inv callID (Ledger.initial k) where
  decided := fun h => by cases h
  permitted := fun h => by cases h
  begun := fun _ h => by cases h
  stored := fun _ h => by cases h
  recorded := fun _ h => by cases h
  moved := fun h => absurd rfl h
  retried := fun h => by cases h
  count := rfl
  own := fun _ h => by cases h
  claimed := fun h => by rcases h with h | h | h <;> cases h
  ordered := fun pre post h => by cases pre <;> cases h
  repeats := fun m pre post h => by cases pre <;> cases h

/-- A split of a history with one more event is a split of the history, or the event is the last. -/
theorem split_concat {α : Type} {l pre post : List α} {x y : α} (h : l ++ [x] = pre ++ y :: post) :
    (pre = l ∧ y = x) ∨ ∃ post', l = pre ++ y :: post' := by
  rcases List.append_eq_append_iff.1 h with ⟨mid, hpre, hpost⟩ | ⟨mid, hl, hrest⟩
  · cases mid with
    | nil =>
      rw [List.append_nil] at hpre
      exact .inl ⟨hpre, (List.cons.inj hpost).1.symm⟩
    | cons z mid =>
      cases mid <;> cases (List.cons.inj hpost).2
  · cases mid with
    | nil =>
      rw [List.append_nil] at hl
      exact .inl ⟨hl.symm, (List.cons.inj hrest).1⟩
    | cons z mid =>
      obtain ⟨rfl, -⟩ := List.cons.inj hrest
      exact .inr ⟨mid, hl⟩

/-- **A plain event of a begun marker keeps the invariant.** -/
theorem Ledger.Inv.plain {l : Ledger} (h : Ledger.Inv callID l) {e : Event}
    (he : ∃ m ∈ l.begun, e = .stored m ∨ e = .recorded m) : Ledger.Inv callID { l with hist := l.hist ++ [e] } := by
  obtain ⟨m, hm, he⟩ := he
  have hsent : ∀ k, e ≠ .sent k := by
    rintro k rfl
    rcases he with he | he <;> cases he
  have hrepeats : ∀ m, e ≠ .repeats m := by
    rintro m' rfl
    rcases he with he | he <;> cases he
  have hmem : ∀ {e' : Event}, e' ∈ l.hist ++ [e] → e' ∈ l.hist ∨ e' = e := fun h' =>
    (List.mem_append.1 h').imp id List.mem_singleton.1
  refine { h with
    begun := fun m hm => ⟨(h.begun m hm).number, (h.begun m hm).declared, (h.begun m hm).allowed, (h.begun m hm).notSent,
      (h.begun m hm).claim⟩, stored := fun m' h' => ?_, recorded := fun m' h' => ?_, count := ?_, own := fun k h' => ?_,
    claimed := fun hs => List.mem_append_left _ (h.claimed hs), ordered := fun pre post h' => ?_,
    repeats := fun m' pre post h' => ?_ }
  · rcases hmem h' with h' | h'
    · exact h.stored m' h'
    · rcases he with he | he
      · cases h'.trans he
        exact hm
      · cases h'.trans he
  · rcases hmem h' with h' | h'
    · exact h.recorded m' h'
    · rcases he with he | he
      · cases h'.trans he
      · cases h'.trans he
        exact hm
  · rw [List.count_append, List.count_eq_zero_of_not_mem (fun hn => hsent _ (List.mem_singleton.1 hn).symm)]
    exact h.count
  · rcases hmem h' with h' | h'
    · exact h.own k h'
    · exact absurd h'.symm (hsent k)
  · rcases split_concat h' with ⟨-, he'⟩ | ⟨post', hl⟩
    · exact absurd he'.symm (hsent _)
    · exact h.ordered pre post' hl
  · rcases split_concat h' with ⟨-, he'⟩ | ⟨post', hl⟩
    · exact absurd he'.symm (hrepeats _)
    · exact h.repeats m' pre post' hl

/-- A marker that is begun before the dispatch settled is the claim, or tells that nothing was sent. -/
theorem Ledger.Inv.recorded_claim {l : Ledger} (h : Ledger.Inv callID l) (hs : l.stage = .claiming ∨ l.stage = .claimed ∨
    l.stage = .sending) {m : Marker} (hm : .recorded m ∈ l.hist) : m = claimOf callID l.number := by
  have hb := h.begun m (h.recorded m hm)
  have hretried : l.retried = false := by
    cases hr : l.retried with
    | false => rfl
    | true => rcases h.retried hr with hidle | hidle <;> rcases hs with hs | hs | hs <;> cases hidle.symm.trans hs
  have hsent : m.state ≠ .notSent := by
    intro hn
    cases hretried.symm.trans (hb.notSent hn)
  rcases hb.claim hsent with hm | hsettled
  · exact hm
  · rcases hs with hs | hs | hs <;> cases hsettled.symm.trans hs

/-- The dispatch moves on before it settled. -/
theorem Began.move {l l' : Ledger} {m : Marker} (h : Began callID l m) (hs : l.stage ≠ .settled) (hn : l'.number = l.number)
    (ha : l'.allowed = l.allowed) (hr : l'.retried = l.retried) : Began callID l' m :=
  ⟨hn ▸ h.number, h.declared, ha ▸ h.allowed, hr ▸ h.notSent, fun hne => .inl (hn ▸ (h.claim hne).resolve_right hs)⟩

/-- **Every step keeps the invariant.** -/
theorem Ledger.Inv.step {l l' : Ledger} (h : Ledger.Inv callID l) (hs : Ledger.Step callID l l') : Ledger.Inv callID l' := by
  cases hs with
  | decide last allowed hd hp =>
    have hidle : l.allowed = false := by
      cases ha : l.allowed with
      | false => rfl
      | true => cases hd.symm.trans (h.decided ha)
    have hnone : l.begun = [] := by
      refine List.eq_nil_iff_forall_not_mem.2 (fun m hm => ?_)
      cases hidle.symm.trans (h.begun m hm).allowed
    have hstage : l.stage = .idle := by
      by_contra hne
      cases hidle.symm.trans (h.moved hne)
    refine { h with
      decided := fun _ => rfl, permitted := fun ha => ?_, begun := fun m hm => ?_, moved := fun hne => absurd hstage hne }
    · rcases hp ha with hone | ⟨m, rfl, hm⟩
      · exact .inl hone
      · exact .inr ⟨m, List.mem_append_right _ (List.mem_singleton.2 rfl), hm⟩
    · have hm' : m ∈ l.begun := hm
      rw [hnone] at hm'
      cases hm'
  | giveUp ha hstage =>
    refine { h with
      begun := fun m hm => ?_, stored := fun m hm => List.mem_cons_of_mem _ (h.stored m hm),
      recorded := fun m hm => List.mem_cons_of_mem _ (h.recorded m hm), retried := fun _ => hstage }
    rcases List.mem_cons.1 hm with rfl | hm
    · exact ⟨rfl, rfl, ha, fun _ => rfl, fun hne => absurd rfl hne⟩
    · have hb := h.begun m hm
      exact ⟨hb.number, hb.declared, hb.allowed, fun _ => rfl, hb.claim⟩
  | claim ha hstage hr =>
    refine { h with
      begun := fun m hm => ?_, stored := fun m hm => List.mem_cons_of_mem _ (h.stored m hm),
      recorded := fun m hm => List.mem_cons_of_mem _ (h.recorded m hm), moved := fun _ => ha,
      retried := fun hr' => (by cases hr.symm.trans hr'), count := ?_,
      claimed := fun hs => by rcases hs with hs | hs | hs <;> cases hs }
    · rcases List.mem_cons.1 hm with rfl | hm
      · exact ⟨rfl, rfl, ha, fun hn => (by cases hn), fun _ => .inl rfl⟩
      · exact (h.begun m hm).move (by rw [hstage]; decide) rfl rfl rfl
    · have hcount := h.count
      rw [hstage] at hcount
      exact hcount
  | claimed hstage hrec =>
    refine { h with
      begun := fun m hm => ?_, moved := fun _ => h.moved (by rw [hstage]; decide), retried := fun hr => ?_, count := ?_,
      claimed := fun _ => hrec }
    · exact (h.begun m hm).move (by rw [hstage]; decide) rfl rfl rfl
    · rcases h.retried hr with hs | hs <;> cases hstage.symm.trans hs
    · have hcount := h.count
      rw [hstage] at hcount
      exact hcount
  | abandon hstage =>
    refine { h with
      begun := fun m hm => ?_, moved := fun _ => h.moved (by rw [hstage]; decide), retried := fun _ => .inr rfl, count := ?_,
      claimed := fun hs => by rcases hs with hs | hs | hs <;> cases hs }
    · exact (h.begun m hm).move (by rw [hstage]; decide) rfl rfl rfl
    · have hcount := h.count
      rw [hstage] at hcount
      exact hcount
  | send hstage =>
    have hrec := h.claimed (.inl hstage)
    have hmem : ∀ {e' : Event}, e' ∈ l.hist ++ [.sent l.number] → e' ∈ l.hist ∨ e' = .sent l.number := fun h' =>
      (List.mem_append.1 h').imp id List.mem_singleton.1
    refine { h with
      begun := fun m hm => ?_, stored := fun m hm => ?_, recorded := fun m hm => ?_,
      moved := fun _ => h.moved (by rw [hstage]; decide), retried := fun hr => ?_, count := ?_, own := fun k hk => ?_,
      claimed := fun _ => List.mem_append_left _ hrec, ordered := fun pre post h' => ?_, repeats := fun m pre post h' => ?_ }
    · exact (h.begun m hm).move (by rw [hstage]; decide) rfl rfl rfl
    · exact h.stored m ((hmem hm).resolve_right (fun he => by cases he))
    · exact h.recorded m ((hmem hm).resolve_right (fun he => by cases he))
    · rcases h.retried hr with hs | hs <;> cases hstage.symm.trans hs
    · have hcount := h.count
      rw [hstage] at hcount
      rw [List.count_append, hcount, List.count_singleton_self]
      rfl
    · rcases hmem hk with hk | hk
      · exact h.own k hk
      · cases hk
        rfl
    · rcases split_concat h' with ⟨hpre, -⟩ | ⟨post', hl⟩
      · rw [hpre]
        exact hrec
      · exact h.ordered pre post' hl
    · rcases split_concat h' with ⟨-, he⟩ | ⟨post', hl⟩
      · cases he
      · exact h.repeats m pre post' hl
  | settle hstage =>
    refine { h with
      begun := fun m hm => ?_, moved := fun _ => h.moved (by rw [hstage]; decide), retried := fun hr => ?_, count := ?_,
      claimed := fun _ => h.claimed (.inr (.inl hstage)) }
    · have hb := h.begun m hm
      exact ⟨hb.number, hb.declared, hb.allowed, hb.notSent, fun _ => .inr rfl⟩
    · rcases h.retried hr with hs | hs <;> cases hstage.symm.trans hs
    · have hcount := h.count
      rw [hstage] at hcount
      exact hcount
  | finish m hstage hm =>
    refine { h with
      begun := fun m' hm' => ?_, stored := fun m hm => List.mem_cons_of_mem _ (h.stored m hm),
      recorded := fun m hm => List.mem_cons_of_mem _ (h.recorded m hm) }
    rcases List.mem_cons.1 hm' with rfl | hm'
    · refine ⟨hm.2.1, ?_, h.moved (by rw [hstage]; decide), fun hn => ?_, fun _ => .inr hstage⟩
      · rcases hm.2.2 with hs | ⟨hs, -⟩ <;> rw [hs] <;> rfl
      · rcases hm.2.2 with hs | ⟨hs, -⟩ <;> cases hn.symm.trans hs
    · have hb := h.begun m' hm'
      exact ⟨hb.number, hb.declared, hb.allowed, hb.notSent, fun _ => .inr hstage⟩
  | repeats hstage hclean =>
    have hmem : ∀ {e' : Event}, e' ∈ l.hist ++ [.repeats (claimOf callID l.number)] →
        e' ∈ l.hist ∨ e' = .repeats (claimOf callID l.number) := fun h' => (List.mem_append.1 h').imp id List.mem_singleton.1
    have hne : l.stage ≠ .idle := by rcases hstage with hs | hs <;> rw [hs] <;> decide
    refine { h with
      begun := fun m hm => ?_, stored := fun m hm => ?_, recorded := fun m hm => ?_, count := ?_, own := fun k hk => ?_,
      claimed := fun hs => List.mem_append_left _ (h.claimed hs), ordered := fun pre post h' => ?_,
      repeats := fun m pre post h' => ?_ }
    · rcases List.mem_cons.1 hm with rfl | hm
      · exact ⟨rfl, rfl, h.moved hne, fun hn => (by cases hn), fun _ => .inl rfl⟩
      · have hb := h.begun m hm
        exact ⟨hb.number, hb.declared, hb.allowed, hb.notSent, hb.claim⟩
    · exact List.mem_cons_of_mem _ (h.stored m ((hmem hm).resolve_right (fun he => by cases he)))
    · exact List.mem_cons_of_mem _ (h.recorded m ((hmem hm).resolve_right (fun he => by cases he)))
    · have hnone : Event.sent l.number ∉ [Event.repeats (claimOf callID l.number)] := fun hn => by
        cases List.mem_singleton.1 hn
      rw [List.count_append, List.count_eq_zero_of_not_mem hnone]
      exact h.count
    · exact h.own k ((hmem hk).resolve_right (fun he => by cases he))
    · rcases split_concat h' with ⟨-, he⟩ | ⟨post', hl⟩
      · cases he
      · exact h.ordered pre post' hl
    · rcases split_concat h' with ⟨hpre, he⟩ | ⟨post', hl⟩
      · cases he
        rw [hpre]
        exact ⟨rfl, hclean⟩
      · exact h.repeats m pre post' hl
  | store m hm => exact h.plain ⟨m, hm, .inl rfl⟩
  | record m hm => exact h.plain ⟨m, hm, .inr rfl⟩

theorem Ledger.Inv.steps {l l' : Ledger} (h : Ledger.Inv callID l) (hs : Ledger.Steps callID l l') : Ledger.Inv callID l' := by
  induction hs with
  | refl => exact h
  | tail _ hstep ih => exact ih.step hstep

theorem number_step {l l' : Ledger} (hs : Ledger.Step callID l l') : l'.number = l.number := by
  cases hs <;> rfl

theorem number_steps {l l' : Ledger} (hs : Ledger.Steps callID l l') : l'.number = l.number := by
  induction hs with
  | refl => rfl
  | tail _ hstep ih => rw [number_step hstep, ih]

/-- A heartbeat that returned no error. -/
theorem Ledger.steps_recorded {l : Ledger} {m : Marker} (hm : m ∈ l.begun) :
    Ledger.Steps callID l { l with hist := l.hist ++ [.stored m, .recorded m] } := by
  have hstore := @Ledger.Step.store callID l m hm
  have hrecord := @Ledger.Step.record callID { l with hist := l.hist ++ [.stored m] } m hm
  have hsteps := (Relation.ReflTransGen.single hstore).tail hrecord
  rw [List.append_assoc] at hsteps
  exact hsteps

/-! ## Tasks -/

/-- At most one task drives the dispatch, and it is where the ledger is. -/
def Exclusive {T : Type} (stageOf : T → Option Stage) (tasks : List T) (now : Stage) : Prop :=
  ∀ (i : Nat) (t : T) (stage : Stage), tasks[i]? = some t → stageOf t = some stage →
    stage = now ∧ ∀ (j : Nat) (t' : T), tasks[j]? = some t' → j ≠ i → stageOf t' = none

section Tasks

variable {T : Type} {stageOf : T → Option Stage} {tasks : List T} {now : Stage} {i : Nat} {t t' : T}

theorem getElem?_set_cases {j : Nat} {u : T} (h : (tasks.set i t')[j]? = some u) :
    (j = i ∧ u = t') ∨ (j ≠ i ∧ tasks[j]? = some u) := by
  by_cases hj : j = i
  · subst hj
    rw [List.getElem?_set_self'] at h
    obtain ⟨-, -, rfl⟩ := Option.map_eq_some_iff.1 h
    exact .inl ⟨rfl, rfl⟩
  · rw [List.getElem?_set_ne (Ne.symm hj)] at h
    exact .inr ⟨hj, h⟩

/-- A task that drives nothing takes another's place. -/
theorem Exclusive.drop (h : Exclusive stageOf tasks now) (ht' : stageOf t' = none) :
    Exclusive stageOf (tasks.set i t') now := by
  intro j u stage hj hu
  rcases getElem?_set_cases hj with ⟨-, rfl⟩ | ⟨-, hj'⟩
  · cases ht'.symm.trans hu
  · obtain ⟨hnow, hothers⟩ := h j u stage hj' hu
    refine ⟨hnow, fun k v hk hne => ?_⟩
    rcases getElem?_set_cases hk with ⟨-, rfl⟩ | ⟨-, hk'⟩
    · exact ht'
    · exact hothers k v hk' hne

/-- No other task drives the dispatch. -/
theorem Exclusive.take (hothers : ∀ j u, tasks[j]? = some u → j ≠ i → stageOf u = none) {now' : Stage}
    (ht' : ∀ stage, stageOf t' = some stage → stage = now') : Exclusive stageOf (tasks.set i t') now' := by
  intro j u stage hj hu
  rcases getElem?_set_cases hj with ⟨rfl, rfl⟩ | ⟨hne, hj'⟩
  · refine ⟨ht' stage hu, fun k v hk hne => ?_⟩
    rcases getElem?_set_cases hk with ⟨hki, -⟩ | ⟨-, hk'⟩
    · exact absurd hki hne
    · exact hothers k v hk' hne
  · cases (hothers j u hj' hne).symm.trans hu

/-- **The task that drives the dispatch moves it on.** -/
theorem Exclusive.consume (h : Exclusive stageOf tasks now) (hi : tasks[i]? = some t) {stage : Stage}
    (ht : stageOf t = some stage) {now' : Stage} (ht' : ∀ stage', stageOf t' = some stage' → stage' = now') :
    Exclusive stageOf (tasks.set i t') now' :=
  Exclusive.take (h i t stage hi ht).2 ht'

/-- A task starts to drive the dispatch. -/
theorem Exclusive.enter (h : Exclusive stageOf tasks now) (hnow : ∀ u : T, stageOf u ≠ some now) {now' : Stage}
    (ht' : ∀ stage', stageOf t' = some stage' → stage' = now') : Exclusive stageOf (tasks.set i t') now' := by
  refine Exclusive.take (fun j u hj _ => ?_) ht'
  cases hu : stageOf u with
  | none => rfl
  | some stage => exact absurd ((h j u stage hj hu).1 ▸ hu) (hnow u)

theorem Exclusive.push (h : Exclusive stageOf tasks now) (ht : stageOf t = none) : Exclusive stageOf (tasks ++ [t]) now := by
  intro j u stage hj hu
  have hold : ∀ {k : Nat} {v : T}, (tasks ++ [t])[k]? = some v → stageOf v ≠ none → tasks[k]? = some v := by
    intro k v hk hv
    rcases Nat.lt_or_ge k tasks.length with hlt | hge
    · rwa [List.getElem?_append_left hlt] at hk
    · rw [List.getElem?_append_right hge] at hk
      have hmem := List.mem_of_getElem? hk
      rw [List.mem_singleton.1 hmem] at hv
      exact absurd ht hv
  obtain ⟨hnow, hothers⟩ := h j u stage (hold hj (by rw [hu]; exact fun h => (by cases h))) hu
  refine ⟨hnow, fun k v hk hne => ?_⟩
  by_contra hv
  exact hv (hothers k v (hold hk hv) hne)

end Tasks

/-! ## Attempts of one call -/

/-- How a call of a fence ended. -/
inductive Outcome where
  | returned
  | notAllowed           -- `DispatchNotAllowedError`
  | insufficientTime     -- `InsufficientAttemptTimeError`, `InsufficientTimeError`
  | aggregate            -- it, and the error of the heartbeat
  | checkpoint           -- `CheckpointError`
  | heartbeat            -- the error of a heartbeat
  | raised               -- the error of `send`
  | cancelled
  deriving DecidableEq, Repr

/-- The calls of a fence. -/
inductive Op where
  | decide
  | dispatch
  | recordNotSent
  | recordCanResend
  | recordProviderID (providerID : String)
  deriving DecidableEq, Repr

/-- The fences of one SDK for a call: their states, those of a new attempt, and what a fence does in a step. -/
structure System where
  State : Type
  start : Int → State → Prop
  step  : State → Option Last → List Event → State → Prop

/-- **A fence does only what the protocol lets an attempt do.** -/
structure Refines (callID : String) (S : System) where
  rel   : S.State → Ledger → Prop
  start : ∀ k s, S.start k s → rel s (Ledger.initial k)
  step  : ∀ s l read evs s', rel s l → Ledger.Inv callID l → S.step s read evs s' →
    ∃ l', Ledger.Steps callID l l' ∧ rel s' l' ∧ l'.hist = l.hist ++ evs ∧ l'.reads = l.reads ++ read.toList

structure World (S : System) where
  attempts : Int → Option S.State
  log      : List Event

variable {S : System}

def World.init : World S := ⟨fun _ => none, []⟩

def World.put (w : World S) (k : Int) (s : S.State) (evs : List Event) : World S :=
  ⟨fun j => if j = k then some s else w.attempts j, w.log ++ evs⟩

/-- Attempt `k` reads an error, nothing, or a single marker that an earlier attempt stored. -/
def World.mayRead (w : World S) (k : Int) : Last → Prop
  | .error | .nothing => True
  | .value m => .stored m ∈ w.log ∧ m.attempt < k

inductive World.Step : World S → World S → Prop
  -- a new attempt, numbered above every attempt so far
  | start (w : World S) (k : Int) (s : S.State) (hk : 1 ≤ k) (hnew : ∀ j, (w.attempts j).isSome = true → j < k)
      (hs : S.start k s) : Step w (w.put k s [])
  | act (w : World S) (k : Int) (s s' : S.State) (read : Option Last) (evs : List Event) (ha : w.attempts k = some s)
      (hs : S.step s read evs s') (hread : ∀ last ∈ read, w.mayRead k last) : Step w (w.put k s' evs)

inductive World.Run : World S → Prop
  | init : Run World.init
  | step {w w' : World S} (h : Run w) (hs : w.Step w') : Run w'

/-- Every attempt has a ledger, whose history is the attempt's part of the log. -/
structure World.Inv (R : Refines callID S) (w : World S) : Prop where
  attempt   : ∀ k s, w.attempts k = some s → ∃ l, R.rel s l ∧ Ledger.Inv callID l ∧ l.number = k ∧ 1 ≤ k ∧
    l.hist = w.log.filter (·.attempt = k) ∧ ∀ m, .value m ∈ l.reads → .stored m ∈ w.log
  unstarted : ∀ e ∈ w.log, ∃ s, w.attempts e.attempt = some s

/-- What an attempt does is its own. -/
theorem Ledger.Inv.attempt_eq {l : Ledger} (h : Ledger.Inv callID l) {e : Event} (he : e ∈ l.hist) : e.attempt = l.number := by
  cases e with
  | stored m => exact (h.begun m (h.stored m he)).number
  | recorded m => exact (h.begun m (h.recorded m he)).number
  | sent k => exact h.own k he
  | repeats m =>
    obtain ⟨pre, post, hl⟩ := List.append_of_mem he
    rw [(h.repeats m pre post hl).1]
    rfl

theorem World.Inv.start {R : Refines callID S} {w : World S} (h : World.Inv R w) {k : Int} {s : S.State} (hk : 1 ≤ k)
    (hnew : ∀ j, (w.attempts j).isSome = true → j < k) (hs : S.start k s) : World.Inv R (w.put k s []) := by
  have hnone : w.attempts k = none := by
    cases hw : w.attempts k with
    | none => rfl
    | some s' => exact absurd (hnew k (by rw [hw]; rfl)) (Int.lt_irrefl k)
  have hlog : (w.put k s []).log = w.log := List.append_nil _
  refine ⟨fun j s' hj => ?_, fun e he => ?_⟩
  · rw [hlog]
    by_cases hjk : j = k
    · subst hjk
      have hs' : s = s' := Option.some.inj ((if_pos rfl).symm.trans hj)
      subst hs'
      refine ⟨Ledger.initial j, R.start j s hs, inv_initial j, rfl, hk, ?_, fun m hm => (by cases hm)⟩
      refine (List.filter_eq_nil_iff.2 (fun e he heq => ?_)).symm
      obtain ⟨s', hs'⟩ := h.unstarted e he
      rw [of_decide_eq_true heq, hnone] at hs'
      cases hs'
    · exact h.attempt j s' ((if_neg hjk).symm.trans hj)
  · rw [hlog] at he
    obtain ⟨s', hs'⟩ := h.unstarted e he
    by_cases hek : e.attempt = k
    · exact ⟨s, if_pos hek⟩
    · exact ⟨s', (if_neg hek).trans hs'⟩

theorem World.Inv.act {R : Refines callID S} {w : World S} (h : World.Inv R w) {k : Int} {s s' : S.State} {read : Option Last}
    {evs : List Event} (ha : w.attempts k = some s) (hs : S.step s read evs s')
    (hread : ∀ last ∈ read, w.mayRead k last) : World.Inv R (w.put k s' evs) := by
  obtain ⟨l, hrel, hinv, rfl, hpos, hhist, hreads⟩ := h.attempt k s ha
  obtain ⟨l', hsteps, hrel', hhist', hreads'⟩ := R.step s l read evs s' hrel hinv hs
  have hinv' := hinv.steps hsteps
  have hnumber := number_steps hsteps
  have hown : ∀ e ∈ evs, e.attempt = l.number := fun e he => by
    rw [← hnumber]
    exact hinv'.attempt_eq (by rw [hhist']; exact List.mem_append_right _ he)
  refine ⟨fun j t hj => ?_, fun e he => ?_⟩
  · show ∃ l'', R.rel t l'' ∧ Ledger.Inv callID l'' ∧ l''.number = j ∧ 1 ≤ j ∧
      l''.hist = (w.log ++ evs).filter (·.attempt = j) ∧ ∀ m, .value m ∈ l''.reads → .stored m ∈ w.log ++ evs
    rw [List.filter_append]
    by_cases hjk : j = l.number
    · subst hjk
      have ht : s' = t := Option.some.inj ((if_pos rfl).symm.trans hj)
      subst ht
      refine ⟨l', hrel', hinv', hnumber, hpos, ?_, fun m hm => ?_⟩
      · rw [hhist', hhist, List.filter_eq_self.2 (fun e he => decide_eq_true (hown e he))]
      · rw [hreads'] at hm
        rcases List.mem_append.1 hm with hm | hm
        · exact List.mem_append_left _ (hreads m hm)
        · exact List.mem_append_left _ (hread _ (Option.mem_toList.1 hm)).1
    · obtain ⟨l'', hrel'', hinv'', hnum, hpos'', hhist'', hreads''⟩ := h.attempt j t ((if_neg hjk).symm.trans hj)
      refine ⟨l'', hrel'', hinv'', hnum, hpos'', ?_, fun m hm => List.mem_append_left _ (hreads'' m hm)⟩
      have hnone : evs.filter (·.attempt = j) = [] :=
        List.filter_eq_nil_iff.2 (fun e he heq => hjk (by rw [← of_decide_eq_true heq, hown e he]))
      rw [hhist'', hnone, List.append_nil]
  · by_cases hek : e.attempt = l.number
    · exact ⟨s', if_pos hek⟩
    · rcases List.mem_append.1 he with he | he
      · obtain ⟨t, ht⟩ := h.unstarted e he
        exact ⟨t, (if_neg hek).trans ht⟩
      · exact absurd (hown e he) hek

theorem World.inv_run (R : Refines callID S) {w : World S} (h : w.Run) : World.Inv R w := by
  induction h with
  | init => exact ⟨fun k s hs => (by cases hs), fun e he => (by cases he)⟩
  | step _ hs ih =>
    cases hs with
    | start k s hk hnew hs => exact ih.start hk hnew hs
    | act k s s' read evs ha hs hread => exact ih.act ha hs hread

/-! ## The guarantee -/

/-- **At-most-once dispatch, of the log of a run.** -/
structure Once (callID : String) (log : List Event) : Prop where
  once    : ∀ k, log.count (.sent k) ≤ 1
  claimed : ∀ k pre post, log = pre ++ .sent k :: post → .recorded (claimOf callID k) ∈ pre
  last    : ∀ k, .sent k ∈ log → (∀ m, .stored m ∈ log → m.attempt = k → m.state ≠ .canResend) →
    ∀ j, k < j → .sent j ∉ log
  repeats : ∀ m pre post, log = pre ++ .repeats m :: post →
    m = claimOf callID m.attempt ∧ ∀ later, .recorded later ∈ pre → later.attempt = m.attempt → later = m

/-- The part of a log before an event, of the event's attempt. -/
theorem filter_split {log pre post : List Event} {e : Event} (hlog : log = pre ++ e :: post) :
    log.filter (·.attempt = e.attempt) = pre.filter (·.attempt = e.attempt) ++ e :: post.filter (·.attempt = e.attempt) := by
  rw [hlog, List.filter_append, List.filter_cons_of_pos (p := fun e' : Event => decide (e'.attempt = e.attempt)) (decide_eq_true rfl)]

section Guarantee

variable {R : Refines callID S} {w : World S} (h : World.Inv R w)

include h

/-- The ledger of an attempt that did something. -/
theorem World.Inv.ledger {e : Event} (he : e ∈ w.log) : ∃ s l, w.attempts e.attempt = some s ∧ Ledger.Inv callID l ∧
    l.number = e.attempt ∧ l.hist = w.log.filter (·.attempt = e.attempt) ∧
      ∀ m, .value m ∈ l.reads → .stored m ∈ w.log := by
  obtain ⟨s, hs⟩ := h.unstarted e he
  obtain ⟨l, -, hinv, hnumber, -, hhist, hreads⟩ := h.attempt _ s hs
  exact ⟨s, l, hs, hinv, hnumber, hhist, hreads⟩

theorem World.Inv.once (k : Int) : w.log.count (.sent k) ≤ 1 := by
  by_cases hmem : .sent k ∈ w.log
  · obtain ⟨-, l, -, hinv, hnumber, hhist, -⟩ := h.ledger hmem
    have hcount := hinv.count
    have hnum : l.number = k := hnumber
    have hpart : (w.log.filter (·.attempt = k)).count (.sent k) = w.log.count (.sent k) :=
      List.count_filter (p := fun e : Event => decide (e.attempt = k)) (decide_eq_true rfl)
    have hhist' : l.hist = w.log.filter (·.attempt = k) := hhist
    rw [hnum, hhist', hpart] at hcount
    rw [hcount]
    split <;> omega
  · rw [List.count_eq_zero_of_not_mem hmem]
    omega

/-- **No attempt after a send without `canResend` is ever allowed to send**: permission for `j` needs a marker of `j - 1` that
releases it, and whoever stored that marker was allowed to send. -/
theorem World.Inv.not_allowed_after {k : Int} (hsent : .sent k ∈ w.log)
    (hno : ∀ m, .stored m ∈ w.log → m.attempt = k → m.state ≠ .canResend) :
    ∀ (n : Nat) (s : S.State) (l : Ledger), w.attempts (k + n + 1) = some s → Ledger.Inv callID l → l.number = k + n + 1 →
      l.hist = w.log.filter (·.attempt = k + n + 1) → (∀ m, .value m ∈ l.reads → .stored m ∈ w.log) → l.allowed = false := by
  obtain ⟨sk, hsk⟩ := h.unstarted _ hsent
  obtain ⟨lk, -, hinvk, hnumk, hposk, hhistk, -⟩ := h.attempt k sk hsk
  have hsentk : .sent lk.number ∈ lk.hist := by
    rw [hhistk, hnumk]
    exact List.mem_filter.2 ⟨hsent, decide_eq_true rfl⟩
  have hstage : lk.stage = .sending ∨ lk.stage = .settled := by
    by_contra hne
    have hcount := hinvk.count
    rw [if_neg hne, List.count_eq_zero] at hcount
    exact hcount hsentk
  intro n
  induction n with
  | zero =>
    intro s l hs hinv hnum hhist hreads
    by_contra hallowed
    rw [Bool.not_eq_false] at hallowed
    rcases hinv.permitted hallowed with hone | ⟨m, hm, hmk, hrel⟩
    · omega
    · have hstored := hreads m hm
      have hmk' : m.attempt = k := by omega
      have hbegan := hinvk.begun m (hinvk.stored m (by rw [hhistk]; exact List.mem_filter.2 ⟨hstored, decide_eq_true hmk'⟩))
      rw [marker_wire hbegan.declared] at hrel
      rcases hrel with hrel | hrel
      · rcases hinvk.retried (hbegan.notSent hrel) with hidle | hidle <;>
          rcases hstage with hstage | hstage <;> cases hidle.symm.trans hstage
      · exact hno m hstored hmk' hrel
  | succ n ih =>
    intro s l hs hinv hnum hhist hreads
    by_contra hallowed
    rw [Bool.not_eq_false] at hallowed
    rcases hinv.permitted hallowed with hone | ⟨m, hm, hmk, -⟩
    · omega
    · have hstored := hreads m hm
      have hmk' : m.attempt = k + n + 1 := by
        push_cast at hnum
        omega
      obtain ⟨s', l', hs', hinv', hnum', hhist', hreads'⟩ := h.ledger hstored
      have hattempt : (Event.stored m).attempt = k + n + 1 := hmk'
      rw [hattempt] at hs' hnum' hhist'
      have hbegan := hinv'.begun m (hinv'.stored m (by rw [hhist']; exact List.mem_filter.2 ⟨hstored, decide_eq_true hmk'⟩))
      cases (ih s' l' hs' hinv' hnum' hhist' hreads').symm.trans hbegan.allowed

theorem World.Inv.guarantees : Once callID w.log where
  once := h.once
  claimed := by
    intro k pre post hlog
    obtain ⟨-, l, -, hinv, hnumber, hhist, -⟩ := h.ledger (e := .sent k) (by rw [hlog]; simp)
    rw [filter_split hlog] at hhist
    have hnum : l.number = k := hnumber
    have hrec := hinv.ordered (pre.filter (·.attempt = k)) (post.filter (·.attempt = k)) (by rw [hhist, hnum]; rfl)
    rw [hnum] at hrec
    exact List.mem_of_mem_filter hrec
  last := by
    intro k hsent hno j hj hsj
    obtain ⟨s, l, hs, hinv, hnumber, hhist, hreads⟩ := h.ledger hsj
    have hnum : l.number = j := hnumber
    have hmem : .sent l.number ∈ l.hist := by
      rw [hhist, hnum]
      exact List.mem_filter.2 ⟨hsj, decide_eq_true rfl⟩
    have hallowed : l.allowed = true := by
      refine hinv.moved (fun hidle => ?_)
      have hcount := hinv.count
      rw [hidle, if_neg (by decide), List.count_eq_zero] at hcount
      exact hcount hmem
    have hj' : j = k + ((j - k - 1).toNat : Nat) + 1 := by omega
    have hfalse := h.not_allowed_after hsent hno (j - k - 1).toNat s l (by rw [← hj']; exact hs) hinv (by rw [← hj']; exact hnum)
      (by rw [← hj']; exact hhist) hreads
    cases hfalse.symm.trans hallowed
  repeats := by
    intro m pre post hlog
    obtain ⟨-, l, -, hinv, hnumber, hhist, -⟩ := h.ledger (e := .repeats m) (by rw [hlog]; simp)
    rw [filter_split hlog] at hhist
    obtain ⟨hm, hlater⟩ := hinv.repeats m _ _ hhist
    have hnum : l.number = m.attempt := hnumber
    refine ⟨by rw [← hnum]; exact hm, fun later hmem hattempt => ?_⟩
    exact hlater later (List.mem_filter.2 ⟨hmem, decide_eq_true hattempt⟩)

end Guarantee

/-- **Fences that refine the protocol dispatch a call at most once.** -/
theorem World.dispatch_once (R : Refines callID S) {w : World S} (h : w.Run) : Once callID w.log :=
  (World.inv_run R h).guarantees

end Call

end AsyncFence
end Dex
