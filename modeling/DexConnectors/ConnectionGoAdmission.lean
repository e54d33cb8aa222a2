import DexConnectors.ConnectionGoOnce
/-!
# ConnectionGoAdmission — every run of the Go connection store

`dispatch_once_per_fence`: at most one invocation may dispatch for a fence, the one whose own write made the head with that
fence, and the resolver calls its driver at most once for it.  `no_stale_publication`: commits and recoveries change the
head only from a head pending with their exchange, and never again once it has been left.
-/
namespace Dex
namespace Connections

open Lib Lib.Store Lib.Method
open Operation (Time)

variable {C ι α β : Type} {config : Config} {i : ι} {w : World ι}

/-! ## The resolver -/

theorem keeps_abortWith {admission : ExchangeAdmission} {cause : Err} {Q : α → World ι → Prop} (hinv : Inv config w) :
    Keeps (C := C) config i Q (abortWith config admission cause) w := by
  refine (keeps_abortRefresh hinv).attempt.seq (fun aborted _ _ _ _ => ?_) hinv
  cases aborted with
  | ok u => exact ensures_throw
  | error err => exact ensures_throw

theorem keeps_refreshedWith {encode : C → Option Bytes} {admission : ExchangeAdmission} {prior : CredentialMaterial}
    {outcome : Refreshed C} (hinv : Inv config w) :
    Keeps config i (fun _ _ => True) (refreshedWith config encode admission prior outcome) w := by
  cases outcome with
  | failed err =>
    show Ensures _ _ _ (if err.is .reauthorizationRequired then _ else _) w
    split
    · exact (keeps_failCredentialExchange hinv).seq (fun _ _ _ _ _ => ensures_throw) hinv
    · exact keeps_abortWith hinv
  | result credentials expiresAt =>
    refine keeps_now.seq (fun now w₁ _ hi₁ _ => ?_) hinv
    split
    · exact keeps_abortWith hi₁
    split
    · exact keeps_abortWith hi₁
    split
    · exact keeps_abortWith hi₁
    · exact (keeps_commitCredentialExchange hi₁).seq (fun _ _ _ _ _ => ensures_pure (fun _ _ _ => trivial)) hi₁

/-- **The driver is called under a fence that was granted to the caller** and for which it has not been called. -/
theorem ends_refreshAdmitted {encode : C → Option Bytes} {admission : ExchangeAdmission} {prior : CredentialMaterial}
    (hinv : Inv config w) (hgranted : Granted i admission.fence w) :
    Ends config i (fun _ _ => True) (refreshAdmitted config encode admission prior) w := by
  have hrefresh : Ends (C := C) config i (fun _ _ => True) (act (.refresh admission.fence)) w := by
    refine yields_act (fun w₁ outcome w₂ hr₁ hi₁ hs => ?_)
    have hs : step i (.refresh admission.fence : Op C) w₁ outcome w₂ := hs
    have hpre : Pre config i (.refresh admission.fence : Op C) w₁ := hgranted.rely hr₁
    obtain ⟨hinv₂, hguar⟩ := step_safe hs hi₁ hpre
    exact ⟨hinv₂, hguar, fun _ _ _ => trivial⟩
  exact hrefresh.seq (fun outcome w' hi' _ => (keeps_refreshedWith hi').ends) (fun _ _ _ _ _ _ => trivial) hinv

theorem keeps_waitForExchange {err : Err} (hinv : Inv config w) :
    Keeps (C := C) config i (fun _ _ => True) (waitForExchange err) w := by
  unfold waitForExchange
  split
  · exact ensures_throw
  split
  · exact ensures_throw
  · have hwait : Keeps (C := C) config i (fun _ _ => True) (act .wait) w :=
      keeps_any (fun _ _ h => by cases h) (fun _ h => by cases h) (fun _ => trivial)
    refine hwait.seq (fun waited _ _ _ _ => ?_) hinv
    cases waited with
    | none => exact ensures_pure (fun _ _ _ => trivial)
    | some stopped => exact ensures_throw

theorem keeps_recoverRound {recovered : Except Err Connection} {otherwise : Err → M C (Writer ι) (Round C)}
    (h : ∀ err, Keeps config i (fun _ _ => True) (otherwise err) w) :
    Keeps config i (fun _ _ => True) (recoverRound recovered otherwise) w := by
  cases recovered with
  | ok connection => exact ensures_pure (fun _ _ _ => trivial)
  | error err =>
    show Ensures _ _ _ (if err.is .conflict then _ else _) w
    split
    · exact ensures_pure (fun _ _ _ => trivial)
    · exact h err

theorem ends_refreshRound {encode : C → Option Bytes} {record : ConnectionRecord Time} {material : CredentialMaterial}
    {deadline : Time} (hinv : Inv config w) :
    Ends config i (fun _ _ => True) (refreshRound config encode record material deadline) w := by
  refine keeps_newAttemptID.next (fun drawn w₁ _ hi₁ _ => ?_) hinv
  cases drawn with
  | none => exact ends_throw
  | some attemptID =>
    refine Yields.catch (ends_beginExchange hi₁) (fun began w₂ hi₂ hbegan => ?_) hi₁
    cases began with
    | error err =>
      show Ends config i _ (if err.is .conflict then _ else _) w₂
      split
      · exact yields_pure (fun _ _ _ => trivial)
      · exact ends_throw
    | ok admission =>
      show Ends config i _ (if admission.providerDispatchAllowed then _ else _) w₂
      split
      · rename_i hallowed
        exact Yields.seq (ends_refreshAdmitted hi₂ (hbegan hallowed)) (fun _ _ _ _ => yields_pure (fun _ _ _ => trivial))
          (fun _ _ _ _ _ _ => trivial) hi₂
      · exact yields_pure (fun _ _ _ => trivial)

theorem ends_readyRound {decode : Bytes → Option C} {encode : C → Option Bytes} {record : ConnectionRecord Time}
    (hinv : Inv config w) : Ends config i (fun _ _ => True) (readyRound config decode encode record) w := by
  refine (keeps_readMaterial hinv).next (fun material w₁ _ hi₁ _ => ?_) hinv
  split
  · exact ends_throw
  · have hnow : Keeps (C := C) config i (fun _ _ => True) (act (.nowAnd refreshDeadline)) w₁ :=
      keeps_any (fun _ _ h => by cases h) (fun _ h => by cases h) (fun _ => trivial)
    refine hnow.next (fun clock w₂ _ hi₂ _ => ?_) hi₁
    obtain ⟨now, deadline⟩ := clock
    have hrequired : ∀ isExpired, Keeps (C := C) config i (fun _ _ => True) (isRefreshRequired isExpired) w₂ := by
      intro isExpired
      cases isExpired with
      | true => exact ensures_pure (fun _ _ _ => trivial)
      | false => exact keeps_any (fun _ _ h => by cases h) (fun _ h => by cases h) (fun _ => trivial)
    refine (hrequired _).next (fun isRequired w₃ _ hi₃ _ => ?_) hi₂
    split
    · exact ends_refreshRound hi₃
    · exact yields_pure (fun _ _ _ => trivial)

theorem ends_round {decode : Bytes → Option C} {encode : C → Option Bytes} (hinv : Inv config w) :
    Ends config i (fun _ _ => True) (round config decode encode) w := by
  have hcontext : Keeps (C := C) config i (fun _ _ => True) (act .contextErr) w :=
    keeps_any (fun _ _ h => by cases h) (fun _ h => by cases h) (fun _ => trivial)
  refine hcontext.next (fun stopped w₁ _ hi₁ _ => ?_) hinv
  cases stopped with
  | some err => exact ends_throw
  | none =>
    refine (keeps_readRecord hi₁).next (fun found w₂ _ hi₂ _ => ?_) hi₁
    obtain ⟨record, item⟩ := found
    dsimp only
    split
    · exact ends_throw
    · exact ends_throw
    · refine keeps_now.next (fun now w₃ _ hi₃ _ => ?_) hi₂
      split
      · exact ends_throw
      · refine Keeps.ends ((keeps_recoverCredentialExchange hi₃).attempt.seq (fun _ _ _ _ _ => ?_) hi₃)
        exact keeps_recoverRound (fun _ => ensures_throw)
    · refine Keeps.ends ((keeps_recoverCredentialExchange hi₂).attempt.seq (fun _ _ _ hi₃ _ => ?_) hi₂)
      exact keeps_recoverRound (fun _ => keeps_waitForExchange hi₃)
    · exact ends_readyRound hi₂
    · exact ends_throw

theorem ends_resolveRounds {decode : Bytes → Option C} {encode : C → Option Bytes} : ∀ (rounds : Nat) {w : World ι},
    Inv config w → Ends config i (fun _ _ => True) (resolveRounds config decode encode rounds) w
  | 0, _, _ => ends_throw
  | rounds + 1, _, hinv => by
    refine Yields.seq (ends_round hinv) (fun result _ hi' _ => ?_) (fun _ _ _ _ _ _ => trivial) hinv
    cases result with
    | done credentials => exact yields_pure (fun _ _ _ => trivial)
    | again => exact ends_resolveRounds rounds hi'

/-! ## Calls -/

/-- What a call that starts in `w` promises of what it returns. -/
def Promise (config : Config) (i : ι) (w : World ι) : Call C → Except Err (Result C) → World ι → Prop
  | .commitCredentialExchange admission _, r, w' => ∀ a, r = .ok a → Completed config admission w w'
  | .recoverCredentialExchange admission, r, w' => ∀ a, r = .ok a →
    Completed config admission w w' ∨ StillPending config admission w w'
  | .beginCredentialExchange _ _ _, r, w' | .beginRefresh _ _ _, r, w' => ∀ admission, r = .ok (.admission admission) →
    Dispatches i admission w'
  | _, r, _ => ∀ admission, r ≠ .ok (.admission admission)

/-- **Every call is safe**, and keeps its promise. -/
theorem safe_call (call : Call C) (hinv : Inv config w) :
    (protocol config).Safe i (Promise config i w call) (call.method config).run w := by
  have hbegin : ∀ (expectedRevision : UInt64) (attemptID : String) (deadline : Time) (status : CredentialStatus),
      (protocol (C := C) config).Safe i (fun r w' => ∀ admission, r.map Result.admission = .ok (.admission admission : Result C) →
        Dispatches i admission w') (beginExchange config expectedRevision attemptID deadline status).run w := by
    intro expectedRevision attemptID deadline status
    refine Protocol.Safe.mono (fun r w' h admission hr => ?_) (ends_beginExchange hinv)
    cases r with
    | ok a => cases hr; exact h
    | error err => cases hr
  have hquiet : ∀ {α : Type} {f : α → Result C} {m : M C (Writer ι) α}, (∀ a admission, f a ≠ .admission admission) →
      (protocol config).Safe i (fun _ _ => True) m.run w →
      (protocol config).Safe i (fun r _ => ∀ admission, r ≠ .ok (.admission admission)) (f <$> m : M C (Writer ι) (Result C)).run w := by
    intro α f m hf h
    refine safe_map (Protocol.Safe.mono (fun r w' _ admission hr => ?_) h)
    cases r with
    | ok a => exact hf a admission (Except.ok.inj hr)
    | error err => cases hr
  cases call with
  | beginCredentialExchange expectedRevision attemptID deadline => exact safe_map (hbegin _ _ _ _)
  | beginRefresh expectedRevision attemptID deadline => exact safe_map (hbegin _ _ _ _)
  | commitCredentialExchange admission material =>
    refine safe_map ((keeps_commitCredentialExchange hinv).safe (fun r w' _ h a hr => ?_))
    cases r with
    | ok connection => exact h connection rfl
    | error err => cases hr
  | recoverCredentialExchange admission =>
    refine safe_map ((keeps_recoverCredentialExchange hinv).safe (fun r w' _ h a hr => ?_))
    cases r with
    | ok connection => exact h connection rfl
    | error err => cases hr
  | failCredentialExchange admission =>
    exact hquiet (fun _ _ h => by cases h) ((keeps_failCredentialExchange hinv).safe (fun _ _ _ _ => trivial))
  | abortRefresh admission =>
    exact hquiet (fun _ _ h => by cases h) ((keeps_abortRefresh hinv).safe (fun _ _ _ _ => trivial))
  | replaceCredential expectedRevision material =>
    exact hquiet (fun _ _ h => by cases h) ((keeps_replaceCredential hinv).safe (fun _ _ _ _ => trivial))
  | revokeConnection expectedRevision =>
    exact hquiet (fun _ _ h => by cases h) ((keeps_revokeConnection hinv).safe (fun _ _ _ _ => trivial))
  | resolveWithRefresh decode encode rounds =>
    have hresolve : Ends config i (fun _ _ => True) (resolveWithRefresh config decode encode rounds) w := by
      unfold resolveWithRefresh
      split
      · exact ends_throw
      · exact ends_resolveRounds rounds hinv
    exact hquiet (fun _ _ h => by cases h) (Protocol.Safe.mono (fun _ _ _ => trivial) hresolve)

/-! ## Every run -/

/-- **Where a run starts**: any store, written before, and every caller about to make its call. -/
structure Start (config : Config) (c : Lib.Config (Op C) (Ans C (Writer ι)) (Except Err (Result C)) (World ι) ι) : Prop where
  wf        : Wf c.state.objects
  base      : ∀ key, ∀ v ∈ c.state.objects key, v.writer = .base
  issued    : c.state.issued = []
  granted   : c.state.granted = []
  refreshed : c.state.refreshed = []
  calls     : ∀ i, ∃ call : Call C, c.threads i = (call.method config).run

variable {c c' : Lib.Config (Op C) (Ans C (Writer ι)) (Except Err (Result C)) (World ι) ι}

theorem linked_of_base : ∀ {l : List (Version Contents (Writer ι))}, (∀ v ∈ l, v.writer = .base) → Head.Linked entry l
  | [], _ => trivial
  | v :: rest, h => by
    have hkind : ∀ u ∈ v :: rest, (entry u).kind = .base := by
      intro u hu
      rw [entry_kind, h u hu]
      rfl
    refine ⟨?_, linked_of_base (fun u hu => h u (List.mem_cons_of_mem _ hu))⟩
    unfold Head.Follows
    rw [hkind v List.mem_cons_self]
    intro p hp
    obtain ⟨u, hu, rfl⟩ := Option.map_eq_some_iff.1 hp
    exact hkind u (List.mem_cons_of_mem _ (List.mem_of_mem_head? hu))

theorem Start.inv (h : Start config c) : Inv config c.state where
  wf := h.wf
  linked := linked_of_base (h.base _)
  written := by
    intro v rest hs i op hv
    rw [h.base _ v (hs.subset List.mem_cons_self)] at hv
    cases hv
  published := by
    intro v hv i a f hop
    rw [h.base _ v hv] at hop
    cases hop
  unique := by
    intro x j j' hj
    rw [h.issued] at hj
    cases hj
  owned := by
    intro x j hj
    rw [h.issued] at hj
    cases hj
  granted := by
    intro i x f hf
    rw [h.granted] at hf
    cases hf
  once := by
    rw [h.granted]
    exact List.nodup_nil
  refreshed := by
    intro i f hf
    rw [h.refreshed] at hf
    cases hf
  single := by
    rw [h.refreshed]
    exact List.nodup_nil

theorem Start.safe (h : Start config c) (i : ι) :
    (protocol config).Safe i (fun _ _ => True) (c.threads i) c.state := by
  obtain ⟨call, hcall⟩ := h.calls i
  rw [hcall]
  exact (safe_call call h.inv).mono (fun _ _ _ => trivial)

theorem inv_of_run (hstart : Start config c) (hrun : Lib.Config.Run step c c') : Inv config c'.state :=
  (Protocol.safe_run (P := protocol config) (Q := fun _ _ _ => True) hrun hstart.inv hstart.safe).1

/-- **A call keeps its promise from wherever in a run it starts.** -/
theorem promise_of_run {c₁ : Lib.Config (Op C) (Ans C (Writer ι)) (Except Err (Result C)) (World ι) ι}
    (hstart : Start config c) (hrun : Lib.Config.Run step c c₁) (hrun' : Lib.Config.Run step c₁ c') {call : Call C}
    (hcall : c₁.threads i = (call.method config).run) {r : Except Err (Result C)} (hret : c'.threads i = .ret r) :
    Promise config i c₁.state call r c'.state := by
  obtain ⟨hinv, hsafe⟩ :=
    Protocol.safe_run (P := protocol config) (Q := fun _ _ _ => True) hrun hstart.inv hstart.safe
  refine Protocol.post_from (P := protocol config) hrun' hinv hsafe ?_ hret
  rw [hcall]
  exact safe_call call hinv

/-- **One dispatch for a fence.**  In every state that any interleaving of calls reaches, with any answers of the store and
any callers stopped: the invocations that return `ProviderDispatchAllowed` do so under different fences; each of them is the
one whose own write made the head with that fence; and the driver is called at most once for a fence, by the caller of the
invocation that may. -/
theorem dispatch_once_per_fence (hstart : Start config c) (hrun : Lib.Config.Run step c c') :
    (c'.state.granted.map (fun g => g.2.2)).Nodup ∧
    (∀ i invocationID fence, (i, invocationID, fence) ∈ c'.state.granted → Applied config c'.state i invocationID fence) ∧
    (∀ i expectedRevision attemptID deadline admission,
      (c.threads i = ((Call.beginCredentialExchange expectedRevision attemptID deadline : Call C).method config).run ∨
        c.threads i = ((Call.beginRefresh expectedRevision attemptID deadline : Call C).method config).run) →
      c'.threads i = .ret (.ok (.admission admission)) → admission.providerDispatchAllowed = true →
      ∃ invocationID, (i, invocationID, admission.fence) ∈ c'.state.granted) ∧
    (c'.state.refreshed.map Prod.snd).Nodup ∧
    (∀ i fence, (i, fence) ∈ c'.state.refreshed → ∃ invocationID, (i, invocationID, fence) ∈ c'.state.granted) := by
  have hinv := inv_of_run hstart hrun
  refine ⟨hinv.once, hinv.granted, ?_, hinv.single, hinv.refreshed⟩
  rintro i expectedRevision attemptID deadline admission (hcall | hcall) hret hallowed
  · exact (promise_of_run hstart .refl hrun hcall hret admission rfl hallowed).1
  · exact (promise_of_run hstart .refl hrun hcall hret admission rfl hallowed).1

/-! ### A run -/

def sampleKey : ConnectionKey := ⟨"gmail", ascii "main"⟩

def sampleConfig : Config where
  scope := ⟨"p", "live"⟩
  scopePath := "projects/p/live"
  isScope := by rfl
  key := sampleKey
  isKey := by decide
  digest := fun _ => "0000000000000000000000000000000000000000000000000000000000000000"
  digestLen := fun _ => by decide

theorem isClock_sampleDeadline : Lib.isClock 0 1 0 = true := by decide

def sampleDeadline : Time := ⟨⟨1, 1, 1, 0, 1, 0, Lib.yearOneStart.date, isClock_sampleDeadline⟩, 0, 0, Operation.Time.zero.inSecond⟩

def emptyWorld (ι : Type) : World ι := ⟨fun _ => [], [], [], []⟩

/-- The head that the first admission writes. -/
def sampleAdmitted : ConnectionRecord Time :=
  admittedRecord sampleConfig (newRecord sampleConfig) "a" "n" sampleDeadline .authorizing

def sampleContents : Contents := ⟨.head ⟨Wire.connectionSchemaVersion, sampleKey, ⟨"p", "live"⟩, 1, 1, .authorizing, none, [], none,
  some ⟨"AUTHORIZING", "n", "a", 1, 0, OperationWire.fieldsOf sampleDeadline, "projects/p/live/connections/gmail/bWFpbg/exchange-results/a"⟩⟩, 0⟩

theorem marshal_sampleAdmitted : marshalRecord sampleAdmitted = some sampleContents := by
  decide

def sampleVersion (i : ι) : Version Contents (Writer ι) := ⟨"1", "e", sampleContents, .caller i .admission⟩

/-- The store after the first admission. -/
def begunWorld (i : ι) : World ι :=
  ⟨put (fun _ => []) (connectionHeadPath sampleConfig.path) (sampleVersion i), [("n", i)], [(i, "n", 1)], []⟩

def sampleAdmission : ExchangeAdmission := ⟨"a", 1, sampleDeadline, true⟩

theorem fresh_of_empty {T : Type} {s : Objects Contents T} {key : String} {v : Version Contents T} (hs : s key = [])
    (hid : v.id ≠ "") (hetag : v.etag ≠ "") : Fresh s key v := by
  refine ⟨hid, hetag, fun u hu => ?_, fun u hu => ?_⟩
  · rw [hs] at hu
    cases hu
  · rw [hs] at hu
    cases hu

theorem sample_begins (i : ι) :
    Returns (step (C := C) i) (beginCredentialExchange sampleConfig 0 "a" sampleDeadline) (emptyWorld ι) sampleAdmission
      (begunWorld i) := by
  let drawn : World ι := ⟨fun _ => [], [("n", i)], [], []⟩
  let written : World ι := ⟨(begunWorld i).objects, [("n", i)], [], []⟩
  have hread : Prog.Exec (step (C := C) i) (readRecord sampleConfig).run (emptyWorld ι) (.error .objectNotFound) (emptyWorld ι) :=
    raises_bind.2 (.inl (raises_bind.2 (.inr ⟨.absent, _, returns_act.2 ⟨rfl, rfl⟩, rfl, rfl⟩)))
  have hprior : Returns (step (C := C) i) (readPrior sampleConfig true) (emptyWorld ι) (newRecord sampleConfig, "") (emptyWorld ι) :=
    returns_bind.2 ⟨_, _, returns_attempt.2 hread, returns_pure.2 ⟨rfl, rfl⟩⟩
  have hwrites : Returns (step (C := C) i) (writeRecord sampleConfig .admission sampleAdmitted "") drawn (sampleVersion i) written := by
    unfold writeRecord
    rw [marshal_sampleAdmitted]
    refine returns_bind.2 ⟨.applied (sampleVersion i), written, returns_act.2 ?_, returns_pure.2 ⟨rfl, rfl⟩⟩
    exact ⟨_, .inl ⟨rfl, sampleVersion i, fresh_of_empty rfl (show "1" ≠ "" by decide) (show "e" ≠ "" by decide), rfl, rfl,
      rfl, .inl rfl⟩, rfl⟩
  have hadmits : Returns (step (C := C) i) (admitExchange sampleConfig (newRecord sampleConfig) "" 0 "a" sampleDeadline .authorizing)
      (emptyWorld ι) sampleAdmission (begunWorld i) := by
    refine returns_bind.2 ⟨Operation.Time.zero, _, returns_act.2 rfl, ?_⟩
    rw [if_neg (by decide)]
    refine returns_bind.2 ⟨Operation.Time.zero, _, returns_act.2 rfl, ?_⟩
    rw [if_neg (by decide), if_neg (by decide), if_neg (by decide)]
    refine returns_bind.2 ⟨some "n", drawn, returns_act.2 ⟨⟨fun j h => (by cases h), fun key v hv => (by cases hv)⟩, rfl⟩, ?_⟩
    refine returns_bind.2 ⟨.ok (sampleVersion i), written, returns_attempt.2 hwrites, ?_⟩
    exact returns_bind.2 ⟨(), begunWorld i, returns_act.2 rfl, returns_pure.2 ⟨rfl, rfl⟩⟩
  exact returns_bind.2 ⟨_, _, hprior, returns_bind.2 ⟨false, _, returns_pure.2 ⟨rfl, rfl⟩, hadmits⟩⟩

/-- One caller about to begin an exchange on an empty store. -/
def sampleStart : Lib.Config (Op Unit) (Ans Unit (Writer Unit)) (Except Err (Result Unit)) (World Unit) Unit :=
  ⟨emptyWorld Unit, fun _ => ((Call.beginCredentialExchange 0 "a" sampleDeadline : Call Unit).method sampleConfig).run⟩

theorem start_of_empty {threads : ι → Prog (Op C) (Ans C (Writer ι)) (Except Err (Result C))}
    (h : ∀ i, ∃ call : Call C, threads i = (call.method sampleConfig).run) : Start sampleConfig ⟨emptyWorld ι, threads⟩ :=
  ⟨wf_empty, fun _ _ hv => (by cases hv), rfl, rfl, rfl, h⟩

theorem dispatch_once_per_fence_begun :
    Lib.Config.Run step sampleStart ⟨begunWorld (), fun _ => .ret (.ok (.admission sampleAdmission))⟩ ∧
      ∃ invocationID, ((), invocationID, 1) ∈ (begunWorld ()).granted := by
  have hcall : Prog.Exec (step ()) ((Call.beginCredentialExchange 0 "a" sampleDeadline : Call Unit).method sampleConfig).run
      (emptyWorld Unit) (.ok (.admission sampleAdmission)) (begunWorld ()) := by
    exact returns_bind.2 ⟨_, _, sample_begins (), rfl, rfl⟩
  have hrun : Lib.Config.Run step sampleStart ⟨begunWorld (), fun _ => .ret (.ok (.admission sampleAdmission))⟩ :=
    Lib.Config.run_alone step () (c := sampleStart) hcall
  refine ⟨hrun, ?_⟩
  exact (dispatch_once_per_fence (start_of_empty fun _ => ⟨_, rfl⟩) hrun).2.2.1 () 0 "a" sampleDeadline sampleAdmission
    (.inl rfl) rfl rfl

/-! ## Stale exchanges -/

/-- The exchange a head write ends. -/
def HeadOp.exchange : HeadOp → Option (String × UInt64)
  | .publish attemptID fence | .restore attemptID fence | .fail attemptID fence => some (attemptID, fence)
  | _ => none

theorem pending_of_exchange {op : HeadOp} {old new : ConnectionRecord Time} {a : String} {f : UInt64} (h : HeadWrite op old new)
    (hop : op.exchange = some (a, f)) : Pending a f old := by
  obtain ⟨-, h⟩ := h
  cases op <;> cases hop <;> exact h.1

/-- **The end of an exchange is onto a head that has it pending.** -/
theorem Inv.onto (h : Inv config w) {v : Version Contents (Writer ι)} {rest : List (Version Contents (Writer ι))} {op : HeadOp}
    {a : String} {f : UInt64} (hs : v :: rest <:+ w.objects (connectionHeadPath config.path)) (hv : v.writer = .caller i op)
    (hop : op.exchange = some (a, f)) :
    ∃ p older old, rest = p :: older ∧ checkRecord config p = .ok old ∧ Pending a f old := by
  obtain ⟨old, new, -, hwrite, hprior⟩ := h.written v rest hs i op hv
  have hpending := pending_of_exchange hwrite hop
  cases rest with
  | nil =>
    obtain ⟨-, m, hm, -⟩ := hpending
    rw [show old = newRecord config from hprior] at hm
    cases hm
  | cons p older => exact ⟨p, older, old, rfl, hprior, hpending⟩

/-- The abstract head of a pending record. -/
theorem entry_pending {p : Version Contents (Writer ι)} {old : ConnectionRecord Time} {a : String} {f : UInt64}
    (hp : checkRecord config p = .ok old) (hpend : Pending a f old) : (entry p).fence = natOf f ∧ (entry p).pending ≠ none := by
  rw [entry_of_unmarshal (checkRecord_unmarshal hp)]
  obtain ⟨hf, m, hm, -⟩ := hpend
  exact ⟨congrArg natOf hf, by rw [hm]; simp⟩

/-- A version that a caller wrote over the head is not from before the run. -/
theorem Inv.kind_ne_base (h : Inv config w) {x : Version Contents (Writer ι)} {rest : List (Version Contents (Writer ι))}
    {op : HeadOp} (hs : x :: rest <:+ w.objects (connectionHeadPath config.path)) (hx : x.writer = .caller i op) :
    (entry x).kind ≠ .base := by
  obtain ⟨old, new, -, hwrite, -⟩ := h.written x rest hs i op hx
  rw [entry_kind, hx]
  cases op with
  | object => exact hwrite.2.elim
  | _ => simp [Writer.kind]

/-- A version of the run is not followed by one from before it. -/
theorem Inv.not_base (h : Inv config w) {newer older : List (Version Contents (Writer ι))} {x : Version Contents (Writer ι)}
    (hw : w.objects (connectionHeadPath config.path) = newer ++ x :: older) (hx : (entry x).kind ≠ .base) :
    ∀ u ∈ newer ++ [x], (entry u).kind ≠ .base := by
  intro u hu hbase
  rcases List.mem_append.1 hu with hu | hu
  · obtain ⟨front, back, rfl⟩ := List.append_of_mem hu
    have hlink : Head.Linked entry (u :: (back ++ x :: older)) := h.linked.suffix ⟨front, by rw [hw]; simp⟩
    exact hx (Head.base_of_base hlink hbase x (by simp))
  · rw [List.mem_singleton.1 hu] at hbase
    exact hx hbase

/-- Once the head has left a pending exchange, nothing ends the exchange again. -/
theorem Inv.left (h : Inv config w) {newer older : List (Version Contents (Writer ι))} {x p : Version Contents (Writer ι)}
    {old : ConnectionRecord Time} {a : String} {f : UInt64} {k : ι} {op : HeadOp}
    (hw : w.objects (connectionHeadPath config.path) = newer ++ x :: p :: older) (hx : x.writer = .caller k op)
    (hp : checkRecord config p = .ok old) (hpend : Pending a f old) {v : Version Contents (Writer ι)} (hv : v ∈ newer)
    {op' : HeadOp} (hvw : v.writer = .caller i op') : op'.exchange ≠ some (a, f) := by
  intro hop
  have hlater := h.not_base hw (h.kind_ne_base ⟨newer, hw.symm⟩ hx)
  obtain ⟨front, back, rfl⟩ := List.append_of_mem hv
  have hvs : v :: (back ++ x :: p :: older) <:+ w.objects (connectionHeadPath config.path) := ⟨front, by rw [hw]; simp⟩
  obtain ⟨q, before, oldq, hrest, hcheck, hpendq⟩ := h.onto hvs hvw hop
  have hq : q ∈ (front ++ v :: back) ++ [x] := by
    cases back with
    | nil => cases hrest; simp
    | cons b back => cases hrest; simp
  have hlinked := h.linked
  rw [hw, show (front ++ v :: back) ++ x :: p :: older = ((front ++ v :: back) ++ [x]) ++ p :: older by simp] at hlinked
  obtain ⟨hqf, hqp⟩ := entry_pending hcheck hpendq
  have := Head.pending_after hlinked hlater hq hqp
  rw [hqf, (entry_pending hp hpend).1] at this
  omega

/-- Above a head that was left by anything but the publication of its exchange, every fence is larger. -/
theorem Inv.fence_lt (h : Inv config w) {newer older : List (Version Contents (Writer ι))} {x p : Version Contents (Writer ι)}
    {old : ConnectionRecord Time} {a : String} {f : UInt64} {k : ι} {op : HeadOp}
    (hw : w.objects (connectionHeadPath config.path) = newer ++ x :: p :: older) (hx : x.writer = .caller k op)
    (hp : checkRecord config p = .ok old) (hpend : Pending a f old) (hop : op ≠ .publish a f)
    {v : Version Contents (Writer ι)} (hv : v ∈ newer ++ [x]) : natOf f < (entry v).fence := by
  have hxs : x :: p :: older <:+ w.objects (connectionHeadPath config.path) := ⟨newer, hw.symm⟩
  have hxk := h.kind_ne_base hxs hx
  have hpublish : (entry x).kind ≠ .publish := by
    intro hk
    rw [entry_kind, hx] at hk
    obtain ⟨old', new, -, hwrite, hprior⟩ := h.written x (p :: older) hxs k op hx
    cases op with
    | publish a' f' =>
      have hold : checkRecord config p = .ok old' := hprior
      rw [hp] at hold
      cases hold
      obtain ⟨hf, m, hm, hid⟩ := hwrite.2.1
      obtain ⟨hf', m', hm', hid'⟩ := hpend
      rw [hm] at hm'
      cases hm'
      rw [← hid, ← hid', ← hf, ← hf'] at hop
      exact hop rfl
    | _ => cases hk
  have hstep := (Head.fence_step (h.linked.suffix hxs) hxk).2 hpublish
  rw [(entry_pending hp hpend).1] at hstep
  have hlater := h.not_base hw hxk
  rcases List.mem_append.1 hv with hv | hv
  · obtain ⟨front, back, rfl⟩ := List.append_of_mem hv
    have hlink : Head.Linked entry (v :: (back ++ x :: p :: older)) := h.linked.suffix ⟨front, by rw [hw]; simp⟩
    have := (Head.fence_le hlink (hlater v (by simp)) (fun u hu => hlater u (by simp [hu]))).1
    omega
  · rw [List.mem_singleton.1 hv]
    exact hstep

/-- A version that was the newest since a head was left is above it. -/
theorem newest_above {w' : World ι} {newer older : List (Version Contents (Writer ι))} {x p v : Version Contents (Writer ι)}
    (hw : w.objects (connectionHeadPath config.path) = newer ++ x :: p :: older) (hv : Newest config w w' v) :
    ∃ above, w'.objects (connectionHeadPath config.path) = above ++ x :: p :: older ∧ v ∈ above ++ [x] := by
  obtain ⟨rest, ⟨front, hfront⟩, ⟨back, hback⟩⟩ := hv
  rw [hw] at hback
  refine ⟨front ++ (back ++ newer), by rw [← hfront, ← hback]; simp, ?_⟩
  rcases hnil : back ++ newer with _ | ⟨y, ys⟩
  · have : x :: p :: older = v :: rest := by
      rw [← hback, ← List.append_assoc, hnil]
      rfl
    cases this
    simp
  · have : y :: ys ++ x :: p :: older = v :: rest := by
      rw [← hback, ← List.append_assoc, hnil]
    cases this
    simp

/-- A call of an exchange that the head has left succeeds only when it has been published. -/
theorem Inv.success {w' : World ι} (h' : Inv config w') {newer older : List (Version Contents (Writer ι))}
    {x p : Version Contents (Writer ι)} {old : ConnectionRecord Time} {admission : ExchangeAdmission} {k : ι} {op : HeadOp}
    (hw : w.objects (connectionHeadPath config.path) = newer ++ x :: p :: older) (hx : x.writer = .caller k op)
    (hp : checkRecord config p = .ok old) (hpend : Pending admission.attemptID admission.fence old)
    (hsuccess : Completed config admission w w' ∨ StillPending config admission w w') :
    op = .publish admission.attemptID admission.fence ∧ Completed config admission w w' := by
  have hnot : ¬StillPending config admission w w' := by
    rintro ⟨item, record, hitem⟩
    obtain ⟨above, hw', hmem⟩ := newest_above hw hitem.newest
    have hlater := h'.not_base hw' (h'.kind_ne_base ⟨above, hw'.symm⟩ hx)
    have hlinked := h'.linked
    rw [hw', show above ++ x :: p :: older = (above ++ [x]) ++ p :: older by simp] at hlinked
    obtain ⟨hif, hip⟩ := entry_pending hitem.check hitem.pending
    have := Head.pending_after hlinked hlater hmem hip
    rw [hif, (entry_pending hp hpend).1] at this
    omega
  have hcompleted := hsuccess.resolve_right hnot
  refine ⟨?_, hcompleted⟩
  by_contra hop
  obtain ⟨v, record, hnewest, hrec, -, hfence, -⟩ := hcompleted
  obtain ⟨above, hw', hmem⟩ := newest_above hw hnewest
  have := h'.fence_lt hw' hx hp hpend hop hmem
  rw [entry_of_unmarshal hrec] at this
  dsimp only at this
  rw [hfence] at this
  omega

/-! ## What commits and recoveries may write -/

/-- The head writes of an operation. -/
def opOf : Op C → Option HeadOp
  | .create _ _ op | .swap _ _ _ op => some op
  | _ => none

/-- An operation that writes no head, or ends this exchange. -/
def EndsOnly (admission : ExchangeAdmission) (o : Op C) : Prop :=
  ∀ op, opOf o = some op → op = .object ∨ op.exchange = some (admission.attemptID, admission.fence)

section

variable {T : Type} {admission : ExchangeAdmission}

theorem performs_readObject (key version : String) :
    (readObject key version : M C T (Version Contents T)).run.Performs (EndsOnly admission) := by
  refine performs_seq (performs_act (fun _ h => by cases h)) (fun answer => ?_)
  cases answer <;> trivial

theorem performs_readUncompleted : (readUncompleted config admission : M C T (Admitted T)).run.Performs (EndsOnly admission) := by
  have hrecord : (readRecord config : M C T _).run.Performs (EndsOnly admission) :=
    performs_seq (performs_readObject _ _) (fun _ => performs_seq trivial (fun _ => trivial))
  have hadmitted : (readAdmitted config admission : M C T _).run.Performs (EndsOnly admission) :=
    performs_seq hrecord (fun _ => trivial)
  refine performs_seq hadmitted (fun found => ?_)
  obtain ⟨record, item, admitted⟩ := found
  dsimp only
  split
  · trivial
  · refine performs_seq ?_ (fun isComplete => ?_)
    · unfold isCompletedExchange
      split
      · trivial
      split
      · trivial
      split
      · trivial
      · refine performs_seq (performs_readObject _ _) (fun object => ?_)
        split <;> trivial
    · split <;> trivial

theorem performs_observeObject (key : String) (contents : Contents) (failure : Err) :
    (observeObject key contents failure : M C T (Version Contents T)).run.Performs (EndsOnly admission) := by
  refine performs_seq (performs_act (fun _ h => by cases h)) (fun answer => ?_)
  cases answer with
  | found item =>
    dsimp only
    split <;> trivial
  | absent => trivial
  | failed => trivial

theorem performs_writeRecord {op : HeadOp} (hop : op.exchange = some (admission.attemptID, admission.fence))
    (record : ConnectionRecord Time) (etag : String) :
    (writeRecord config op record etag : M C T (Version Contents T)).run.Performs (EndsOnly admission) := by
  unfold writeRecord
  split
  · trivial
  · refine performs_seq ?_ (fun answer => ?_)
    · unfold writeContents
      split
      · exact performs_act (fun _ h => by cases h; exact .inr hop)
      · exact performs_act (fun _ h => by cases h; exact .inr hop)
    · cases answer with
      | unknown => exact performs_observeObject _ _ _
      | applied item => trivial
      | conflict => trivial
      | failed => trivial

theorem performs_publishExchange (record : ConnectionRecord Time) (etag : String) (reference : ObjectReference)
    (expiresAt : Option Time) (authMethod : Bytes) :
    (publishExchange config admission record etag reference expiresAt authMethod : M C T Connection).run.Performs
      (EndsOnly admission) :=
  performs_seq (performs_writeRecord rfl _ _) (fun _ => trivial)

theorem performs_commitCredentialExchange (material : CredentialMaterial) :
    (commitCredentialExchange config admission material : M C T Connection).run.Performs (EndsOnly admission) := by
  refine performs_seq performs_readUncompleted (fun admitted => ?_)
  cases admitted with
  | completed connection => trivial
  | pending record mutation item =>
    dsimp only
    split
    · trivial
    split
    · trivial
    · refine performs_seq (performs_seq (performs_seq (performs_act (fun _ h => by cases h; exact .inl rfl)) (fun answer => ?_))
        (fun item => ?_)) (fun _ => performs_publishExchange _ _ _ _ _)
      · cases answer with
        | applied item => trivial
        | failed => trivial
        | conflict => exact performs_observeObject _ _ _
        | unknown => exact performs_observeObject _ _ _
      · split <;> trivial

theorem performs_recoverCredentialExchange :
    (recoverCredentialExchange config admission : M C T Connection).run.Performs (EndsOnly admission) := by
  refine performs_seq performs_readUncompleted (fun admitted => ?_)
  cases admitted with
  | completed connection => trivial
  | pending record mutation item =>
    refine performs_seq (performs_act (fun _ h => by cases h)) (fun answer => ?_)
    cases answer with
    | failed => trivial
    | found result => exact performs_seq trivial (fun _ => performs_publishExchange _ _ _ _ _)
    | absent =>
      refine performs_seq (performs_act (fun _ h => by cases h)) (fun now => ?_)
      split
      · trivial
      split
      · exact performs_seq (performs_writeRecord rfl _ _) (fun _ => trivial)
      · exact performs_seq (performs_seq (performs_writeRecord rfl _ _) (fun _ => trivial)) (fun _ => trivial)

end

/-- What one operation leaves of the versions by another caller. -/
theorem writer_of_step {o : Op C} {w w' : World ι} {j : ι} {a : Ans C (Writer ι) o} (hs : step j o w a w') {key : String}
    {v : Version Contents (Writer ι)} (hv : v ∈ w'.objects key) : v ∈ w.objects key ∨
      ∃ op, opOf o = some op ∧ v.writer = .caller j op := by
  have hput : ∀ {s : Objects Contents (Writer ι)} {k : String} {u : Version Contents (Writer ι)},
      v ∈ put s k u key → v ∈ s key ∨ v = u := by
    intro s k u h
    by_cases hk : key = k
    · subst hk
      rw [put_same] at h
      exact (List.mem_cons.1 h).symm
    · rw [put_of_ne s u hk] at h
      exact .inl h
  cases o with
  | swap k etag contents op =>
    obtain ⟨s, ⟨-, u, -, -, huw, rfl, -⟩ | ⟨rfl, -⟩, rfl⟩ := hs
    · exact (hput hv).imp id (fun h => ⟨op, rfl, by rw [h, huw]⟩)
    · exact .inl hv
  | create k contents op =>
    obtain ⟨s, ⟨-, u, -, -, huw, rfl, -⟩ | ⟨rfl, -⟩, rfl⟩ := hs
    · exact (hput hv).imp id (fun h => ⟨op, rfl, by rw [h, huw]⟩)
    · exact .inl hv
  | newAttemptID =>
    cases a with
    | none =>
      rw [show w' = w from hs] at hv
      exact .inl hv
    | some id =>
      obtain ⟨-, rfl⟩ := hs
      exact .inl hv
  | read k version =>
    obtain ⟨-, rfl⟩ := hs
    exact .inl hv
  | nowAnd later =>
    obtain ⟨-, rfl⟩ := hs
    exact .inl hv
  | now | contextErr | wait | refreshRequired =>
    rw [show w' = w from hs] at hv
    exact .inl hv
  | grant x f =>
    rw [show w' = _ from hs] at hv
    exact .inl hv
  | refresh f =>
    rw [show w' = _ from hs] at hv
    exact .inl hv

/-- **A caller that ends only one exchange wrote no other head.** -/
theorem writes_of_run {admission : ExchangeAdmission} (hrun : Lib.Config.Run step c c')
    (hbase : ∀ key, ∀ v ∈ c.state.objects key, ∀ op, v.writer ≠ .caller i op)
    (hperforms : (c.threads i).Performs (EndsOnly admission)) :
    (c'.threads i).Performs (EndsOnly admission) ∧ ∀ key, ∀ v ∈ c'.state.objects key, ∀ op, v.writer = .caller i op →
      op = .object ∨ op.exchange = some (admission.attemptID, admission.fence) := by
  induction hrun with
  | refl => exact ⟨hperforms, fun key v hv op h => absurd h (hbase key v hv op)⟩
  | tail _ hstep ih =>
    obtain ⟨j, o, k, r, hj, hs, hk, hother⟩ := hstep
    obtain ⟨ihp, ihw⟩ := ih
    by_cases hij : i = j
    · subst hij
      rw [hj] at ihp
      refine ⟨by rw [hk]; exact ihp.2 r, fun key v hv op hop => ?_⟩
      rcases writer_of_step hs hv with hv | ⟨op', hop', hw⟩
      · exact ihw key v hv op hop
      · rw [hop] at hw
        cases hw
        exact ihp.1 op hop'
    · refine ⟨by rw [hother i hij]; exact ihp, fun key v hv op hop => ?_⟩
      rcases writer_of_step hs hv with hv | ⟨op', -, hw⟩
      · exact ihw key v hv op hop
      · rw [hop] at hw
        cases hw
        exact absurd rfl hij

/-- A commit or a recovery of this admission. -/
def IsResultCall (admission : ExchangeAdmission) (call : Call C) : Prop :=
  (∃ material, call = .commitCredentialExchange admission material) ∨ call = .recoverCredentialExchange admission

/-- **No stale publication.**  In every state that any interleaving of calls reaches: a commit or a recovery of an admission
wrote no head but ends of its own exchange; the end of an exchange is written onto an accepted head pending with exactly that
exchange; a publication makes the head `READY` under the same fence, with a reference to a result object of that attempt and
fence; when the head has left a pending exchange nothing ends it again; and a commit or recovery that starts after that
succeeds only when the head was left by the publication, having seen the head `READY` with that result. -/
theorem no_stale_publication (hstart : Start config c) (hrun : Lib.Config.Run step c c') :
    (∀ i admission (call : Call C), IsResultCall admission call → c.threads i = (call.method config).run →
      ∀ v ∈ c'.state.objects (connectionHeadPath config.path), ∀ op, v.writer = .caller i op →
      op.exchange = some (admission.attemptID, admission.fence)) ∧
    (∀ v rest i op a f, v :: rest <:+ c'.state.objects (connectionHeadPath config.path) → v.writer = .caller i op →
      op.exchange = some (a, f) → ∃ p older old, rest = p :: older ∧ checkRecord config p = .ok old ∧ Pending a f old) ∧
    (∀ v rest i a f, v :: rest <:+ c'.state.objects (connectionHeadPath config.path) → v.writer = .caller i (.publish a f) →
      ∃ new, marshalRecord new = some v.contents ∧ new.status = .ready ∧ new.fence = f ∧ ResultAt config c'.state a f new) ∧
    (∀ newer x p older k op old a f, c'.state.objects (connectionHeadPath config.path) = newer ++ x :: p :: older →
      x.writer = .caller k op → checkRecord config p = .ok old → Pending a f old →
      ∀ v ∈ newer, ∀ i op', v.writer = .caller i op' → op'.exchange ≠ some (a, f)) ∧
    (∀ c₁, Lib.Config.Run step c c₁ → Lib.Config.Run step c₁ c' →
      ∀ i admission (call : Call C) r, IsResultCall admission call → c₁.threads i = (call.method config).run →
      c'.threads i = .ret (.ok r) →
      ∀ newer x p older k op old, c₁.state.objects (connectionHeadPath config.path) = newer ++ x :: p :: older →
      x.writer = .caller k op → checkRecord config p = .ok old → Pending admission.attemptID admission.fence old →
      op = .publish admission.attemptID admission.fence ∧ Completed config admission c₁.state c'.state) := by
  have hinv := inv_of_run hstart hrun
  refine ⟨?_, fun v rest i op a f hs hv hop => hinv.onto hs hv hop, ?_, ?_, ?_⟩
  · intro i admission call hcall hthread v hv op hop
    have hperforms : (c.threads i).Performs (EndsOnly admission) := by
      rw [hthread]
      rcases hcall with ⟨material, rfl⟩ | rfl
      · exact performs_map (performs_commitCredentialExchange material)
      · exact performs_map performs_recoverCredentialExchange
    have hbase : ∀ key, ∀ u ∈ c.state.objects key, ∀ op, u.writer ≠ .caller i op := by
      intro key u hu op h
      rw [hstart.base key u hu] at h
      cases h
    rcases (writes_of_run hrun hbase hperforms).2 _ v hv op hop with rfl | h
    · obtain ⟨front, back, hw⟩ := List.append_of_mem hv
      obtain ⟨_, _, -, hwrite, -⟩ := hinv.written v back ⟨front, hw.symm⟩ i _ hop
      exact hwrite.2.elim
    · exact h
  · intro v rest i a f hs hv
    obtain ⟨old, new, hc, hwrite, -⟩ := hinv.written v rest hs i _ hv
    obtain ⟨new', hc', hresult⟩ := hinv.published v (hs.subset List.mem_cons_self) i a f hv
    obtain ⟨-, hpending, hready, hfence, -⟩ := hwrite
    have hstored : new'.stored = new.stored :=
      Option.some.inj ((unmarshalRecord_marshalRecord hc').symm.trans (unmarshalRecord_marshalRecord hc))
    refine ⟨new', hc', ?_, ?_, hresult⟩
    · exact (congrArg ConnectionRecord.status hstored).trans hready
    · exact (congrArg ConnectionRecord.fence hstored).trans (hfence.trans hpending.1)
  · intro newer x p older k op old a f hw hx hp hpend v hv i op' hvw
    exact hinv.left hw hx hp hpend hv hvw
  · intro c₁ hrun₁ hrun₂ i admission call r hcall hthread hret newer x p older k op old hw hx hp hpend
    have hpromise := promise_of_run hstart hrun₁ hrun₂ hthread hret
    refine hinv.success hw hx hp hpend ?_
    rcases hcall with ⟨material, rfl⟩ | rfl
    · exact .inl (hpromise r rfl)
    · exact hpromise r rfl

/-! ### A commit -/

def sampleMaterial : CredentialMaterial := ⟨ascii "\x7b\x7d", none, ascii "key"⟩

def sampleEnvelope : Contents := ⟨.envelope ⟨Wire.connectionSchemaVersion, ⟨"p", "live"⟩, sampleKey, 1, "a", ascii "\x7b\x7d", none,
  ascii "key"⟩, 0⟩

def sampleResultKey : String := "projects/p/live/connections/gmail/bWFpbg/exchange-results/a"

def sampleReference : ObjectReference := ⟨sampleResultKey, "1", sampleConfig.digest sampleEnvelope⟩

/-- The head that the commit writes. -/
def samplePublished : ConnectionRecord Time := publishedRecord sampleAdmitted.stored sampleReference none (ascii "key")

def samplePublishedContents : Contents := ⟨.head ⟨Wire.connectionSchemaVersion, sampleKey, ⟨"p", "live"⟩, 2, 1, .ready, none,
  ascii "key", some sampleReference, none⟩, 0⟩

def sampleResult (i : ι) : Version Contents (Writer ι) := ⟨"1", "r", sampleEnvelope, .caller i .object⟩

def samplePublication (i : ι) : Version Contents (Writer ι) := ⟨"2", "f", samplePublishedContents, .caller i (.publish "a" 1)⟩

/-- The store after the commit. -/
def committedWorld (i j : ι) : World ι :=
  { begunWorld i with
    objects := put (put (begunWorld i).objects sampleResultKey (sampleResult j)) (connectionHeadPath sampleConfig.path)
      (samplePublication j) }

theorem marshal_sampleEnvelope :
    marshalEnvelope (envelopeOf sampleConfig sampleAdmitted.stored.fence sampleAdmission.attemptID sampleMaterial) =
      some sampleEnvelope := by
  decide

theorem marshal_samplePublished : marshalRecord samplePublished = some samplePublishedContents := by
  decide

theorem check_sampleVersion (i : ι) : checkRecord sampleConfig (sampleVersion i) = .ok sampleAdmitted.stored := by
  rfl

theorem sample_commits (i j : ι) :
    Returns (step (C := C) j) (commitCredentialExchange sampleConfig sampleAdmission sampleMaterial) (begunWorld i)
      samplePublished.connection (committedWorld i j) := by
  let created : World ι := { begunWorld i with objects := put (begunWorld i).objects sampleResultKey (sampleResult j) }
  have hread : Returns (step (C := C) j) (readRecord sampleConfig) (begunWorld i) (sampleAdmitted.stored, sampleVersion i)
      (begunWorld i) := by
    refine returns_bind.2 ⟨sampleVersion i, _, returns_bind.2 ⟨.found (sampleVersion i), _, returns_act.2 ⟨rfl, rfl⟩,
      returns_pure.2 ⟨rfl, rfl⟩⟩, ?_⟩
    exact returns_bind.2 ⟨_, _, returns_orRaise.2 ⟨check_sampleVersion i, rfl⟩, returns_pure.2 ⟨rfl, rfl⟩⟩
  have huncompleted : Returns (step (C := C) j) (readUncompleted sampleConfig sampleAdmission) (begunWorld i)
      (.pending sampleAdmitted.stored ⟨"AUTHORIZING", "n", "a", 1, 0, sampleDeadline, sampleResultKey⟩ (sampleVersion i))
      (begunWorld i) :=
    returns_bind.2 ⟨_, _, returns_bind.2 ⟨_, _, hread, returns_pure.2 ⟨rfl, rfl⟩⟩, returns_pure.2 ⟨rfl, rfl⟩⟩
  have hcreates : Returns (step (C := C) j) (createImmutable sampleConfig sampleResultKey sampleEnvelope) (begunWorld i)
      sampleReference created := by
    refine returns_bind.2 ⟨sampleResult j, created, returns_bind.2 ⟨.applied (sampleResult j), created, returns_act.2 ?_,
      returns_pure.2 ⟨rfl, rfl⟩⟩, ?_⟩
    · exact ⟨_, .inl ⟨rfl, sampleResult j, fresh_of_empty rfl (show "1" ≠ "" by decide) (show "r" ≠ "" by decide), rfl, rfl,
        rfl, .inl rfl⟩, rfl⟩
    · rw [if_neg (show ¬((sampleResult j).id = "" ∨ (sampleResult j).id = "null") by simp [sampleResult])]
      exact returns_pure.2 ⟨rfl, rfl⟩
  have hwrites : Returns (step (C := C) j) (writeRecord sampleConfig (.publish "a" 1) samplePublished "e") created
      (samplePublication j) (committedWorld i j) := by
    unfold writeRecord
    rw [marshal_samplePublished]
    refine returns_bind.2 ⟨.applied (samplePublication j), committedWorld i j, returns_act.2 ?_, returns_pure.2 ⟨rfl, rfl⟩⟩
    have hhead : created.objects (connectionHeadPath sampleConfig.path) = [sampleVersion i] := by rfl
    refine ⟨_, .inl ⟨⟨sampleVersion i, by rw [hhead]; rfl, rfl⟩, samplePublication j, ⟨?_, ?_, ?_, ?_⟩, rfl, rfl, rfl, .inl rfl⟩,
      rfl⟩
    · show "2" ≠ ""
      decide
    · show "f" ≠ ""
      decide
    · rw [hhead]
      simp [sampleVersion, samplePublication]
    · rw [hhead]
      simp [sampleVersion, samplePublication]
  refine returns_bind.2 ⟨_, _, huncompleted, ?_⟩
  dsimp only
  rw [if_neg (by decide), marshal_sampleEnvelope]
  exact returns_bind.2 ⟨_, _, hcreates, returns_bind.2 ⟨_, _, hwrites, returns_pure.2 ⟨rfl, rfl⟩⟩⟩

/-- One caller about to begin an exchange on an empty store, and one about to commit it. -/
def sampleExchange : Lib.Config (Op Unit) (Ans Unit (Writer Bool)) (Except Err (Result Unit)) (World Bool) Bool where
  state := emptyWorld Bool
  threads
    | false => ((Call.beginCredentialExchange 0 "a" sampleDeadline : Call Unit).method sampleConfig).run
    | true => ((Call.commitCredentialExchange sampleAdmission sampleMaterial : Call Unit).method sampleConfig).run

theorem no_stale_publication_committed :
    ∃ c', Lib.Config.Run step sampleExchange c' ∧ c'.state = committedWorld false true ∧
      ∃ new, marshalRecord new = some samplePublishedContents ∧ new.status = .ready ∧ new.fence = 1 ∧
        ResultAt sampleConfig (committedWorld false true) "a" 1 new := by
  have hbegins : Prog.Exec (step false) (sampleExchange.threads false) sampleExchange.state
      (.ok (.admission sampleAdmission)) (begunWorld false) :=
    returns_bind.2 ⟨_, _, sample_begins false, rfl, rfl⟩
  have hcommits : Prog.Exec (step true) (sampleExchange.threads true) (begunWorld false)
      (.ok (.connection samplePublished.connection)) (committedWorld false true) :=
    returns_bind.2 ⟨_, _, sample_commits false true, rfl, rfl⟩
  have hrun := (Lib.Config.run_alone step false hbegins).trans
    (Lib.Config.run_alone step true (c := ⟨begunWorld false, fun j => if j = false then _ else _⟩) hcommits)
  refine ⟨_, hrun, rfl, ?_⟩
  have hstart : Start sampleConfig sampleExchange := start_of_empty (fun i => by cases i <;> exact ⟨_, rfl⟩)
  exact (no_stale_publication hstart hrun).2.2.1 (samplePublication true) [sampleVersion false] true "a" 1 List.suffix_rfl rfl

end Connections
end Dex
