import DexConnectors.ProviderReplicas
/-!
# ProviderReplicasOnce — one provider dispatch per generation, whatever SDK a replica runs

The calls of a Python replica and those of a TypeScript replica keep one invariant, and leave each other what they count on.
A Python replica reads the head once more before it writes; a TypeScript replica writes onto the version it read first.
Either way the version that a write follows is one that the replica itself has accepted.
-/
namespace Dex
namespace Replicas

open Lib Lib.Store Lib.Method Wire
open Provider (Exc HeadOp Writer World Op Ans M P Config Carries Admitted Rely MayWrite HeadWrite Pending Admission Refreshed
  Round Unused Retries entry entry_head entry_kind step isAdmitted references pending_of_isAdmitted unlessConflict
  isRefreshRequired abandonedStatus)

variable {C ι α β : Type} {config : Config} {reader : ι → HeadReader (Writer ι)} {i : ι} {w : World ι} {Q : α → World ι → Prop}

/-! ## What the SDKs share -/

/-- A head write that ends an exchange or replaces the credential carries no invocation id. -/
theorem mayWrite_of_none {op : HeadOp} {old : Option Record} {new : Record} (h : HeadWrite op old new)
    (hm : new.mutation = none) : MayWrite config i op old new w := by
  refine ⟨h, fun m hm' => ?_⟩
  rw [hm] at hm'
  cases hm'

theorem keeps_isRefreshRequired {isExpired : Bool} :
    Keeps (C := C) config reader i (fun _ _ => True) (isRefreshRequired isExpired) w := by
  unfold isRefreshRequired
  split
  · exact ensures_pure (fun _ _ _ => trivial)
  · exact keeps_any (fun _ h => by cases h) (fun _ => trivial)

/-- An exception is caught. -/
theorem keeps_attempt {m : M C (Writer ι) α} (h : Keeps config reader i Q m w) :
    Keeps config reader i (fun r w' => ∀ a, r = .ok a → Q a w') (ExceptT.lift m.run : M C (Writer ι) (Except Exc α)) w :=
  h.attempt

/-- The rest of a method that may call the driver, after one that does not. -/
theorem Keeps.next {m : M C (Writer ι) α} {f : α → M C (Writer ι) (Round C)} (h : Keeps config reader i Q m w)
    (hf : ∀ a w', Rely i w w' → Inv config reader w' → Q a w' → (protocol config reader).Safe i (Retries i) (f a).run w')
    (hinv : Inv config reader w) : (protocol config reader).Safe i (Retries i) (m >>= f).run w :=
  Ensures.next h (fun _ _ _ he => by cases he) hf hinv

theorem safe_throw {exc : Exc} :
    (protocol config reader).Safe i (Retries i) (throw exc : M C (Writer ι) (Round C)).run w :=
  fun _ _ _ h => by cases h

theorem safe_done {credentials : C} :
    (protocol config reader).Safe i (Retries i) (pure (.done credentials) : M C (Writer ι) (Round C)).run w :=
  fun _ _ _ h => by cases h

theorem safe_unlessConflict {body : M C (Writer ι) α} {next : α → M C (Writer ι) (Round C)} (hinv : Inv config reader w)
    (hunused : Unused i w) (hbody : Keeps config reader i Q body w)
    (hnext : ∀ a w', Rely i w w' → Inv config reader w' → Q a w' →
      (protocol config reader).Safe i (Retries i) (next a).run w') :
    (protocol config reader).Safe i (Retries i) (unlessConflict body next).run w := by
  refine (keeps_attempt hbody).next (fun r w' hr hi hq => ?_) hinv
  cases r with
  | ok a => exact hnext a w' hr hi (hq a rfl)
  | error exc =>
    show (protocol config reader).Safe i (Retries i)
      (if exc.isConflict then pure Round.again else throw exc : M C (Writer ι) (Round C)).run w'
    split
    · exact fun w'' hr' _ _ => (hunused.rely hr).rely hr'
    · exact safe_throw

/-- An observer that has recovered, or waited, tries again. -/
theorem safe_recovered {recover : M C (Writer ι) Unit} (hinv : Inv config reader w) (hunused : Unused i w)
    (hrecover : Keeps config reader i (fun _ _ => True) recover w) :
    (protocol config reader).Safe i (Retries i) (unlessConflict recover (fun _ => pure .again)).run w :=
  safe_unlessConflict hinv hunused hrecover (fun _ _ hr _ _ _ hr' _ _ => (hunused.rely hr).rely hr')

/-- **The driver is called by a replica that was admitted and has not called it before.** -/
theorem safe_refresh {fence : Nat} {rest : Refreshed C → M C (Writer ι) C} (hunused : Unused i w)
    (hadm : Admitted config w i fence)
    (hrest : ∀ outcome w', Inv config reader w' → Keeps config reader i (fun _ _ => True) (rest outcome) w') :
    (protocol config reader).Safe i (fun _ _ => True) (Provider.act (.refresh fence) >>= rest : M C (Writer ι) C).run w := by
  intro w₁ hr₁ hi₁ outcome w₂ hs
  have hpre : Pre config reader i (.refresh fence : Op C) w₁ := ⟨hadm.grows hr₁.objects, hunused.rely hr₁⟩
  have hs : step i (.refresh fence : Op C) w₁ outcome w₂ := hs
  have hinv := inv_step hs hi₁ hpre
  exact ⟨hinv, guar_step hs, (hrest outcome w₂ hinv).safe (fun _ _ _ _ => trivial)⟩

/-- A refresh that was admitted ends the call. -/
theorem safe_refreshed {refresh : M C (Writer ι) C} (hinv : Inv config reader w)
    (h : (protocol config reader).Safe i (fun _ _ => True) refresh.run w) :
    (protocol config reader).Safe i (Retries i) (refresh >>= fun refreshed => pure (.done refreshed)).run w := by
  refine Protocol.Safe.bind h (fun r w' _ _ => ?_) hinv
  cases r with
  | ok => exact safe_done
  | error => exact fun _ _ _ h => by cases h

/-- An exchange that is ended with an exception. -/
theorem keeps_seq_throw {finish : M C (Writer ι) Unit} {exc : Exc} (h : Keeps config reader i (fun _ _ => True) finish w)
    (hinv : Inv config reader w) :
    Keeps config reader i (fun _ _ => True) (finish >>= fun _ => throw exc : M C (Writer ι) α) w :=
  h.seq (fun _ _ _ _ _ => ensures_throw) hinv

/-- The head write of `replace_credential` and of `replaceCredential`. -/
theorem keeps_writeReplaced {prior : Option (Record × Version Text (Writer ι))} {new : Record}
    (hobs : ∀ found, prior = some found → Observed config reader i found w)
    (hwrite : HeadWrite .replace (prior.map Prod.fst) new) (hnone : new.mutation = none) :
    Keeps (C := C) config reader i (fun (answer : WriteAnswer Text (Writer ι)) w' => ∀ v, answer = .applied v →
      v ∈ w'.objects (headPath config.path) ∧ v.contents = dumps (.head new))
      (Provider.writeReplaced config prior (dumps (.head new))) w := by
  cases prior with
  | none => exact keeps_createHead (fun w' _ => mayWrite_of_none hwrite hnone)
  | some found => exact keeps_swap (hobs found rfl) (mayWrite_of_none hwrite hnone)

/-- What a replacement starts from: no head, or one that was read. -/
theorem headWrite_replace {prior : Option (Record × Version Text (Writer ι))} {expectedRevision : Nat} {new : Record}
    (hrevision : (prior.map (fun p => p.1.revision)).getD 0 = expectedRevision) (hready : new.status = .ready)
    (hnew : new.revision = expectedRevision + 1) (hfence : new.fence = (prior.map (fun p => p.1.fence)).getD 0 + 1)
    (hnone : new.mutation = none) : HeadWrite .replace (prior.map Prod.fst) new := by
  refine ⟨hready, ?_, ?_, hnone⟩
  · rw [Option.map_map, hnew, ← hrevision]
    rfl
  · rw [Option.map_map, hfence]
    rfl

/-- A head that was found is the one that was read. -/
theorem keeps_found {found : Record × Version Text (Writer ι)} (hobs : Observed config reader i found w) :
    Keeps (C := C) config reader i (fun prior w' => ∀ found, prior = some found → Observed config reader i found w')
      (pure (some found)) w :=
  ensures_pure (fun _ hr _ _ h => by cases h; exact hobs.rely hr)

/-- An absent head is none, when none is expected. -/
theorem keeps_absent {expectedRevision : Nat} {exc : Exc} :
    Keeps (C := C) config reader i (fun prior w' => ∀ found, prior = some found → Observed config reader i found w')
      (if expectedRevision ≠ 0 then throw exc else pure none) w := by
  split
  · exact ensures_throw
  · exact ensures_pure (fun _ _ _ _ h => by cases h)

/-! ## The methods of the Python provider -/

namespace Python

open Provider

variable (hpython : (reader i).check = checkRecord config)

include hpython

theorem keeps_readRecord (hinv : Inv config reader w) :
    Keeps (C := C) config reader i (Observed config reader i) (readRecord config) w :=
  keeps_readHead hpython hinv

theorem keeps_readConnection (hinv : Inv config reader w) :
    Keeps (C := C) config reader i (fun _ _ => True) (readConnection config) w := by
  refine (keeps_readRecord hpython hinv).seq (fun found w₁ _ hi₁ _ => ?_) hinv
  obtain ⟨record, head⟩ := found
  exact keeps_orRaise.seq (fun _ _ _ _ _ => ensures_pure (fun _ _ _ => trivial)) hi₁

/-- `_write_head` writes onto the record it was computed from. -/
theorem keeps_writeHead {op : HeadOp} {prior updated : Record} (hinv : Inv config reader w)
    (hmay : MayWrite config i op (some prior) updated w) :
    Keeps (C := C) config reader i (fun _ w' => ∃ v ∈ w'.objects (headPath config.path), v.contents = dumps (.head updated))
      (writeHead config op prior updated) w := by
  refine (keeps_readRecord hpython hinv).seq (fun found w' hr hi hobs => ?_) hinv
  obtain ⟨record, head⟩ := found
  dsimp only
  split
  · exact ensures_throw
  · rename_i heq
    obtain rfl : record = prior := not_not.1 heq
    exact keeps_swapHead hi hobs ⟨hmay.write, fun m hm => hr.issued _ (hmay.owned m hm)⟩

omit hpython in
theorem keeps_readMaterial {record : Record} (hinv : Inv config reader w) :
    Keeps (C := C) config reader i (fun _ _ => True) (readMaterial config record) w := by
  unfold readMaterial
  split
  · exact ensures_throw
  · exact (keeps_readObject _ _ hinv).seq (fun _ _ _ _ _ => keeps_orRaise.mono (fun _ _ _ => trivial)) hinv

/-- **A refresh that was admitted has its own version of the head.** -/
theorem keeps_admitRefresh {record : Record} {now : Int} (hinv : Inv config reader w) (hready : record.status = .ready) :
    Keeps (C := C) config reader i
      (fun admission w' => Admitted config w' i admission.fence ∧ admission.resultKey ≠ headPath config.path)
      (admitRefresh config record now) w := by
  refine keeps_token.seq (fun attemptID w₁ _ hi₁ _ => ?_) hinv
  refine keeps_token.seq (fun invocationID w₂ _ hi₂ hissued => ?_) hi₁
  refine keeps_orRaise.seq (fun expiresAt w₃ hr₃ hi₃ _ => ?_) hi₂
  have hissued₃ := hr₃.issued _ hissued
  have hmay : MayWrite config i .admission (some record) (admittedRecord config record now attemptID invocationID expiresAt) w₃ :=
    ⟨⟨hready, rfl, rfl, rfl, rfl, by simp [admittedRecord, connectionRecordWire]⟩, fun m hm => by cases hm; exact hissued₃⟩
  refine (keeps_writeHead hpython hi₃ hmay).seq (fun _ w₄ hr₄ hi₄ hwritten => ensures_pure (fun w₅ hr₅ _ => ?_)) hi₃
  exact ⟨(admitted_of_contents hi₄ rfl (hr₄.issued _ hissued₃) hwritten).grows hr₅.objects,
    (headPath_ne_resultPath _ _).symm⟩

theorem keeps_finishExchange {admission : Admission} {status : Status} (hinv : Inv config reader w) :
    Keeps (C := C) config reader i (fun _ _ => True) (finishExchange config admission status) w := by
  refine (keeps_readRecord hpython hinv).seq (fun found w₁ _ hi₁ _ => ?_) hinv
  obtain ⟨record, head⟩ := found
  dsimp only
  split
  · rename_i hadmitted
    refine keeps_orRaise.seq (fun expiresAt w₂ _ hi₂ _ => ?_) hi₁
    have hwrite : HeadWrite (.finish admission.attemptID admission.fence) (some record)
        (finishedRecord config record status expiresAt) := ⟨pending_of_isAdmitted hadmitted, rfl, rfl, rfl, rfl⟩
    exact (keeps_writeHead hpython hi₂ (mayWrite_of_none hwrite rfl)).mono (fun _ _ _ => trivial)
  · exact ensures_throw

theorem keeps_settlePublished {key : String} {written : Except Exc Unit} (hinv : Inv config reader w) :
    Keeps (C := C) config reader i (fun _ _ => True) (settlePublished config key written) w := by
  unfold settlePublished
  split
  · exact ensures_pure (fun _ _ _ => trivial)
  · refine (keeps_readRecord hpython hinv).seq (fun found w' _ _ _ => ?_) hinv
    obtain ⟨observed, head⟩ := found
    dsimp only
    split
    · exact ensures_pure (fun _ _ _ => trivial)
    · exact ensures_throw
  · exact ensures_throw

theorem keeps_publishResult {admission : Admission} {key : String} {result : Version Text (Writer ι)}
    (hinv : Inv config reader w) :
    Keeps (C := C) config reader i (fun _ _ => True) (publishResult config admission key result) w := by
  refine (keeps_readRecord hpython hinv).seq (fun found w₁ _ hi₁ _ => ?_) hinv
  obtain ⟨record, head⟩ := found
  dsimp only
  split
  · exact ensures_pure (fun _ _ _ => trivial)
  split
  · rename_i hadmitted
    refine keeps_orRaise.seq (fun envelope w₂ _ hi₂ _ => ?_) hi₁
    refine keeps_orRaise.seq (fun expiresAt w₃ _ hi₃ _ => ?_) hi₂
    have hwrite : HeadWrite (.publish admission.attemptID admission.fence) (some record)
        (publishedRecord config record envelope key result expiresAt) := ⟨pending_of_isAdmitted hadmitted, rfl, rfl, rfl, rfl⟩
    exact (keeps_attempt (keeps_writeHead hpython hi₃ (mayWrite_of_none hwrite rfl))).seq
      (fun written w₄ _ hi₄ _ => keeps_settlePublished hpython hi₄) hi₃
  · exact ensures_throw

theorem keeps_commitRefresh {admission : Admission} {material : Material} (hinv : Inv config reader w)
    (hkey : admission.resultKey ≠ headPath config.path) :
    Keeps (C := C) config reader i (fun _ _ => True) (commitRefresh config admission material) w :=
  (keeps_createImmutable hkey _ _ hinv).seq (fun _ _ _ hi _ => keeps_publishResult hpython hi) hinv

theorem keeps_recoverOrWait {record : Record} (hinv : Inv config reader w) :
    Keeps (C := C) config reader i (fun _ _ => True) (recoverOrWait config record) w := by
  unfold recoverOrWait
  split
  · exact ensures_throw
  · refine keeps_orRaise.seq (fun admission w₁ _ hi₁ _ => ?_) hinv
    have hread : Keeps (C := C) config reader i (fun _ _ => True) (Provider.act (.read admission.resultKey "")) w₁ :=
      keeps_any (fun _ h => by cases h) (fun _ => trivial)
    refine hread.seq (fun answer w₂ _ hi₂ _ => ?_) hi₁
    cases answer with
    | failed => exact ensures_throw
    | found result => exact keeps_publishResult hpython hi₂
    | absent =>
      refine keeps_now.seq (fun (now : Int) w₃ _ hi₃ _ => ?_) hi₂
      split
      · have hsleep : Keeps (C := C) config reader i (fun _ _ => True) (Provider.act .sleep) w₃ :=
          keeps_any (fun _ h => by cases h) (fun _ => trivial)
        exact hsleep.seq (fun _ _ _ _ _ => ensures_pure (fun _ _ _ => trivial)) hi₃
      · exact keeps_finishExchange hpython hi₃

theorem keeps_refreshedWith {encode : C → Option String} {admission : Admission} {prior : Material} {outcome : Refreshed C}
    (hinv : Inv config reader w) (hkey : admission.resultKey ≠ headPath config.path) :
    Keeps config reader i (fun _ _ => True) (refreshedWith config encode admission prior outcome) w := by
  cases outcome with
  | reauthorizationRequired => exact keeps_seq_throw (keeps_finishExchange hpython hinv) hinv
  | failed isAddressRefusal => exact keeps_seq_throw (keeps_finishExchange hpython hinv) hinv
  | result credentials expiresAt =>
    refine keeps_now.seq (fun (now : Int) w₁ _ hi₁ _ => ?_) hinv
    split
    · exact keeps_seq_throw (keeps_finishExchange hpython hi₁) hi₁
    · cases encode credentials with
      | none => exact keeps_seq_throw (keeps_finishExchange hpython hi₁) hi₁
      | some encoded =>
        exact (keeps_commitRefresh hpython hi₁ hkey).seq (fun _ _ _ _ _ => ensures_pure (fun _ _ _ => trivial)) hi₁

theorem safe_round {decode : String → Option C} {encode : C → Option String} (hinv : Inv config reader w)
    (hunused : Unused i w) :
    (protocol config reader).Safe i (Retries i) (round config decode encode : M C (Writer ι) (Round C)).run w := by
  refine (keeps_readRecord hpython hinv).next (fun found w₁ hr₁ hi₁ hobs => ?_) hinv
  obtain ⟨record, head⟩ := found
  have hunused₁ := hunused.rely hr₁
  dsimp only
  split
  · exact safe_throw
  · exact safe_throw
  · refine keeps_now.next (fun now w₂ hr₂ hi₂ _ => ?_) hi₁
    split
    · exact safe_throw
    · exact safe_recovered hi₂ (hunused₁.rely hr₂) (keeps_recoverOrWait hpython hi₂)
  · exact safe_recovered hi₁ hunused₁ (keeps_recoverOrWait hpython hi₁)
  · rename_i hready
    refine (keeps_readMaterial hi₁).next (fun material w₂ hr₂ hi₂ _ => ?_) hi₁
    split
    · exact safe_throw
    refine keeps_now.next (fun (now : Int) w₃ hr₃ hi₃ _ => ?_) hi₂
    refine keeps_isRefreshRequired.next (fun isRequired w₄ hr₄ hi₄ _ => ?_) hi₃
    have hunused₄ := ((hunused₁.rely hr₂).rely hr₃).rely hr₄
    split
    · refine safe_unlessConflict hi₄ hunused₄ (keeps_admitRefresh hpython hi₄ hready) (fun admission w₅ hr₅ hi₅ hadm => ?_)
      exact safe_refreshed hi₅ (safe_refresh (hunused₄.rely hr₅) hadm.1
        (fun _ _ hi => keeps_refreshedWith hpython hi hadm.2))
    · exact safe_done

theorem safe_resolveWithRefresh {decode : String → Option C} {encode : C → Option String} :
    ∀ (rounds : Nat) {w : World ι}, Inv config reader w → Unused i w → (protocol config reader).Safe i (fun _ _ => True)
      (resolveWithRefresh config decode encode rounds : M C (Writer ι) C).run w
  | 0, _, _, _ => fun _ _ _ => trivial
  | rounds + 1, _, hinv, hunused => by
    refine Protocol.Safe.bind (safe_round hpython hinv hunused) (fun r w' hi hr => ?_) hinv
    cases r with
    | error => exact fun _ _ _ => trivial
    | ok result =>
      cases result with
      | done => exact fun _ _ _ => trivial
      | again => exact safe_resolveWithRefresh rounds hi (hr rfl)

theorem keeps_readPrior {expectedRevision : Nat} (hinv : Inv config reader w) :
    Keeps (C := C) config reader i (fun prior w' => ∀ found, prior = some found → Observed config reader i found w')
      (readPrior config expectedRevision) w := by
  refine (keeps_attempt (keeps_readRecord hpython hinv)).seq (fun answer w' _ _ hobs => ?_) hinv
  cases answer with
  | ok found => exact keeps_found (hobs found rfl)
  | error exc =>
    cases exc with
    | objectNotFound => exact keeps_absent
    | _ => exact ensures_throw

theorem keeps_replaceCredential {expectedRevision : Nat} {material : Material} (hinv : Inv config reader w) :
    Keeps (C := C) config reader i (fun _ _ => True) (replaceCredential config expectedRevision material) w := by
  unfold replaceCredential
  split
  · exact ensures_throw
  refine (keeps_readPrior hpython hinv).seq (fun prior w₁ _ hi₁ hobs => ?_) hinv
  split
  · exact ensures_throw
  rename_i hrevision
  refine (keeps_createImmutable (headPath_ne_credentialPath _ _).symm _ _ hi₁).seq (fun candidate w₂ hr₂ hi₂ _ => ?_) hi₁
  have hobs₂ : ∀ found, prior = some found → Observed config reader i found w₂ := fun found h => (hobs found h).rely hr₂
  have hwrite : ∀ reference, HeadWrite .replace (prior.map Prod.fst)
      (replacedRecord config expectedRevision ((prior.map (fun p => p.1.fence)).getD 0 + 1) material reference) :=
    fun _ => headWrite_replace (not_not.1 hrevision) rfl rfl rfl rfl
  refine (keeps_writeReplaced hobs₂ (hwrite _) rfl).seq (fun answer w₃ _ hi₃ hans => ?_) hi₂
  exact (keeps_settle hi₃ hans).seq (fun _ _ _ _ _ => ensures_pure (fun _ _ _ => trivial)) hi₃

theorem safe_resolveAfterRejection {decode : String → Option C} {encode : C → Option String} (rounds : Nat)
    (hinv : Inv config reader w) (hunused : Unused i w) : (protocol config reader).Safe i (fun _ _ => True)
      (resolveAfterRejection config decode encode rounds : M C (Writer ι) C).run w := by
  refine Ensures.next (keeps_readConnection hpython hinv) (fun _ _ _ => trivial) (fun found w₁ hr₁ hi₁ _ => ?_) hinv
  obtain ⟨record, expiresAt⟩ := found
  cases expiresAt with
  | none => exact fun _ _ _ => trivial
  | some expiresAt =>
    refine Ensures.next keeps_now (fun _ _ _ => trivial) (fun (now : Int) w₂ hr₂ hi₂ _ => ?_) hi₁
    split
    · exact fun _ _ _ => trivial
    · exact safe_resolveWithRefresh hpython rounds hi₂ ((hunused.rely hr₁).rely hr₂)

theorem keeps_resolve {decode : String → Option C} (hinv : Inv config reader w) :
    Keeps (C := C) config reader i (fun _ _ => True) (resolve config decode) w := by
  refine (keeps_readConnection hpython hinv).seq (fun found w₁ _ hi₁ _ => ?_) hinv
  obtain ⟨record, expiresAt⟩ := found
  dsimp only
  split
  · exact ensures_throw
  refine (keeps_readMaterial hi₁).seq (fun material w₂ _ hi₂ _ => ?_) hi₁
  refine keeps_now.seq (fun (now : Int) w₃ _ hi₃ _ => ?_) hi₂
  split
  · exact ensures_throw
  split
  · exact ensures_throw
  · exact ensures_pure (fun _ _ _ => trivial)

end Python

/-! ## The methods of the TypeScript provider -/

namespace TypeScript

open ProviderTS (Date Material checkRecord readRecord readMaterial settlePublished)
open ProviderTS.Canonical

variable (htypeScript : (reader i).check = checkRecord config)

include htypeScript

theorem keeps_readRecord (hinv : Inv config reader w) :
    Keeps (C := C) config reader i (Observed config reader i) (readRecord config) w :=
  keeps_readHead htypeScript hinv

omit htypeScript in
theorem keeps_readMaterial {record : Record} (hinv : Inv config reader w) :
    Keeps (C := C) config reader i (fun _ _ => True) (readMaterial config record) w := by
  unfold readMaterial
  split
  · exact ensures_throw
  · exact (keeps_readObject _ _ hinv).seq (fun _ _ _ _ _ => keeps_orRaise.mono (fun _ _ _ => trivial)) hinv

omit htypeScript in
/-- **A refresh that was admitted has its own version of the head.** -/
theorem keeps_admitRefresh {record : Record} {object : Version Text (Writer ι)} {now : Int} (hinv : Inv config reader w)
    (hobs : Observed config reader i (record, object) w) (hready : record.status = .ready) :
    Keeps (C := C) config reader i
      (fun admission w' => Admitted config w' i admission.fence ∧ admission.resultKey ≠ headPath config.path)
      (admitRefresh config record object now) w := by
  refine keeps_token.seq (fun attemptID w₁ hr₁ hi₁ _ => ?_) hinv
  refine keeps_token.seq (fun invocationID w₂ hr₂ hi₂ hissued => ?_) hi₁
  refine keeps_orRaise.seq (fun deadline w₃ hr₃ hi₃ hdeadline => ?_) hi₂
  refine keeps_orRaise.seq (fun updated w₄ hr₄ hi₄ hupdated => ?_) hi₃
  have hobs₄ := (((hobs.rely hr₁).rely hr₂).rely hr₃).rely hr₄
  have hissued₄ := hr₄.issued _ (hr₃.issued _ hissued)
  obtain rfl := isoText_some hdeadline
  obtain ⟨hrevision, hfence, hstatus, hcredential, hmutation⟩ := connectionRecord_fields hupdated
  have hmay : MayWrite config i .admission (some record) updated w₄ := by
    refine ⟨⟨hready, hstatus, hrevision, hfence, hcredential, by rw [hmutation]; simp⟩, fun m hm => ?_⟩
    rw [hmutation] at hm
    cases hm
    exact hissued₄
  refine (keeps_swapHead hi₄ hobs₄ hmay).seq (fun _ w₅ hr₅ hi₅ hwritten => ensures_pure (fun w₆ hr₆ _ => ?_)) hi₄
  exact ⟨(admitted_of_contents hi₅ hmutation (hr₅.issued _ hissued₄) hwritten).grows hr₆.objects,
    (headPath_ne_resultPath _ _).symm⟩

theorem keeps_finishExchange {admission : Admission} {status : Status} (hinv : Inv config reader w) :
    Keeps (C := C) config reader i (fun _ _ => True) (finishExchange config admission status) w := by
  refine (keeps_readRecord htypeScript hinv).seq (fun found w₁ _ hi₁ hobs => ?_) hinv
  obtain ⟨record, object⟩ := found
  dsimp only
  split
  · rename_i hadmitted
    refine keeps_orRaise.seq (fun updated w₂ hr₂ hi₂ hupdated => ?_) hi₁
    obtain ⟨hrevision, hfence, -, hcredential, hmutation⟩ := connectionRecord_fields hupdated
    have hwrite : HeadWrite (.finish admission.attemptID admission.fence) (some record) updated :=
      ⟨pending_of_isAdmitted hadmitted, hrevision, hfence, hcredential, hmutation⟩
    exact (keeps_swapHead hi₂ (hobs.rely hr₂) (mayWrite_of_none hwrite hmutation)).mono (fun _ _ _ => trivial)
  · exact ensures_throw

theorem keeps_settlePublished {key : String} {written : Except Exc Unit} (hinv : Inv config reader w) :
    Keeps (C := C) config reader i (fun _ _ => True) (settlePublished config key written) w := by
  unfold settlePublished
  split
  · exact ensures_pure (fun _ _ _ => trivial)
  · refine (keeps_readRecord htypeScript hinv).seq (fun found w' _ _ _ => ?_) hinv
    obtain ⟨observed, head⟩ := found
    dsimp only
    split
    · exact ensures_pure (fun _ _ _ => trivial)
    · exact ensures_throw
  · exact ensures_throw

theorem keeps_publishResult {admission : Admission} {key : String} {result : Version Text (Writer ι)}
    (hinv : Inv config reader w) :
    Keeps (C := C) config reader i (fun _ _ => True) (publishResult config admission key result) w := by
  refine (keeps_readRecord htypeScript hinv).seq (fun found w₁ _ hi₁ hobs => ?_) hinv
  obtain ⟨record, object⟩ := found
  dsimp only
  split
  · exact ensures_pure (fun _ _ _ => trivial)
  split
  · rename_i hadmitted
    refine keeps_orRaise.seq (fun envelope w₂ hr₂ hi₂ _ => ?_) hi₁
    refine keeps_orRaise.seq (fun updated w₃ hr₃ hi₃ hupdated => ?_) hi₂
    obtain ⟨hrevision, hfence, hstatus, -, hmutation⟩ := connectionRecord_fields hupdated
    have hwrite : HeadWrite (.publish admission.attemptID admission.fence) (some record) updated :=
      ⟨pending_of_isAdmitted hadmitted, hstatus, hrevision, hfence, hmutation⟩
    exact (keeps_attempt (keeps_swapHead hi₃ ((hobs.rely hr₂).rely hr₃) (mayWrite_of_none hwrite hmutation))).seq
      (fun written w₄ _ hi₄ _ => keeps_settlePublished htypeScript hi₄) hi₃
  · exact ensures_throw

theorem keeps_commitRefresh {admission : Admission} {credentials : String} {expiresAt : Option Date} {authMethod : String}
    (hinv : Inv config reader w) (hkey : admission.resultKey ≠ headPath config.path) :
    Keeps (C := C) config reader i (fun _ _ => True) (commitRefresh config admission credentials expiresAt authMethod) w := by
  refine keeps_orRaise.seq (fun text w₁ _ hi₁ _ => ?_) hinv
  exact (keeps_createImmutable hkey _ _ hi₁).seq (fun _ _ _ hi _ => keeps_publishResult htypeScript hi) hi₁

theorem keeps_recoverOrWait {record : Record} (hinv : Inv config reader w) :
    Keeps (C := C) config reader i (fun _ _ => True) (recoverOrWait config record) w := by
  unfold recoverOrWait
  split
  · exact ensures_throw
  · refine keeps_orRaise.seq (fun admission w₁ _ hi₁ _ => ?_) hinv
    have hread : Keeps (C := C) config reader i (fun _ _ => True) (Provider.act (.read admission.resultKey "")) w₁ :=
      keeps_any (fun _ h => by cases h) (fun _ => trivial)
    refine hread.seq (fun answer w₂ _ hi₂ _ => ?_) hi₁
    cases answer with
    | failed => exact ensures_throw
    | found result => exact keeps_publishResult htypeScript hi₂
    | absent =>
      refine keeps_now.seq (fun (now : Int) w₃ _ hi₃ _ => ?_) hi₂
      split
      · have hsleep : Keeps (C := C) config reader i (fun _ _ => True) (Provider.act .sleep) w₃ :=
          keeps_any (fun _ h => by cases h) (fun _ => trivial)
        exact hsleep.seq (fun _ _ _ _ _ => ensures_pure (fun _ _ _ => trivial)) hi₃
      · exact keeps_finishExchange htypeScript hi₃

theorem keeps_refreshedWith {encode : C → Option String} {admission : Admission} {prior : Material} {outcome : Refreshed C}
    (hinv : Inv config reader w) (hkey : admission.resultKey ≠ headPath config.path) :
    Keeps config reader i (fun _ _ => True) (refreshedWith config encode admission prior outcome) w := by
  cases outcome with
  | reauthorizationRequired => exact keeps_seq_throw (keeps_finishExchange htypeScript hinv) hinv
  | failed isAddressRefusal => exact keeps_seq_throw (keeps_finishExchange htypeScript hinv) hinv
  | result credentials expiresAt =>
    refine keeps_now.seq (fun (now : Int) w₁ _ hi₁ _ => ?_) hinv
    split
    · exact keeps_seq_throw (keeps_finishExchange htypeScript hi₁) hi₁
    · cases encode credentials with
      | none => exact keeps_seq_throw (keeps_finishExchange htypeScript hi₁) hi₁
      | some encoded =>
        exact (keeps_commitRefresh htypeScript hi₁ hkey).seq (fun _ _ _ _ _ => ensures_pure (fun _ _ _ => trivial)) hi₁

theorem safe_round {decode : String → Option C} {encode : C → Option String} (hinv : Inv config reader w)
    (hunused : Unused i w) :
    (protocol config reader).Safe i (Retries i) (round config decode encode : M C (Writer ι) (Round C)).run w := by
  refine (keeps_readRecord htypeScript hinv).next (fun found w₁ hr₁ hi₁ hobs => ?_) hinv
  obtain ⟨record, object⟩ := found
  have hunused₁ := hunused.rely hr₁
  dsimp only
  split
  · exact safe_throw
  · exact safe_throw
  · refine keeps_now.next (fun now w₂ hr₂ hi₂ _ => ?_) hi₁
    split
    · exact safe_throw
    · exact safe_recovered hi₂ (hunused₁.rely hr₂) (keeps_recoverOrWait htypeScript hi₂)
  · exact safe_recovered hi₁ hunused₁ (keeps_recoverOrWait htypeScript hi₁)
  · rename_i hready
    refine (keeps_readMaterial hi₁).next (fun material w₂ hr₂ hi₂ _ => ?_) hi₁
    split
    · exact safe_throw
    refine keeps_now.next (fun (now : Int) w₃ hr₃ hi₃ _ => ?_) hi₂
    refine keeps_isRefreshRequired.next (fun isRequired w₄ hr₄ hi₄ _ => ?_) hi₃
    have hunused₄ := ((hunused₁.rely hr₂).rely hr₃).rely hr₄
    have hobs₄ := ((hobs.rely hr₂).rely hr₃).rely hr₄
    split
    · refine safe_unlessConflict hi₄ hunused₄ (keeps_admitRefresh hi₄ hobs₄ hready) (fun admission w₅ hr₅ hi₅ hadm => ?_)
      exact safe_refreshed hi₅ (safe_refresh (hunused₄.rely hr₅) hadm.1
        (fun _ _ hi => keeps_refreshedWith htypeScript hi hadm.2))
    · exact safe_done

theorem safe_resolveWithRefresh {decode : String → Option C} {encode : C → Option String} :
    ∀ (rounds : Nat) {w : World ι}, Inv config reader w → Unused i w → (protocol config reader).Safe i (fun _ _ => True)
      (resolveWithRefresh config decode encode rounds : M C (Writer ι) C).run w
  | 0, _, _, _ => fun _ _ _ => trivial
  | rounds + 1, _, hinv, hunused => by
    refine Protocol.Safe.bind (safe_round htypeScript hinv hunused) (fun r w' hi hr => ?_) hinv
    cases r with
    | error => exact fun _ _ _ => trivial
    | ok result =>
      cases result with
      | done => exact fun _ _ _ => trivial
      | again => exact safe_resolveWithRefresh rounds hi (hr rfl)

theorem keeps_readPrior {expectedRevision : Nat} (hinv : Inv config reader w) :
    Keeps (C := C) config reader i (fun prior w' => ∀ found, prior = some found → Observed config reader i found w')
      (readPrior config expectedRevision) w := by
  refine (keeps_attempt (keeps_readRecord htypeScript hinv)).seq (fun answer w' _ _ hobs => ?_) hinv
  cases answer with
  | ok found => exact keeps_found (hobs found rfl)
  | error exc =>
    cases exc with
    | objectNotFound => exact keeps_absent
    | _ => exact ensures_throw

theorem keeps_replaceCredential {expectedRevision : Nat} {material : Material} (hinv : Inv config reader w) :
    Keeps (C := C) config reader i (fun _ _ => True) (replaceCredential config expectedRevision material) w := by
  unfold replaceCredential
  split
  · exact ensures_throw
  refine (keeps_readPrior htypeScript hinv).seq (fun prior w₁ _ hi₁ hobs => ?_) hinv
  split
  · exact ensures_throw
  rename_i hrevision
  refine keeps_orRaise.seq (fun text w₂ hr₂ hi₂ _ => ?_) hi₁
  refine (keeps_createImmutable (headPath_ne_credentialPath _ _).symm _ _ hi₂).seq (fun created w₃ hr₃ hi₃ _ => ?_) hi₂
  refine keeps_orRaise.seq (fun updated w₄ hr₄ hi₄ hupdated => ?_) hi₃
  obtain ⟨hnew, hfence, hstatus, -, hnone⟩ := connectionRecord_fields hupdated
  have hobs₄ : ∀ found, prior = some found → Observed config reader i found w₄ :=
    fun found h => (((hobs found h).rely hr₂).rely hr₃).rely hr₄
  have hwrite := headWrite_replace (not_not.1 hrevision) hstatus hnew hfence hnone
  refine (keeps_writeReplaced hobs₄ hwrite hnone).seq (fun answer w₅ _ hi₅ hans => ?_) hi₄
  exact (keeps_settle hi₅ hans).seq (fun _ _ _ _ _ => ensures_pure (fun _ _ _ => trivial)) hi₅

theorem safe_resolveAfterRejection {decode : String → Option C} {encode : C → Option String} (rounds : Nat)
    (hinv : Inv config reader w) (hunused : Unused i w) : (protocol config reader).Safe i (fun _ _ => True)
      (resolveAfterRejection config decode encode rounds : M C (Writer ι) C).run w := by
  refine Ensures.next (keeps_readRecord htypeScript hinv) (fun _ _ _ => trivial) (fun found w₁ hr₁ hi₁ _ => ?_) hinv
  obtain ⟨record, object⟩ := found
  dsimp only
  split
  · exact fun _ _ _ => trivial
  · refine Ensures.next keeps_now (fun _ _ _ => trivial) (fun (now : Int) w₂ hr₂ hi₂ _ => ?_) hi₁
    split
    · exact safe_resolveWithRefresh htypeScript rounds hi₂ ((hunused.rely hr₁).rely hr₂)
    · exact fun _ _ _ => trivial

theorem keeps_resolve {decode : String → Option C} (hinv : Inv config reader w) :
    Keeps (C := C) config reader i (fun _ _ => True) (resolve config decode) w := by
  refine (keeps_readRecord htypeScript hinv).seq (fun found w₁ _ hi₁ _ => ?_) hinv
  obtain ⟨record, object⟩ := found
  dsimp only
  split
  · exact ensures_throw
  refine (keeps_readMaterial hi₁).seq (fun material w₂ _ hi₂ _ => ?_) hi₁
  refine keeps_now.seq (fun (now : Int) w₃ _ hi₃ _ => ?_) hi₂
  split
  · exact ensures_throw
  split
  · exact ensures_throw
  · exact ensures_pure (fun _ _ _ => trivial)

end TypeScript

end Replicas
end Dex
