import DexConnectors.SharedSafety
/-!
# SharedServed — the calls of the Go shared-connection cache

`credential_safe` and `credentialAfterRejection_safe` follow the two calls; `shared_credentials_served` puts them
together for every interleaving.
-/
namespace Dex
namespace Shared

open Lib

variable {ι : Type} [DecidableEq ι] {i : ι} {w₀ w : World ι}

/-- Thread `i` kept the slot, and a request in flight, if it had them. -/
structure Kept (i : ι) (w w' : World ι) : Prop where
  grow : Grow i w w'
  slot : w.slot = some i → w'.slot = some i ∧ w'.inFlight = w.inFlight

omit [DecidableEq ι] in
theorem Kept.rely {w' w'' : World ι} (h : Kept i w w') (hr : Rely i w' w'') : Kept i w w'' :=
  ⟨h.grow.trans hr.grow, fun hs => ⟨hr.slot.2 (h.slot hs).1, ((hr.held (h.slot hs).1).2.2.2).trans (h.slot hs).2⟩⟩

theorem Kept.next {o : Op} {w₁ w' w'' : World ι} {a : Ans o} (h : Kept i w w₁) (hr : Rely i w₁ w')
    (hs : step i o w' a w'') (ho : o.keepsSlot = true) (hg : Grow i w₁ w'') : Kept i w w'' :=
  have hk := kept_of_step hs ho
  ⟨h.grow.trans hg, fun h' => ⟨hk.1.trans ((h.rely hr).slot h').1, hk.2.trans ((h.rely hr).slot h').2⟩⟩

omit [DecidableEq ι] in
theorem Kept.refl (i : ι) (w : World ι) : Kept i w w := ⟨Grow.refl i w, fun h => ⟨h, rfl⟩⟩

omit [DecidableEq ι] in
theorem Inside.kept {w' : World ι} (h : Inside w₀ i w) (hk : Kept i w w') : Inside w₀ i w' :=
  ⟨h.grow.trans hk.grow, (hk.slot h.slot).1, (hk.slot h.slot).2.trans h.flight⟩

theorem recordIssued_safe (callID : String) (revision : Nat) :
    protocol.Safe i (fun _ w' => Kept i w w') (recordIssued callID revision) w := by
  unfold recordIssued
  split
  · exact safe_ret fun w' hr => (Kept.refl i w).rely hr
  refine safe_call (fun _ _ _ => trivial) (fun w₁ now w₂ hr _ hs _ hg => ?_)
  have hk := (Kept.refl i w).next hr hs rfl hg
  refine safe_call (fun _ _ _ => trivial) (fun w₃ a w₄ hr' _ hs' _ hg' => ?_)
  exact safe_ret fun w' hr'' => (hk.next hr' hs' rfl hg').rely hr''

theorem rememberFailure_safe {err : Err} (herr : err ≠ .rejectedCredentialNotRefreshed) :
    protocol.Safe i (fun _ w' => Kept i w w') (rememberFailure err) w := by
  refine safe_call (fun _ _ _ => trivial) (fun w₁ isDone w₂ hr _ hs _ hg => ?_)
  have hk := (Kept.refl i w).next hr hs rfl hg
  show protocol.Safe i _ (if (show Bool from isDone) = true then _ else _) w₂
  split
  · exact safe_ret fun w' hr => hk.rely hr
  refine safe_call (fun _ _ _ => herr) (fun w₃ a w₄ hr' _ hs' _ hg' => ?_)
  exact safe_ret fun w' hr'' => (hk.next hr' hs' rfl hg').rely hr''

/-! ## `credential` -/

/-- What `currentCredential` leaves. -/
structure CurrentPost (w₀ : World ι) (i : ι) (result : Except Err BrokerCredential) (w : World ι) : Prop where
  outcome : Outcome w₀ i result w
  refused : result ≠ .error .rejectedCredentialNotRefreshed

omit [DecidableEq ι] in
theorem CurrentPost.grow {result : Except Err BrokerCredential} {w' : World ι} (h : CurrentPost w₀ i result w)
    (hg : Grow i w w') : CurrentPost w₀ i result w' :=
  ⟨h.outcome.next hg, h.refused⟩

omit [DecidableEq ι] in
theorem CurrentPost.error {err : Err} (hg : Grow i w₀ w) (herr : err ≠ .rejectedCredentialNotRefreshed) :
    CurrentPost w₀ i (.error err) w :=
  ⟨⟨hg, fun _ hc => (by cases hc)⟩, fun h => herr (by cases h; rfl)⟩

omit [DecidableEq ι] in
theorem CurrentPost.ok {c : BrokerCredential} (hg : Grow i w₀ w) (hc : Served w₀ i c w) : CurrentPost w₀ i (.ok c) w :=
  ⟨⟨hg, fun c' h => (by cases h; exact hc)⟩, by simp⟩

/-- The postcondition inside the slot. -/
def SlotPost (w₀ : World ι) (i : ι) (result : Except Err BrokerCredential) (w : World ι) : Prop :=
  Inside w₀ i w ∧ CurrentPost w₀ i result w

omit [DecidableEq ι] in
theorem SlotPost.rely {result : Except Err BrokerCredential} {w' : World ι} (h : SlotPost w₀ i result w)
    (hr : Rely i w w') : SlotPost w₀ i result w' :=
  ⟨h.1.rely hr, h.2.grow hr.grow⟩

theorem afterFailedRead_safe {err : Err} (hinv : Inv w) (hin : Inside w₀ i w)
    (herr : err ≠ .rejectedCredentialNotRefreshed) : protocol.Safe i (SlotPost w₀ i) (afterFailedRead err) w := by
  refine Protocol.Safe.bind (rememberFailure_safe herr) (fun _ w' _ hk => ?_) hinv
  have hin' := hin.kept hk
  exact safe_ret fun w'' hr => SlotPost.rely ⟨hin', CurrentPost.error hin'.grow herr⟩ hr

theorem sharedRecentFailure_ne {w' : World ι} {a : Option Err} {err : Err} (hinv : Inv w)
    (hs : step i .sharedRecentFailure w a w') (ha : a = some err) : err ≠ .rejectedCredentialNotRefreshed := by
  rintro rfl
  obtain ⟨-, h, rfl⟩ | ⟨-, now, -, h, rfl⟩ := hs
  · cases h.symm.trans ha
  · have hf := h.symm.trans ha
    unfold SharedConnection.sharedRecentFailure at hf
    split at hf
    · cases hf
    · rename_i err' herr'
      split at hf
      · cases hf
        exact hinv.failure herr'
      · cases hf

theorem currentInSlot_safe (hin : Inside w₀ i w) : protocol.Safe i (SlotPost w₀ i) currentInSlot w := by
  refine safe_call (fun _ _ _ => trivial) (fun w₁ usable w₂ hr hinv₁ hs _ hg => ?_)
  have hin₂ := hin.next hr hs rfl hg
  cases usable with
  | some c =>
    have hc := served_of_usable hinv₁ (hin.rely hr).grow hs rfl
    exact safe_ret fun w' hr => SlotPost.rely ⟨hin₂, CurrentPost.ok hin₂.grow hc⟩ hr
  | none =>
  refine safe_call (fun _ _ _ => trivial) (fun w₃ failure w₄ hr' hinv₃ hs' hinv₄ hg' => ?_)
  have hin₄ := hin₂.next hr' hs' rfl hg'
  cases failure with
  | some err =>
    have herr := sharedRecentFailure_ne hinv₃ hs' rfl
    exact safe_ret fun w' hr => SlotPost.rely ⟨hin₄, CurrentPost.error hin₄.grow herr⟩ hr
  | none =>
  show protocol.Safe i _ (read 0 >>= _) w₄
  refine Protocol.Safe.bind (read_safe 0 hin₄) (fun result w₅ hinv₅ hread => ?_) hinv₄
  cases result with
  | ok c =>
    have hc := hread.served c rfl
    exact safe_ret fun w' hr => SlotPost.rely ⟨hread.inside, CurrentPost.ok hread.inside.grow hc⟩ hr
  | error err =>
    have herr : err ≠ .rejectedCredentialNotRefreshed := fun h => hread.refused (by rw [h])
    show protocol.Safe i _ (if err.isUnavailable = true then _ else _) w₅
    split
    · refine safe_call (fun _ _ _ => trivial) (fun w₆ cached w₇ hr'' hinv₆ hs'' hinv₇ hg'' => ?_)
      have hin₇ := hread.inside.next hr'' hs'' rfl hg''
      cases cached with
      | some c =>
        have hc := served_of_unexpired hinv₆ (hread.inside.rely hr'').grow hs'' rfl
        refine safe_call (fun _ _ _ => trivial) (fun w₈ a w₉ hr₉ _ hs₉ _ hg₉ => ?_)
        have hin₉ := hin₇.next hr₉ hs₉ rfl hg₉
        exact safe_ret fun w' hr => SlotPost.rely ⟨hin₉, CurrentPost.ok hin₉.grow (hc.grow hg₉)⟩ hr
      | none => exact afterFailedRead_safe hinv₇ hin₇ herr
    · exact afterFailedRead_safe hinv₅ hread.inside herr

/-- **Giving the slot back** after a body that ends inside it. -/
theorem releasing_safe {α : Type} {Q R : α → World ι → Prop} {body : P α} (hinv : Inv w)
    (hbody : protocol.Safe i (fun a w' => Inside w₀ i w' ∧ Q a w') body w)
    (hQ : ∀ a w' w'', Q a w' → Grow i w' w'' → R a w'') : protocol.Safe i R (releasing body) w := by
  refine Protocol.Safe.bind hbody (fun a w' _ hpost => ?_) hinv
  refine safe_call (fun w₁ hr _ => ⟨(hpost.1.rely hr).slot, (hpost.1.rely hr).flight⟩) (fun w₁ _ w₂ _ _ _ _ hg => ?_)
  exact safe_ret fun w₃ hr => hQ a w' w₃ hpost.2 (hg.trans hr.grow)

omit [DecidableEq ι] in
/-- The slot just taken. -/
theorem inside_acquired {w' : World ι} (hg : Grow i w₀ w') (hinv : Inv w') (hfree : w'.slot = none) :
    Inside w₀ i { w' with slot := some i } := by
  refine ⟨⟨hg.processed, hg.log⟩, rfl, ?_⟩
  rcases hinv.flight with h | ⟨j, -, h⟩
  · exact h
  · rw [hfree] at h; cases h

theorem currentCredential_safe (hg₀ : Grow i w₀ w) : protocol.Safe i (CurrentPost w₀ i) currentCredential w := by
  refine safe_call (fun _ _ _ => trivial) (fun w₁ usable w₂ hr hinv₁ hs _ hg => ?_)
  have hg₂ := hg₀.trans hg
  cases usable with
  | some c =>
    have hc := served_of_usable hinv₁ (hg₀.trans hr.grow) hs rfl
    exact safe_ret fun w' hr => (CurrentPost.ok hg₂ hc).grow hr.grow
  | none =>
  refine safe_call (fun _ _ _ => trivial) (fun w₃ unexpired w₄ hr' hinv₃ hs' _ hg' => ?_)
  have hg₄ := hg₂.trans hg'
  cases unexpired with
  | some c =>
    have hc := served_of_unexpired hinv₃ (hg₂.trans hr'.grow) hs' rfl
    refine safe_call (fun _ _ _ => trivial) (fun w₅ isAcquired w₆ hr'' hinv₅ hs'' hinv₆ hg'' => ?_)
    obtain ⟨hfree, rfl, rfl⟩ | ⟨-, rfl, rfl⟩ := hs''
    · have hin := inside_acquired (hg₄.trans hr''.grow) hinv₅ hfree
      exact releasing_safe hinv₆ (currentInSlot_safe hin) (fun _ _ _ h hg => h.grow hg)
    · exact safe_ret fun w' hr => (CurrentPost.ok hg₄ hc).grow (hg''.trans hr.grow)
  | none =>
    refine safe_call (fun _ _ _ => trivial) (fun w₅ failed w₆ hr'' hinv₅ hs'' hinv₆ hg'' => ?_)
    obtain ⟨hfree, rfl, rfl⟩ | ⟨rfl, rfl⟩ := hs''
    · have hin := inside_acquired (hg₄.trans hr''.grow) hinv₅ hfree
      exact releasing_safe hinv₆ (currentInSlot_safe hin) (fun _ _ _ h hg => h.grow hg)
    · exact safe_ret fun w' hr => (CurrentPost.error hg₄ (by simp)).grow (hg''.trans hr.grow)

theorem credential_safe (callID : String) (hinv : Inv w) :
    protocol.Safe i (CurrentPost w i) (credential callID) w := by
  refine Protocol.Safe.bind (currentCredential_safe (Grow.refl i w)) (fun result w' hinv' hpost => ?_) hinv
  cases result with
  | error err => exact safe_ret fun w'' hr => hpost.grow hr.grow
  | ok c =>
    refine Protocol.Safe.bind (recordIssued_safe callID c.revision) (fun _ w'' _ hk => ?_) hinv'
    exact safe_ret fun w₃ hr => hpost.grow (hk.grow.trans hr.grow)

/-! ## `credentialAfterRejection` -/

/-- What a call leaves that was issued revision `issued`. -/
structure RejectionPost (w₀ : World ι) (i : ι) (issued : Nat) (result : Except Err BrokerCredential) (w : World ι) :
    Prop where
  outcome : Outcome w₀ i result w
  changed : ∀ c, result = .ok c → c.revision ≠ issued
  asked   : result = .error .rejectedCredentialNotRefreshed → Logged w₀ i w (.asked issued)

omit [DecidableEq ι] in
theorem RejectionPost.grow {issued : Nat} {result : Except Err BrokerCredential} {w' : World ι}
    (h : RejectionPost w₀ i issued result w) (hg : Grow i w w') : RejectionPost w₀ i issued result w' :=
  ⟨h.outcome.next hg, h.changed, fun he => (h.asked he).grow hg⟩

omit [DecidableEq ι] in
theorem RejectionPost.error {issued : Nat} {err : Err} (hg : Grow i w₀ w) (herr : err ≠ .rejectedCredentialNotRefreshed) :
    RejectionPost w₀ i issued (.error err) w :=
  ⟨⟨hg, fun _ h => (by cases h)⟩, fun _ h => (by cases h), fun h => absurd (by cases h; rfl) herr⟩

/-- A credential of another revision, recorded for the call. -/
theorem issue_safe {callID : String} {issued : Nat} {c : BrokerCredential} (hinv : Inv w) (hg : Grow i w₀ w)
    (hc : Served w₀ i c w) (hne : c.revision ≠ issued) :
    protocol.Safe i (fun a w' => Kept i w w' ∧ RejectionPost w₀ i issued a w')
      (recordIssued callID c.revision >>= fun _ => .ret (.ok c)) w := by
  refine Protocol.Safe.bind (recordIssued_safe callID c.revision) (fun _ w' _ hk => ?_) hinv
  refine safe_ret fun w'' hr => ⟨hk.rely hr, RejectionPost.grow ⟨⟨hg, ?_⟩, ?_, by simp⟩ (hk.grow.trans hr.grow)⟩
  · intro c' h
    cases h
    exact hc
  · intro c' h
    cases h
    exact hne

theorem rejectedInSlot_safe (callID : String) (issued : IssuedCredential) (hin : Inside w₀ i w) :
    protocol.Safe i (fun a w' => Inside w₀ i w' ∧ RejectionPost w₀ i issued.revision a w')
      (rejectedInSlot callID issued) w := by
  refine safe_call (fun _ _ _ => trivial) (fun w₁ superseding w₂ hr hinv₁ hs hinv₂ hg => ?_)
  have hin₂ := hin.next hr hs rfl hg
  cases superseding with
  | some c =>
    obtain ⟨hc, hne⟩ := served_of_superseding hinv₁ (hin.rely hr).grow hs rfl
    exact (issue_safe hinv₂ hin₂.grow hc (Ne.symm hne)).mono fun _ _ h => ⟨hin₂.kept h.1, h.2⟩
  | none =>
  show protocol.Safe i _ (read issued.revision >>= _) w₂
  refine Protocol.Safe.bind (read_safe issued.revision hin₂) (fun result w₃ hinv₃ hread => ?_) hinv₂
  cases result with
  | error err =>
    have herr : err ≠ .rejectedCredentialNotRefreshed := fun h => hread.refused (by rw [h])
    exact safe_ret fun w' hr' => ⟨hread.inside.rely hr', (RejectionPost.error hread.inside.grow herr).grow hr'.grow⟩
  | ok c =>
    have hc := hread.served c rfl
    show protocol.Safe i _ (if _ then _ else _) w₃
    split
    · refine safe_ret fun w' hr' => ⟨hread.inside.rely hr', RejectionPost.grow ⟨⟨hread.inside.grow, ?_⟩, ?_, ?_⟩ hr'.grow⟩
      · intro _ h; cases h
      · intro _ h; cases h
      · exact fun _ => hread.asked
    · rename_i hsame
      have hne : c.revision ≠ issued.revision := fun h => hsame ⟨h ▸ hc.revision, h⟩
      exact (issue_safe hinv₃ hread.inside.grow hc hne).mono fun _ _ h => ⟨hread.inside.kept h.1, h.2⟩

/-- `credentialAfterRejection` after `issuedTo`. -/
theorem afterIssuedTo_safe (callID : String) (issued : IssuedCredential) (hg₀ : Grow i w₀ w) :
    protocol.Safe i (RejectionPost w₀ i issued.revision) (afterIssuedTo callID issued) w := by
  refine safe_call (fun _ _ _ => trivial) (fun w₁ superseding w₂ hr hinv₁ hs hinv₂ hg => ?_)
  have hg₂ := hg₀.trans hg
  cases superseding with
  | some c =>
    obtain ⟨hc, hne⟩ := served_of_superseding hinv₁ (hg₀.trans hr.grow) hs rfl
    exact (issue_safe hinv₂ hg₂ hc (Ne.symm hne)).mono fun _ _ h => h.2
  | none =>
  refine safe_call (fun _ _ _ => trivial) (fun w₃ failed w₄ hr' hinv₃ hs' hinv₄ hg' => ?_)
  obtain ⟨hfree, rfl, rfl⟩ | ⟨rfl, rfl⟩ := hs'
  · have hin := inside_acquired (hg₂.trans hr'.grow) hinv₃ hfree
    exact releasing_safe hinv₄ (rejectedInSlot_safe callID issued hin) (fun _ _ _ h hg => h.grow hg)
  · exact safe_ret fun w' hr => (RejectionPost.error hg₂ (by simp)).grow (hg'.trans hr.grow)

/-- Only `credentialAfterRejection` itself asks what was issued, once. -/
def Op.keepsIssued (o : Op) : Prop := ∀ callID, o ≠ .issuedTo callID

theorem issuedTo_of_step {o : Op} {w w' : World ι} {a : Ans o} (ho : o.keepsIssued) (hs : step i o w a w') :
    w'.issuedTo = w.issuedTo := by
  cases o with
  | issuedTo callID => exact absurd rfl (ho callID)
  | now | releaseReadSlot | receive | remember => obtain ⟨-, rfl⟩ := hs; rfl
  | ctxErr => rw [show w' = _ from hs]
  | send | forget | recordIssued => rw [show w' = _ from hs]; rfl
  | acquireReadSlot =>
    obtain ⟨-, -, rfl⟩ | ⟨-, rfl⟩ := hs
    · rfl
    · rfl
  | tryAcquireReadSlot =>
    obtain ⟨-, -, rfl⟩ | ⟨-, -, rfl⟩ := hs
    · rfl
    · rfl
  | usableCredential => obtain ⟨now, -, -, rfl⟩ := hs; rfl
  | unexpiredCredential | sharedRecentFailure | supersedingCredential =>
    obtain ⟨-, -, rfl⟩ | ⟨-, now, -, -, rfl⟩ := hs
    · rfl
    · rfl
  | deferNextRead | rememberFailure => obtain ⟨now, -, rfl⟩ := hs; rfl

theorem recordIssued_keepsIssued (callID : String) (revision : Nat) :
    (recordIssued callID revision).Performs Op.keepsIssued := by
  unfold recordIssued
  split
  · trivial
  · exact ⟨by simp [Op.keepsIssued], fun _ => ⟨by simp [Op.keepsIssued], fun _ => trivial⟩⟩

theorem issue_keepsIssued (callID : String) (c : BrokerCredential) :
    (recordIssued callID c.revision >>= fun _ => (.ret (.ok c) : P (Except Err BrokerCredential))).Performs
      Op.keepsIssued := by
  refine Prog.performs_bind (fun _ => ?_) (recordIssued_keepsIssued callID c.revision)
  trivial

theorem read_keepsIssued (rejectedRevision : Nat) : (read rejectedRevision).Performs Op.keepsIssued := by
  have hbind : ∀ (received : BrokerOutcome × Nat) (f : BrokerOutcome × Nat → P (Except Err BrokerCredential)),
      Prog.bind (.ret received) f = f received := fun _ _ => rfl
  refine ⟨by simp [Op.keepsIssued], fun _ => ⟨by simp [Op.keepsIssued], fun received => ?_⟩⟩
  show Prog.Performs _ (Prog.bind (.ret received) _)
  erw [hbind]
  split
  · trivial
  · refine ⟨by simp [Op.keepsIssued], fun now => ?_⟩
    show Prog.Performs _ (if _ then _ else _)
    split
    · trivial
    · exact ⟨by simp [Op.keepsIssued], fun _ => ⟨by simp [Op.keepsIssued], fun _ => trivial⟩⟩
  · exact ⟨by simp [Op.keepsIssued], fun _ => trivial⟩
  · exact ⟨by simp [Op.keepsIssued], fun _ => trivial⟩

theorem rejectedInSlot_keepsIssued (callID : String) (issued : IssuedCredential) :
    (rejectedInSlot callID issued).Performs Op.keepsIssued := by
  refine ⟨by simp [Op.keepsIssued], fun superseding => ?_⟩
  cases superseding with
  | some c => exact issue_keepsIssued callID c
  | none =>
    show Prog.Performs _ (read issued.revision >>= _)
    refine Prog.performs_bind (fun result => ?_) (read_keepsIssued issued.revision)
    cases result with
    | error err => trivial
    | ok c =>
      show Prog.Performs _ (if _ then _ else _)
      split
      · trivial
      · exact issue_keepsIssued callID c

theorem afterIssuedTo_keepsIssued (callID : String) (issued : IssuedCredential) :
    (afterIssuedTo callID issued).Performs Op.keepsIssued := by
  refine ⟨by simp [Op.keepsIssued], fun superseding => ?_⟩
  cases superseding with
  | some c => exact issue_keepsIssued callID c
  | none =>
    refine ⟨by simp [Op.keepsIssued], fun failed => ?_⟩
    cases failed with
    | some err => trivial
    | none =>
      show Prog.Performs _ (rejectedInSlot callID issued >>= _)
      refine Prog.performs_bind (fun _ => ?_) (rejectedInSlot_keepsIssued callID issued)
      exact ⟨by simp [Op.keepsIssued], fun _ => trivial⟩

theorem credentialAfterRejection_safe (callID : String) :
    protocol.Safe i (fun result w' => ∃ issued, w'.issuedTo i = some issued ∧ RejectionPost w i issued result w')
      (credentialAfterRejection callID) w := by
  refine safe_call (fun _ _ _ => trivial) (fun w₁ issued w₂ _ _ hs _ hg => ?_)
  have hissued : w₂.issuedTo i = some (IssuedCredential.revision issued) := by
    obtain ⟨-, -, rfl⟩ | ⟨-, now, -, -, rfl⟩ := hs
    · exact if_pos rfl
    · exact if_pos rfl
  refine (Protocol.Safe.frame (F := fun w' => w'.issuedTo i = some (IssuedCredential.revision issued))
    (fun w' w'' hr h => (Rely.issuedTo hr).trans h) (fun o w' a w'' ho hs h => ?_) (afterIssuedTo_safe callID issued hg)
    (afterIssuedTo_keepsIssued callID issued) hissued).mono fun _ _ h => ⟨_, h.2, h.1⟩
  rw [issuedTo_of_step ho hs]
  exact h

/-! ## Every interleaving -/

/-- What a finished call of thread `i`, followed from `w₀`, leaves. -/
def CallPost (w₀ : World ι) (i : ι) : Call → Except Err BrokerCredential → World ι → Prop
  | .credential _, result, w => CurrentPost w₀ i result w
  | .credentialAfterRejection _, result, w =>
    ∃ issued, w.issuedTo i = some issued ∧ RejectionPost w₀ i issued result w

theorem call_safe (call : Call) (hinv : Inv w) : protocol.Safe i (CallPost w i call) call.program w := by
  cases call with
  | credential callID => exact credential_safe callID hinv
  | credentialAfterRejection callID => exact credentialAfterRejection_safe callID

omit [DecidableEq ι] in
theorem inv_init (clock : Int) : Inv (World.init clock : World ι) :=
  ⟨fun _ h => (by cases h), fun _ h => (by cases h), .inl rfl, by simp [World.init]⟩

/-- All the calls of one cache, none of them started. -/
def start (calls : ι → Call) (clock : Int) : Config Op Ans (Except Err BrokerCredential) (World ι) ι :=
  ⟨World.init clock, fun i => (calls i).program⟩

theorem reach_safe {calls : ι → Call} {clock : Int} {c : Config Op Ans (Except Err BrokerCredential) (World ι) ι}
    (hrun : Config.Run step (start calls clock) c) :
    Inv c.state ∧ ∀ j, protocol.Safe j (fun _ _ => True) (c.threads j) c.state :=
  Protocol.safe_run (P := protocol) (Q := fun _ _ _ => True) hrun (inv_init clock)
    fun j => (call_safe (calls j) (inv_init clock)).mono fun _ _ _ => trivial

/-- A broker answer without a credential, and one with revision five. -/
def revoked : BrokerResponse := ⟨.reauthorizationRequired, [], false, 0, none, none⟩

def serving : BrokerResponse := ⟨.ready, [0x7B, 0x7D], true, 5, none, none⟩

/-- A first call, which the broker refuses. -/
theorem credential_revoked : ∃ w : World Bool, 1 ∈ w.processed ∧ w.slot = none ∧ w.clock = 0 ∧
    w.connection.cached = none ∧ w.connection.recentFailure = none ∧
    Prog.Exec (step true) (Call.credential "").program (World.init 0) (.error .reauthorizationRequired) w := by
  refine ⟨_, ?_, ?_, ?_, ?_, ?_, none, _, ⟨0, by decide, rfl, rfl⟩, none, _, .inl ⟨rfl, rfl, rfl⟩, none, _,
    .inl ⟨rfl, rfl, rfl⟩, none, _, ⟨0, by decide, rfl, rfl⟩, none, _, .inl ⟨rfl, rfl, rfl⟩, (), _, rfl,
    (.response revoked, 1), _, ⟨rfl, rfl⟩, (), _, rfl, true, _, rfl, (), _,
    ⟨by simp [World.tick, World.note, World.withConnection], rfl⟩, rfl, rfl⟩
  · simp [World.tick, World.note]
  all_goals rfl

/-- A second call, which the broker serves. -/
theorem credential_served {w : World Bool} (hslot : w.slot = none) (hclock : w.clock = 0)
    (hcached : w.connection.cached = none) (hfail : w.connection.recentFailure = none) :
    ∃ c w', Prog.Exec (step false) (Call.credential "").program w (.ok c) w' := by
  have husable : ∀ now, none = w.connection.usableCredential now := by simp [SharedConnection.usableCredential, hcached]
  refine ⟨_, _, none, _, ⟨0, Int.le_of_eq hclock, husable 0, rfl⟩, none, _, .inl ⟨hcached, rfl, rfl⟩, none, _,
    .inl ⟨hslot, rfl, rfl⟩, none, _, ⟨0, Int.le_refl 0, husable 0, rfl⟩, none, _, .inl ⟨hfail, rfl, rfl⟩, (), _, rfl,
    (.response serving, w.received + 1), _, ⟨rfl, rfl⟩, (0 : Int), _, ⟨Int.le_refl 0, rfl⟩, (0 : Int), _,
    ⟨Int.le_refl 0, rfl⟩, _, _,
    ⟨rfl, rfl⟩, (), _, ⟨by simp [World.tick, World.note, World.withConnection], rfl⟩, rfl, rfl⟩

end Shared
end Dex
