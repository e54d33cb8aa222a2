import DexConnectors.ConfigRuns
import DexConnectors.S3Refines
/-!
# S3History — the configuration document in a bucket

Callers of the configuration store on a bucket, interleaved request by request.  Whatever the bucket and the client answer, the
document has the revision history that the store promises over an abstract object store: the requests are operations of
that store (`S3.refinement`), and every run of those keeps the promises (`ConfigStore.guarantees_of_sound`).
-/
namespace Dex
namespace S3

open Lib Lib.Store ConfigStore

variable {ι I D X : Type}

section

variable [DecidableEq X]

/-- **Where a run on a bucket starts**: no document, and every call about to send its first request. -/
structure Start (d : Dialect I D X) (store : Adapter X) (retries : Nat) (meets : Nat → I → Prop) (calls : ι → Call I)
    (c : Config (Request X) (Reply X ι) (Except Err (Result D X ι)) (Bucket X ι) ι) : Prop where
  wf     : Wf (store.view c.state)
  head   : c.state (store.keyPrefix ++ d.key) = []
  called : ∀ i, c.threads i = ((calls i).method d).run.expand (store.perform retries)
  meets  : ∀ i r input, calls i = .write r input → meets r input

/-- **The same run as one of operations**, in which the callers of a list that have ended have ended with the same values. -/
structure Stands {store : Adapter X} (hsound : store.Sound) (retries : Nat) (callers : List ι)
    (d : Config (Op X) (Ans X ι) (Except Err (Result D X ι)) (Objects X ι) ι)
    (c : Config (Request X) (Reply X ι) (Except Err (Result D X ι)) (Bucket X ι) ι) : Prop where
  relates : (refinement (ι := ι) hsound retries).Relates d c
  ended   : ∀ i ∈ callers, ∀ res, c.threads i = .ret res → d.threads i = .ret res

variable {d : Dialect I D X} {meets : Nat → I → Prop} {same : D → D → Prop} {calls : ι → Call I} {store : Adapter X}

/-- Every run of a sound dialect on a bucket. -/
theorem guarantees_on_bucket (hd : d.Sound meets same) (hsound : store.Sound) (retries : Nat) (callers : List ι)
    {c₀ c c' : Config (Request X) (Reply X ι) (Except Err (Result D X ι)) (Bucket X ι) ι}
    (hstart : Start d store retries meets calls c₀) (hrun₀ : Config.Run request c₀ c) (hrun : Config.Run request c c') :
    ∃ e e', Stands hsound retries callers e c ∧ Stands hsound retries callers e' c' ∧ Guarantees d same calls e e' := by
  let R := refinement (ι := ι) hsound retries
  let e₀ : Config (Op X) (Ans X ι) (Except Err (Result D X ι)) (Objects X ι) ι :=
    ⟨store.view c₀.state, fun i => ((calls i).method d).run⟩
  have h₀ : R.Relates e₀ c₀ := by
    refine ⟨rfl, fun i => ?_⟩
    rw [hstart.called i]
    exact R.follows_expand _
  have hbegin : ConfigStore.Start d meets calls e₀ := by
    refine ⟨hstart.wf, ?_, fun _ => rfl, hstart.meets⟩
    show (c₀.state (store.keyPrefix ++ d.key)).map Stored.version = []
    rw [hstart.head]
    rfl
  obtain ⟨e, hrun₁, he, hended⟩ := R.run callers h₀ hrun₀
  obtain ⟨e', hrun₂, he', hended'⟩ := R.run callers he hrun
  exact ⟨e, e', ⟨he, hended⟩, ⟨he', hended'⟩, guarantees_of_sound hd hbegin hrun₁ hrun₂⟩

end

/-! ## A first write -/

def noSuchKey : APIError := ⟨"NoSuchKey", 404⟩

def stored (contents : X) (input : PutObjectInput X) : Stored X Unit := ⟨"v1", "e1", contents, input.sseKMSKeyID, ()⟩

theorem exec_read_absent (sdk : SDK) (size : X → Nat) (keyPrefix kmsKey : String) {key : String}
    (hkey : (adapter sdk size keyPrefix kmsKey).validateObjectKey key = true) :
    Prog.Exec (request ()) ((adapter sdk size keyPrefix kmsKey).perform 0 (.read key "")) (fun _ => []) .absent (fun _ => []) := by
  unfold Adapter.perform Adapter.readObject
  dsimp only
  rw [if_neg (by simp [hkey])]
  refine ⟨⟨.error (some noSuchKey), false⟩, _, ⟨fun _ => rfl, rfl⟩, ?_⟩
  cases sdk <;> exact ⟨rfl, rfl⟩

theorem exec_create_applied (sdk : SDK) (size : X → Nat) (keyPrefix kmsKey : String) {key : String} {contents : X}
    (hkey : (adapter sdk size keyPrefix kmsKey).validateObjectKey key = true)
    (hcontents : size contents ≠ 0 ∧ size contents ≤ maximumObjectBytes) :
    let input := (adapter sdk size keyPrefix kmsKey).writeInput key "" contents
    Prog.Exec (request ()) ((adapter sdk size keyPrefix kmsKey).perform 0 (.create key contents)) (fun _ => [])
      (.applied (stored contents input).version) (addVersion (fun _ => []) input.key (stored contents input)) := by
  intro input
  unfold Adapter.perform Adapter.createObject Adapter.writeObject
  dsimp only
  rw [if_neg (by simp [hkey]), if_neg (by simp [validateContents_adapter keyPrefix kmsKey sdk hcontents])]
  refine ⟨⟨.output ⟨some "v1", some "e1", ()⟩, false⟩, _, .inl ⟨⟨fun _ => rfl, fun etag h => ?_⟩, stored contents input, ?_, rfl, ?_⟩, ?_⟩
  · simp [Adapter.writeInput] at h
  · exact ⟨⟨by simp [stored, Stored.version], by simp [stored, Stored.version], fun u hu => (by cases hu), fun u hu => (by cases hu)⟩,
      by simp [stored], rfl, rfl, rfl⟩
  · exact ⟨⟨fun id h => by simpa [stored] using h.symm, fun tag h => by simpa [stored] using h.symm⟩, rfl⟩
  · exact ⟨rfl, rfl⟩

/-- An empty bucket, and one call about to be made. -/
def beginning [DecidableEq X] (d : Dialect I D X) (store : Adapter X) (call : Call I) :
    Config (Request X) (Reply X Unit) (Except Err (Result D X Unit)) (Bucket X Unit) Unit :=
  ⟨fun _ => [], fun _ => (call.method d).run.expand (store.perform 0)⟩

theorem start_beginning [DecidableEq X] (d : Dialect I D X) (store : Adapter X) {meets : Nat → I → Prop} {r : Nat} {input : I}
    (h : meets r input) : Start d store 0 meets (fun _ => .write r input) (beginning d store (.write r input)) :=
  ⟨wf_empty, rfl, fun _ => rfl, fun _ _ _ heq => (by cases heq; exact h)⟩

/-- The run of one write to an empty bucket. -/
theorem run_first [DecidableEq X] (d : Dialect I D X) (sdk : SDK) (size : X → Nat) (keyPrefix kmsKey : String) {input : I} {doc : D}
    {contents : X} (hkey : (adapter sdk size keyPrefix kmsKey).validateObjectKey d.key = true)
    (hcreates : d.creates 0 false = true) (hassign : d.assign 0 input = .ok (doc, contents))
    (hcontents : size contents ≠ 0 ∧ size contents ≤ maximumObjectBytes) :
    ∃ c', Config.Run request (beginning d (adapter sdk size keyPrefix kmsKey) (.write 0 input)) c' ∧
      (∃ v, c'.state (keyPrefix ++ d.key) = [v]) ∧ ∃ v, c'.threads () = .ret (.ok (.current doc v)) := by
  let store := adapter sdk size keyPrefix kmsKey
  let object := stored contents (store.writeInput d.key "" contents)
  let b' := addVersion (fun _ => []) (store.keyPrefix ++ d.key) object
  let perform : (o : Op X) → Bucket X Unit → Ans X Unit o → Bucket X Unit → Prop :=
    fun o => Prog.Exec (request ()) (store.perform 0 o)
  have hread : Prog.Exec perform (readConfiguration d).run (fun _ => []) (.error .objectNotFound) (fun _ => []) :=
    Method.raises_bind.2 (.inl (Method.raises_bind.2 (.inr ⟨.absent, fun _ => [],
      Method.returns_act.2 (exec_read_absent sdk size keyPrefix kmsKey hkey), rfl, rfl⟩)))
  have hwrite : Method.Returns perform (writeConfiguration d 0 input) (fun _ => []) (doc, object.version) b' := by
    refine Method.returns_bind.2 ⟨_, _, Method.returns_attempt.2 hread, Method.returns_bind.2 ⟨none, fun _ => [], ?_, ?_⟩⟩
    · exact Method.returns_orRaise.2 ⟨rfl, rfl⟩
    · unfold replaceFrom
      rw [if_neg (by simp), hassign]
      refine Method.returns_bind.2 ⟨.applied object.version, b', ?_, Method.returns_pure.2 ⟨rfl, rfl⟩⟩
      unfold ConfigStore.writeObject
      rw [if_pos (by exact hcreates)]
      exact Method.returns_act.2 (exec_create_applied sdk size keyPrefix kmsKey hkey hcontents)
  have hcall : Prog.Exec perform ((Call.write 0 input).method d).run (fun _ => []) (.ok (.current doc object.version)) b' :=
    (Prog.exec_bind perform _ _ _ _ _).2 ⟨.ok (doc, object.version), b', hwrite, rfl, rfl⟩
  have hrun := Config.run_alone request () (c := beginning d store (.write 0 input)) (Prog.exec_expand _ _ _ _ hcall)
  refine ⟨_, hrun, ⟨object, ?_⟩, object.version, rfl⟩
  have hsame : store.keyPrefix = keyPrefix := by cases sdk <;> rfl
  show addVersion (fun _ => []) (store.keyPrefix ++ d.key) object (keyPrefix ++ d.key) = [object]
  rw [hsame]
  exact if_pos rfl

end S3
end Dex
