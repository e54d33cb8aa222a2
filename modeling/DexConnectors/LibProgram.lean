import Mathlib.Logic.Relation
/-!
# LibProgram — concurrent programs over a shared state, and rely–guarantee for them

A `Prog` is a finite tree of operations: it ends with a value, or performs one operation and goes on with its answer.
`Exec` runs one program alone.  A `Config` is a shared state and one program for each thread; `Config.Step` lets any
thread perform its next operation, so a run of steps is an interleaving.  A thread that stops taking steps has crashed.

A `Protocol` says what one operation of thread `i` does to the state, which states are legal (`inv`), what the threads
promise each other (`guar`) and what a thread may count on while the others run (`rely`).  `Safe` is the proof
obligation of one thread: at every operation, from every legal state the others can have left, it keeps the invariant
and its promise, and it ends with its postcondition.  `Protocol.safe_run` is the rule: threads that are safe at the
start stay safe, whatever the interleaving.
-/
namespace Lib

variable {Op : Type} {Ans : Op → Type} {α β σ ι : Type}

inductive Prog (Op : Type) (Ans : Op → Type) (α : Type) where
  | ret (value : α)
  | call (op : Op) (next : Ans op → Prog Op Ans α)

namespace Prog

def bind : Prog Op Ans α → (α → Prog Op Ans β) → Prog Op Ans β
  | .ret a, f => f a
  | .call o k, f => .call o (fun r => (k r).bind f)

instance : Monad (Prog Op Ans) where
  pure := .ret
  bind := bind

def perform (o : Op) : Prog Op Ans (Ans o) := .call o .ret

@[simp] theorem pure_eq (a : α) : (pure a : Prog Op Ans α) = .ret a := rfl

@[simp] theorem bind_ret (a : α) (f : α → Prog Op Ans β) : (Prog.ret a >>= f) = f a := rfl

@[simp] theorem bind_call (o : Op) (k : Ans o → Prog Op Ans α) (f : α → Prog Op Ans β) :
    (Prog.call o k >>= f) = .call o (fun r => k r >>= f) := rfl

@[simp] theorem perform_bind (o : Op) (f : Ans o → Prog Op Ans β) : (perform o >>= f) = .call o f := rfl

/-- **One program run alone**: `step` says what each operation may answer and leave behind. -/
def Exec (step : (o : Op) → σ → Ans o → σ → Prop) : Prog Op Ans α → σ → α → σ → Prop
  | .ret a, s, b, s' => b = a ∧ s' = s
  | .call o k, s, b, s'' => ∃ r s', step o s r s' ∧ Exec step (k r) s' b s''

theorem exec_bind (step : (o : Op) → σ → Ans o → σ → Prop) (f : α → Prog Op Ans β) :
    ∀ (p : Prog Op Ans α) (s : σ) (b : β) (s'' : σ),
      Exec step (p >>= f) s b s'' ↔ ∃ a s', Exec step p s a s' ∧ Exec step (f a) s' b s''
  | .ret a, s, b, s'' => by
    constructor
    · intro h
      exact ⟨a, s, ⟨rfl, rfl⟩, h⟩
    · rintro ⟨a', s', ⟨rfl, rfl⟩, h⟩
      exact h
  | .call o k, s, b, s'' => by
    constructor
    · rintro ⟨r, s', hs, h⟩
      obtain ⟨a, s₁, h1, h2⟩ := (exec_bind step f (k r) s' b s'').1 h
      exact ⟨a, s₁, ⟨r, s', hs, h1⟩, h2⟩
    · rintro ⟨a, s₁, ⟨r, s', hs, h1⟩, h2⟩
      exact ⟨r, s', hs, (exec_bind step f (k r) s' b s'').2 ⟨a, s₁, h1, h2⟩⟩

theorem exec_mono {step step' : (o : Op) → σ → Ans o → σ → Prop} (h : ∀ o s r s', step o s r s' → step' o s r s') :
    ∀ (p : Prog Op Ans α) (s : σ) (a : α) (s' : σ), Exec step p s a s' → Exec step' p s a s'
  | .ret _, _, _, _, he => he
  | .call o k, s, a, s'', ⟨r, s', hs, he⟩ => ⟨r, s', h o s r s' hs, exec_mono h (k r) s' a s'' he⟩

/-- A program alone ends when every operation is answered. -/
theorem exists_exec {step : (o : Op) → σ → Ans o → σ → Prop} (h : ∀ o s, ∃ r s', step o s r s') :
    ∀ (p : Prog Op Ans α) (s : σ), ∃ a s', Exec step p s a s'
  | .ret a, s => ⟨a, s, rfl, rfl⟩
  | .call o k, s => by
    obtain ⟨r, s₁, hs⟩ := h o s
    obtain ⟨a, s', hexec⟩ := exists_exec h (k r) s₁
    exact ⟨a, s', r, s₁, hs, hexec⟩

/-- Every operation the program can reach satisfies `φ`. -/
def Performs (φ : Op → Prop) : Prog Op Ans α → Prop
  | .ret _ => True
  | .call o k => φ o ∧ ∀ r, Performs φ (k r)

theorem performs_bind {φ : Op → Prop} {f : α → Prog Op Ans β} (hf : ∀ a, (f a).Performs φ) :
    ∀ {p : Prog Op Ans α}, p.Performs φ → (p >>= f).Performs φ
  | .ret a, _ => hf a
  | .call _ _, h => ⟨h.1, fun r => performs_bind hf (h.2 r)⟩

/-- A run of operations that both worlds allow. -/
theorem exec_of_performs {φ : Op → Prop} {step step' : (o : Op) → σ → Ans o → σ → Prop}
    (h : ∀ o s r s', φ o → step o s r s' → step' o s r s') :
    ∀ {p : Prog Op Ans α} {s : σ} {a : α} {s' : σ}, p.Performs φ → Exec step p s a s' → Exec step' p s a s'
  | .ret _, _, _, _, _, he => he
  | .call o _, s, _, _, hp, ⟨r, s', hs, he⟩ => ⟨r, s', h o s r s' hp.1 hs, exec_of_performs h (hp.2 r) he⟩

/-- **A program run alone**, when every operation has one answer. -/
def runWith (answer : (o : Op) → σ → Ans o × σ) : Prog Op Ans α → σ → α × σ
  | .ret a, s => (a, s)
  | .call o k, s => runWith answer (k (answer o s).1) (answer o s).2

theorem runWith_bind (answer : (o : Op) → σ → Ans o × σ) (f : α → Prog Op Ans β) : ∀ (p : Prog Op Ans α) (s : σ),
    (p >>= f).runWith answer s = (f (p.runWith answer s).1).runWith answer (p.runWith answer s).2
  | .ret _, _ => rfl
  | .call o k, s => runWith_bind answer f (k (answer o s).1) (answer o s).2

/-- What every operation keeps, the program keeps. -/
theorem runWith_keeps {φ : Op → Prop} {I : σ → Prop} {answer : (o : Op) → σ → Ans o × σ}
    (h : ∀ o s, φ o → I s → I (answer o s).2) : ∀ {p : Prog Op Ans α} {s : σ}, p.Performs φ → I s → I (p.runWith answer s).2
  | .ret _, _, _, hs => hs
  | .call o k, s, hp, hs => runWith_keeps (p := k (answer o s).1) h (hp.2 _) (h o s hp.1 hs)

end Prog

/-- A shared state and the program each thread has left. -/
structure Config (Op : Type) (Ans : Op → Type) (α σ ι : Type) where
  state   : σ
  threads : ι → Prog Op Ans α

/-- **One thread performs its next operation.** -/
def Config.Step (step : ι → (o : Op) → σ → Ans o → σ → Prop) (c c' : Config Op Ans α σ ι) : Prop :=
  ∃ i o k r, c.threads i = .call o k ∧ step i o c.state r c'.state ∧ c'.threads i = k r ∧
    ∀ j, j ≠ i → c'.threads j = c.threads j

/-- Any number of steps, by any threads, in any order. -/
def Config.Run (step : ι → (o : Op) → σ → Ans o → σ → Prop) : Config Op Ans α σ ι → Config Op Ans α σ ι → Prop :=
  Relation.ReflTransGen (Config.Step step)

/-- A thread whose turn it is until it ends. -/
theorem Config.run_alone [DecidableEq ι] (step : ι → (o : Op) → σ → Ans o → σ → Prop) (i : ι) {a : α} {s' : σ} :
    ∀ {c : Config Op Ans α σ ι}, Prog.Exec (step i) (c.threads i) c.state a s' →
      Config.Run step c ⟨s', fun j => if j = i then .ret a else c.threads j⟩ := by
  have h : ∀ (p : Prog Op Ans α) (c : Config Op Ans α σ ι), c.threads i = p → Prog.Exec (step i) p c.state a s' →
      Config.Run step c ⟨s', fun j => if j = i then .ret a else c.threads j⟩ := by
    intro p
    induction p with
    | ret b =>
      rintro c hp ⟨rfl, rfl⟩
      have : (⟨c.state, fun j => if j = i then .ret a else c.threads j⟩ : Config Op Ans α σ ι) = c := by
        congr 1
        funext j
        by_cases hj : j = i
        · rw [if_pos hj, hj, hp]
        · rw [if_neg hj]
      rw [this]
      exact .refl
    | call o k ih =>
      rintro c hp ⟨r, s₁, hs, hexec⟩
      let c₁ : Config Op Ans α σ ι := ⟨s₁, fun j => if j = i then k r else c.threads j⟩
      have hstep : Config.Step step c c₁ := ⟨i, o, k, r, hp, hs, if_pos rfl, fun j hj => if_neg hj⟩
      have hrest := ih r c₁ (if_pos rfl) hexec
      have hsame : (fun j => if j = i then .ret a else c₁.threads j) = fun j => if j = i then .ret a else c.threads j := by
        funext j
        by_cases hj : j = i
        · rw [if_pos hj, if_pos hj]
        · rw [if_neg hj, if_neg hj]
          exact if_neg hj
      rw [hsame] at hrest
      exact .head hstep hrest
  exact fun {c} => h (c.threads i) c rfl

/-- **The first `n` operations of a program run alone**, and what is left of it. -/
def Prog.Performed (step : (o : Op) → σ → Ans o → σ → Prop) : Nat → Prog Op Ans α → σ → Prog Op Ans α → σ → Prop
  | 0, p, s, q, s' => q = p ∧ s' = s
  | _ + 1, .ret _, _, _, _ => False
  | n + 1, .call o k, s, q, s'' => ∃ r s', step o s r s' ∧ Prog.Performed step n (k r) s' q s''

theorem Prog.performed_mono {step step' : (o : Op) → σ → Ans o → σ → Prop} (h : ∀ o s r s', step o s r s' → step' o s r s') :
    ∀ (n : Nat) {p q : Prog Op Ans α} {s s' : σ}, Prog.Performed step n p s q s' → Prog.Performed step' n p s q s'
  | 0, _, _, _, _, hp => hp
  | _ + 1, .ret _, _, _, _, hp => hp
  | n + 1, .call o _, _, s, _, ⟨r, s', hs, hp⟩ => ⟨r, s', h o s r s' hs, Prog.performed_mono h n hp⟩

theorem Prog.performed_bind {step : (o : Op) → σ → Ans o → σ → Prop} (f : α → Prog Op Ans β) :
    ∀ (n : Nat) {p q : Prog Op Ans α} {s s' : σ}, Prog.Performed step n p s q s' → Prog.Performed step n (p >>= f) s (q >>= f) s'
  | 0, _, _, _, _, ⟨hq, hs⟩ => ⟨congrArg (· >>= f) hq, hs⟩
  | _ + 1, .ret _, _, _, _, hp => hp.elim
  | n + 1, .call _ _, _, _, _, ⟨r, s', hs, hp⟩ => ⟨r, s', hs, Prog.performed_bind f n hp⟩

/-- A thread whose turn it is for some operations. -/
theorem Config.run_performed [DecidableEq ι] (step : ι → (o : Op) → σ → Ans o → σ → Prop) (i : ι) {q : Prog Op Ans α} {s' : σ} :
    ∀ (n : Nat) {c : Config Op Ans α σ ι}, Prog.Performed (step i) n (c.threads i) c.state q s' →
      Config.Run step c ⟨s', fun j => if j = i then q else c.threads j⟩ := by
  intro n
  induction n with
  | zero =>
    rintro c ⟨rfl, rfl⟩
    have : (⟨c.state, fun j => if j = i then c.threads i else c.threads j⟩ : Config Op Ans α σ ι) = c := by
      congr 1
      funext j
      by_cases hj : j = i
      · rw [if_pos hj, hj]
      · rw [if_neg hj]
    rw [this]
    exact .refl
  | succ n ih =>
    intro c hexec
    cases hp : c.threads i with
    | ret a =>
      rw [hp] at hexec
      exact hexec.elim
    | call o k =>
      rw [hp] at hexec
      obtain ⟨r, s₁, hs, hexec⟩ := hexec
      let c₁ : Config Op Ans α σ ι := ⟨s₁, fun j => if j = i then k r else c.threads j⟩
      have hstep : Config.Step step c c₁ := ⟨i, o, k, r, hp, hs, if_pos rfl, fun j hj => if_neg hj⟩
      have hthread : c₁.threads i = k r := if_pos rfl
      rw [← hthread] at hexec
      have hrest := ih hexec
      have hsame : (fun j => if j = i then q else c₁.threads j) = fun j => if j = i then q else c.threads j := by
        funext j
        by_cases hj : j = i
        · rw [if_pos hj, if_pos hj]
        · rw [if_neg hj, if_neg hj]
          exact if_neg hj
      rw [hsame] at hrest
      exact .head hstep hrest

/-- The same, from a configuration of which only the thread and the state are known. -/
theorem Config.exists_performed [DecidableEq ι] {step : ι → (o : Op) → σ → Ans o → σ → Prop} {i : ι} {p q : Prog Op Ans α}
    {s s' : σ} {n : Nat} {c : Config Op Ans α σ ι} (hp : c.threads i = p) (hs : c.state = s)
    (h : Prog.Performed (step i) n p s q s') :
    ∃ c', Config.Run step c c' ∧ c'.state = s' ∧ c'.threads i = q ∧ ∀ j, j ≠ i → c'.threads j = c.threads j := by
  subst hp hs
  exact ⟨_, Config.run_performed step i n h, rfl, if_pos rfl, fun _ hj => if_neg hj⟩

theorem Config.exists_alone [DecidableEq ι] {step : ι → (o : Op) → σ → Ans o → σ → Prop} {i : ι} {p : Prog Op Ans α} {a : α}
    {s s' : σ} {c : Config Op Ans α σ ι} (hp : c.threads i = p) (hs : c.state = s) (h : Prog.Exec (step i) p s a s') :
    ∃ c', Config.Run step c c' ∧ c'.state = s' ∧ c'.threads i = .ret a ∧ ∀ j, j ≠ i → c'.threads j = c.threads j := by
  subst hp hs
  exact ⟨_, Config.run_alone step i h, rfl, if_pos rfl, fun _ hj => if_neg hj⟩

/-- **A rely–guarantee protocol** between the threads of a configuration. -/
structure Protocol (Op : Type) (Ans : Op → Type) (σ ι : Type) where
  step       : ι → (o : Op) → σ → Ans o → σ → Prop
  inv        : σ → Prop
  guar       : ι → σ → σ → Prop
  rely       : ι → σ → σ → Prop
  rely_refl  : ∀ i s, rely i s s
  rely_trans : ∀ i {s s' s''}, rely i s s' → rely i s' s'' → rely i s s''
  guar_rely  : ∀ i j {s s'}, i ≠ j → guar i s s' → rely j s s'

namespace Protocol

variable (P : Protocol Op Ans σ ι)

/-- **The obligation of thread `i` running a program from a state**, with postcondition `Q`. -/
def Safe (i : ι) (Q : α → σ → Prop) : Prog Op Ans α → σ → Prop
  | .ret a, s => ∀ s', P.rely i s s' → P.inv s' → Q a s'
  | .call o k, s => ∀ s', P.rely i s s' → P.inv s' → ∀ r s'', P.step i o s' r s'' →
      P.inv s'' ∧ P.guar i s' s'' ∧ Safe i Q (k r) s''

variable {P} {i : ι} {Q : α → σ → Prop}

theorem Safe.rely {p : Prog Op Ans α} {s s' : σ} (h : P.Safe i Q p s) (hr : P.rely i s s') : P.Safe i Q p s' := by
  cases p with
  | ret a => exact fun s'' hr' hi => h s'' (P.rely_trans i hr hr') hi
  | call o k => exact fun s'' hr' hi => h s'' (P.rely_trans i hr hr') hi

theorem Safe.mono {Q' : α → σ → Prop} (hQ : ∀ a s, Q a s → Q' a s) :
    ∀ {p : Prog Op Ans α} {s : σ}, P.Safe i Q p s → P.Safe i Q' p s
  | .ret _, _, h => fun s' hr hi => hQ _ _ (h s' hr hi)
  | .call _ _, _, h => fun s' hr hi r s'' hs =>
    let ⟨h1, h2, h3⟩ := h s' hr hi r s'' hs
    ⟨h1, h2, Safe.mono hQ h3⟩

/-- A program with its value mapped. -/
theorem Safe.map {Q' : β → σ → Prop} {f : α → β} : ∀ {p : Prog Op Ans α} {s : σ}, P.Safe i (fun a s => Q' (f a) s) p s →
    P.Safe i Q' (p >>= fun a => .ret (f a)) s
  | .ret _, _, h => h
  | .call _ _, _, h => fun s' hr hi r s'' hs =>
    let ⟨h1, h2, h3⟩ := h s' hr hi r s'' hs
    ⟨h1, h2, Safe.map h3⟩

/-- **The frame rule**: what the others leave alone, and every operation of the program, holds to the end. -/
theorem Safe.frame {φ : Op → Prop} {F : σ → Prop} (hrely : ∀ s s', P.rely i s s' → F s → F s')
    (hstep : ∀ o s r s', φ o → P.step i o s r s' → F s → F s') :
    ∀ {p : Prog Op Ans α} {s : σ}, P.Safe i Q p s → p.Performs φ → F s → P.Safe i (fun a s => Q a s ∧ F s) p s
  | .ret _, s, h, _, hF => fun s' hr hi => ⟨h s' hr hi, hrely s s' hr hF⟩
  | .call o _, s, h, hp, hF => fun s' hr hi r s'' hs =>
    let ⟨h1, h2, h3⟩ := h s' hr hi r s'' hs
    ⟨h1, h2, Safe.frame hrely hstep h3 (hp.2 r) (hstep o s' r s'' hp.1 hs (hrely s s' hr hF))⟩

/-- A program of operations that keep the invariant and the promise wherever they are performed. -/
theorem safe_of_performs {φ : Op → Prop} (hstep : ∀ o s r s', φ o → P.inv s → P.step i o s r s' → P.inv s' ∧ P.guar i s s') :
    ∀ {p : Prog Op Ans α} {s : σ}, p.Performs φ → P.Safe i (fun _ _ => True) p s
  | .ret _, _, _ => fun _ _ _ => trivial
  | .call o _, _, hp => fun s' _ hi r s'' hs =>
    let ⟨h1, h2⟩ := hstep o s' r s'' hp.1 hi hs
    ⟨h1, h2, safe_of_performs hstep (hp.2 r)⟩

/-- **Sequencing**: the second program starts from whatever the first one promises. -/
theorem Safe.bind {Q' : β → σ → Prop} {f : α → Prog Op Ans β} : ∀ {p : Prog Op Ans α} {s : σ}, P.Safe i Q p s →
    (∀ a s', P.inv s' → Q a s' → P.Safe i Q' (f a) s') → P.inv s → P.Safe i Q' (p >>= f) s
  | .ret a, s, h, hf, hi => hf a s hi (h s (P.rely_refl i s) hi)
  | .call _ _, _, h, hf, _ => fun s' hr hi r s'' hs =>
    let ⟨h1, h2, h3⟩ := h s' hr hi r s'' hs
    ⟨h1, h2, Safe.bind h3 hf h1⟩

/-- One step of a configuration of safe threads keeps the invariant and the safety of every thread. -/
theorem safe_step {c c' : Config Op Ans α σ ι} {Q : ι → α → σ → Prop} (hstep : Config.Step P.step c c')
    (hinv : P.inv c.state) (hsafe : ∀ i, P.Safe i (Q i) (c.threads i) c.state) :
    P.inv c'.state ∧ (∀ i, P.Safe i (Q i) (c'.threads i) c'.state) ∧ ∃ i, P.guar i c.state c'.state := by
  obtain ⟨i, o, k, r, hi, hs, hk, hother⟩ := hstep
  have hsi := hsafe i
  rw [hi] at hsi
  obtain ⟨h1, h2, h3⟩ := hsi c.state (P.rely_refl i _) hinv r c'.state hs
  refine ⟨h1, fun j => ?_, i, h2⟩
  by_cases hj : j = i
  · subst hj
    rw [hk]
    exact h3
  · rw [hother j hj]
    exact (hsafe j).rely (P.guar_rely i j (Ne.symm hj) h2)

/-- **The rely–guarantee rule**: in every state a run of safe threads reaches, the invariant holds and every thread is
still safe. -/
theorem safe_run {c c' : Config Op Ans α σ ι} {Q : ι → α → σ → Prop} (hrun : Config.Run P.step c c')
    (hinv : P.inv c.state) (hsafe : ∀ i, P.Safe i (Q i) (c.threads i) c.state) :
    P.inv c'.state ∧ ∀ i, P.Safe i (Q i) (c'.threads i) c'.state := by
  induction hrun with
  | refl => exact ⟨hinv, hsafe⟩
  | tail _ hs ih =>
    obtain ⟨h1, h2, -⟩ := safe_step hs ih.1 ih.2
    exact ⟨h1, h2⟩

/-- What every promise implies holds across a whole run. -/
theorem run_rel {c c' : Config Op Ans α σ ι} {Q : ι → α → σ → Prop} {E : σ → σ → Prop} (hrefl : ∀ s, E s s)
    (htrans : ∀ s s' s'', E s s' → E s' s'' → E s s'') (hE : ∀ i s s', P.guar i s s' → E s s')
    (hrun : Config.Run P.step c c') (hinv : P.inv c.state) (hsafe : ∀ i, P.Safe i (Q i) (c.threads i) c.state) :
    E c.state c'.state := by
  induction hrun with
  | refl => exact hrefl _
  | tail hr hs ih =>
    obtain ⟨h1, h2⟩ := safe_run hr hinv hsafe
    obtain ⟨-, -, i, hg⟩ := safe_step hs h1 h2
    exact htrans _ _ _ ih (hE i _ _ hg)

/-- **A thread that has ended has its postcondition.** -/
theorem post_of_run {c c' : Config Op Ans α σ ι} {Q : ι → α → σ → Prop} (hrun : Config.Run P.step c c')
    (hinv : P.inv c.state) (hsafe : ∀ i, P.Safe i (Q i) (c.threads i) c.state) {i : ι} {a : α}
    (hret : c'.threads i = .ret a) : Q i a c'.state := by
  obtain ⟨h1, h2⟩ := safe_run hrun hinv hsafe
  have := h2 i
  rw [hret] at this
  exact this c'.state (P.rely_refl i _) h1

/-- **A thread followed from where it stands**: its postcondition may speak of the state it is followed from. -/
theorem post_from {c c' : Config Op Ans α σ ι} (hrun : Config.Run P.step c c') (hinv : P.inv c.state)
    (hsafe : ∀ j, P.Safe j (fun _ _ => True) (c.threads j) c.state) {i : ι} {Q : α → σ → Prop}
    (hi : P.Safe i Q (c.threads i) c.state) {a : α} (hret : c'.threads i = .ret a) : Q a c'.state := by
  have hall : ∀ j, P.Safe j (fun a s => j = i → Q a s) (c.threads j) c.state := by
    intro j
    by_cases hj : j = i
    · subst hj
      exact hi.mono (fun _ _ h _ => h)
    · exact (hsafe j).mono (fun _ _ _ h => absurd h hj)
  exact post_of_run hrun hinv (Q := fun j a s => j = i → Q a s) hall hret rfl

end Protocol
end Lib
