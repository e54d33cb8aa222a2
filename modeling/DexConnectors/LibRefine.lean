import Mathlib.Logic.Relation
import DexConnectors.LibProgram
/-!
# LibRefine — operations performed by requests

A client performs each operation of an abstract interface by a program of requests to a server.  A `Refinement` says what the
server's state stands for (`view`) and, of a program that is performing an operation, that a request either changes nothing a
view shows and leaves the operation pending, or performs it at once and for good.  Threads are then interleaved request by
request, and every such interleaving is one of the operations themselves (`Refinement.run`).
-/
namespace Lib

variable {Op Req : Type} {Ans : Op → Type} {Res : Req → Type} {α β σ τ ι : Type}

theorem Prog.bind_bind {γ : Type} (f : α → Prog Req Res β) (g : β → Prog Req Res γ) : ∀ p : Prog Req Res α,
    ((p >>= f) >>= g) = p >>= fun a => f a >>= g
  | .ret _ => rfl
  | .call q k => congrArg (Prog.call q) (funext fun r => Prog.bind_bind f g (k r))

/-- A program with its operations performed by requests. -/
def Prog.expand (impl : (o : Op) → Prog Req Res (Ans o)) : Prog Op Ans α → Prog Req Res α
  | .ret a => .ret a
  | .call o k => impl o >>= fun r => (k r).expand impl

/-- A program run alone request by request, as one run operation by operation. -/
theorem Prog.exec_expand {impl : (o : Op) → Prog Req Res (Ans o)} {request : (q : Req) → τ → Res q → τ → Prop} :
    ∀ (p : Prog Op Ans α) (t : τ) (a : α) (t' : τ), Prog.Exec (fun o => Prog.Exec request (impl o)) p t a t' →
      Prog.Exec request (p.expand impl) t a t'
  | .ret _, _, _, _, h => h
  | .call o k, t, a, t', ⟨r, t₁, hr, h⟩ =>
    (Prog.exec_bind request _ (impl o) t a t').2 ⟨r, t₁, hr, Prog.exec_expand (k r) t₁ a t' h⟩

/-- **How operations are performed by requests.** -/
structure Refinement (step : ι → (o : Op) → σ → Ans o → σ → Prop) (request : ι → (q : Req) → τ → Res q → τ → Prop) where
  impl    : (o : Op) → Prog Req Res (Ans o)
  view    : τ → σ
  pending : (o : Op) → Prog Req Res (Ans o) → Prop
  begun   : ∀ o, pending o (impl o)
  advance : ∀ i o q k t r t', pending o (.call q k) → request i q t r t' →
    (view t' = view t ∧ pending o (k r)) ∨ ∃ a, k r = .ret a ∧ step i o (view t) a (view t')
  settled : ∀ i o a t, pending o (.ret a) → step i o (view t) a (view t)

namespace Refinement

variable {step : ι → (o : Op) → σ → Ans o → σ → Prop} {request : ι → (q : Req) → τ → Res q → τ → Prop}
  (R : Refinement step request)

/-- **What is left of an abstract program**: it has ended, or its first operation is pending. -/
def Follows : Prog Op Ans α → Prog Req Res α → Prop
  | .ret a, q => q = .ret a
  | .call o k, q => ∃ m, R.pending o m ∧ q = m >>= fun r => (k r).expand R.impl

theorem follows_expand : ∀ p : Prog Op Ans α, R.Follows p (p.expand R.impl)
  | .ret _ => rfl
  | .call o _ => ⟨R.impl o, R.begun o, rfl⟩

/-- One request of a thread, as operations of its abstract program. -/
theorem follows_call (i : ι) {q : Req} {t t' : τ} {r : Res q} (hr : request i q t r t') :
    ∀ (p : Prog Op Ans α) {k : Res q → Prog Req Res α}, R.Follows p (.call q k) →
      ∃ n p', Prog.Performed (step i) n p (R.view t) p' (R.view t') ∧ R.Follows p' (k r)
  | .ret a, k, h => by cases h
  | .call o k', k, ⟨m, hm, hq⟩ => by
    cases m with
    | ret a =>
      have hrest : R.Follows (k' a) (.call q k) := by
        rw [hq]
        exact R.follows_expand (k' a)
      obtain ⟨n, p', hn, hp⟩ := follows_call i hr (k' a) hrest
      exact ⟨n + 1, p', ⟨a, R.view t, R.settled i o a t hm, hn⟩, hp⟩
    | call q' k'' =>
      cases hq
      rcases R.advance i o q k'' t r t' hm hr with ⟨hview, hpending⟩ | ⟨a, ha, hstep⟩
      · exact ⟨0, .call o k', ⟨rfl, hview⟩, k'' r, hpending, rfl⟩
      · refine ⟨1, k' a, ⟨a, R.view t', hstep, rfl, rfl⟩, ?_⟩
        show R.Follows (k' a) (k'' r >>= fun r => (k' r).expand R.impl)
        rw [ha]
        exact R.follows_expand (k' a)

/-- An ended thread, as operations of its abstract program. -/
theorem follows_ret (i : ι) (t : τ) : ∀ (p : Prog Op Ans α) {a : α}, R.Follows p (.ret a) →
    ∃ n, Prog.Performed (step i) n p (R.view t) (.ret a) (R.view t)
  | .ret b, a, h => by
    cases h
    exact ⟨0, rfl, rfl⟩
  | .call o k, a, ⟨m, hm, hq⟩ => by
    cases m with
    | ret b =>
      have hrest : R.Follows (k b) (.ret a) := by
        rw [hq]
        exact R.follows_expand (k b)
      obtain ⟨n, hn⟩ := follows_ret i t (k b) hrest
      exact ⟨n + 1, b, R.view t, R.settled i o b t hm, hn⟩
    | call q k' => cases hq

/-- **A configuration of requests and the configuration of operations it stands for.** -/
structure Relates (d : Config Op Ans α σ ι) (c : Config Req Res α τ ι) : Prop where
  state   : d.state = R.view c.state
  threads : ∀ i, R.Follows (d.threads i) (c.threads i)

theorem relates_step {d : Config Op Ans α σ ι} {c c' : Config Req Res α τ ι} (h : R.Relates d c)
    (hstep : Config.Step request c c') : ∃ d', Config.Run step d d' ∧ R.Relates d' c' := by
  classical
  obtain ⟨i, q, k, r, hi, hr, hk, hother⟩ := hstep
  have hfollows := h.threads i
  rw [hi] at hfollows
  obtain ⟨n, p', hn, hp⟩ := R.follows_call i hr (d.threads i) hfollows
  obtain ⟨d', hrun, hstate, hthread, hothers⟩ := Config.exists_performed rfl h.state hn
  refine ⟨d', hrun, hstate, fun j => ?_⟩
  by_cases hj : j = i
  · subst hj
    rw [hthread, hk]
    exact hp
  · rw [hothers j hj, hother j hj]
    exact h.threads j

/-- **Every interleaving of requests is one of operations.** -/
theorem relates_run {d : Config Op Ans α σ ι} {c c' : Config Req Res α τ ι} (h : R.Relates d c)
    (hrun : Config.Run request c c') : ∃ d', Config.Run step d d' ∧ R.Relates d' c' := by
  induction hrun with
  | refl => exact ⟨d, .refl, h⟩
  | tail _ hs ih =>
    obtain ⟨d₁, hrun₁, h₁⟩ := ih
    obtain ⟨d', hrun', h'⟩ := R.relates_step h₁ hs
    exact ⟨d', hrun₁.trans hrun', h'⟩

/-- Threads that have ended, some of them without a request, have ended as operations too. -/
theorem relates_ended {c : Config Req Res α τ ι} : ∀ (callers : List ι) {d : Config Op Ans α σ ι}, R.Relates d c →
    ∃ d', Config.Run step d d' ∧ R.Relates d' c ∧ ∀ i ∈ callers, ∀ a, c.threads i = .ret a → d'.threads i = .ret a
  | [], d, h => ⟨d, .refl, h, fun i hi => (by cases hi)⟩
  | i :: callers, d, h => by
    classical
    obtain ⟨d₁, hrun₁, h₁, hended₁⟩ := relates_ended callers h
    cases hi : c.threads i with
    | call q k =>
      refine ⟨d₁, hrun₁, h₁, fun j hj a ha => ?_⟩
      rcases List.mem_cons.1 hj with rfl | hj
      · rw [hi] at ha
        cases ha
      · exact hended₁ j hj a ha
    | ret b =>
      have hfollows := h₁.threads i
      rw [hi] at hfollows
      obtain ⟨n, hn⟩ := R.follows_ret i c.state (d₁.threads i) hfollows
      obtain ⟨d', hrun', hstate, hthread, hothers⟩ := Config.exists_performed rfl h₁.state hn
      have hended : ∀ j ∈ i :: callers, ∀ a, c.threads j = .ret a → d'.threads j = .ret a := by
        intro j hj a ha
        by_cases hji : j = i
        · subst hji
          rw [hi] at ha
          cases ha
          exact hthread
        · rw [hothers j hji]
          exact hended₁ j ((List.mem_cons.1 hj).resolve_left hji) a ha
      refine ⟨d', hrun₁.trans hrun', ⟨hstate, fun j => ?_⟩, hended⟩
      by_cases hj : j = i
      · subst hj
        rw [hthread, hi]
        rfl
      · rw [hothers j hj]
        exact h₁.threads j

/-- **The refinement rule.**  A run of requests is a run of operations that ends in the view of the same state, in which the
callers of any list that have ended have ended with the same values. -/
theorem run {d : Config Op Ans α σ ι} {c c' : Config Req Res α τ ι} (callers : List ι) (h : R.Relates d c)
    (hrun : Config.Run request c c') :
    ∃ d', Config.Run step d d' ∧ R.Relates d' c' ∧ ∀ i ∈ callers, ∀ a, c'.threads i = .ret a → d'.threads i = .ret a := by
  obtain ⟨d₁, hrun₁, h₁⟩ := R.relates_run h hrun
  obtain ⟨d', hrun', h', hended⟩ := R.relates_ended callers h₁
  exact ⟨d', hrun₁.trans hrun', h', hended⟩

end Refinement
end Lib
