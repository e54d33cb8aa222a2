import Mathlib.Data.List.Basic
/-!
# HeadHistory — the abstract head of a project connection

What the Go, Python and TypeScript stores agree on, without their records: a head has a revision, a fence and perhaps a
pending credential exchange.  An exchange is admitted under a new fence; its publication keeps the fence and ends it;
every other change ends it under a new fence.  A history is a list of heads, newest first, each reached from the one
before; the oldest ones may be given (`base`).

`lt_of_admission`: a new admission has a larger fence than everything before it.  `publish_after`: an exchange is published
only onto the head that has it pending, so never again once the head has moved on.
-/
namespace Dex
namespace Head

inductive Kind where
  | base       -- there before the run
  | admission
  | publish
  | settle     -- replace, revoke, restore or fail
  deriving DecidableEq, Repr

structure Entry where
  kind     : Kind
  revision : Nat
  fence    : Nat
  pending  : Option String

/-- **One change of the head.** -/
def Follows (previous : Option Entry) (e : Entry) : Prop :=
  match e.kind with
  | .base => ∀ p, previous = some p → p.kind = .base
  | .admission => e.revision = (previous.map Entry.revision).getD 0 + 1 ∧ e.fence = (previous.map Entry.fence).getD 0 + 1 ∧
    e.pending ≠ none
  | .publish => ∃ p, previous = some p ∧ p.pending ≠ none ∧ e.revision = p.revision + 1 ∧ e.fence = p.fence ∧
    e.pending = none
  | .settle => e.revision = (previous.map Entry.revision).getD 0 + 1 ∧ e.fence = (previous.map Entry.fence).getD 0 + 1 ∧
    e.pending = none

variable {V : Type} (abs : V → Entry)

/-- **A history**: every version follows the one before it. -/
def Linked : List V → Prop
  | [] => True
  | v :: rest => Follows (rest.head?.map abs) (abs v) ∧ Linked rest

variable {abs}

theorem Linked.suffix {l l' : List V} (h : Linked abs l) (hs : l' <:+ l) : Linked abs l' := by
  obtain ⟨newer, rfl⟩ := hs
  induction newer with
  | nil => exact h
  | cons v newer ih => exact ih h.2

/-- A version that was not there before the run follows the one before it with the same fence or the next. -/
theorem fence_step {v p : V} {rest : List V} (h : Linked abs (v :: p :: rest)) (hv : (abs v).kind ≠ .base) :
    (abs p).fence ≤ (abs v).fence ∧ ((abs v).kind ≠ .publish → (abs p).fence < (abs v).fence) := by
  have hf := h.1
  simp only [List.head?_cons, Option.map_some] at hf
  unfold Follows at hf
  split at hf
  · rename_i hk
    exact absurd hk hv
  · obtain ⟨-, hfence, -⟩ := hf
    simp only [Option.map_some, Option.getD_some] at hfence
    exact ⟨by omega, fun _ => by omega⟩
  · rename_i hk
    obtain ⟨q, hq, -, -, hfence, -⟩ := hf
    cases hq
    exact ⟨by omega, fun h => absurd hk h⟩
  · obtain ⟨-, hfence, -⟩ := hf
    simp only [Option.map_some, Option.getD_some] at hfence
    exact ⟨by omega, fun _ => by omega⟩

/-- A version before a version that was there before the run was there too. -/
theorem base_of_base {v : V} : ∀ {rest : List V}, Linked abs (v :: rest) → (abs v).kind = .base → ∀ u ∈ rest, (abs u).kind = .base
  | [], _, _, _, hu => by cases hu
  | p :: rest, h, hv, u, hu => by
    have hp : (abs p).kind = .base := by
      have hf := h.1
      unfold Follows at hf
      rw [hv] at hf
      exact hf (abs p) rfl
    rcases List.mem_cons.1 hu with rfl | hu
    · exact hp
    · exact base_of_base h.2 hp u hu

/-- **Fences never decrease** along the versions of a run, and only a publication keeps its fence. -/
theorem fence_le {v p : V} {older : List V} : ∀ {between : List V}, Linked abs (v :: (between ++ p :: older)) →
    (abs v).kind ≠ .base → (∀ x ∈ between, (abs x).kind ≠ .base) →
    (abs p).fence ≤ (abs v).fence ∧ ((abs v).kind ≠ .publish → (abs p).fence < (abs v).fence)
  | [], h, hv, _ => fence_step h hv
  | x :: between, h, hv, hb => by
    obtain ⟨hle, hlt⟩ := fence_step h hv
    have := (fence_le h.2 (hb x (by simp)) (fun y hy => hb y (by simp [hy]))).1
    exact ⟨Nat.le_trans this hle, fun hk => Nat.lt_of_le_of_lt this (hlt hk)⟩

/-- **A new admission has a larger fence than everything the run wrote before it.** -/
theorem lt_of_admission {v u : V} {rest : List V} (h : Linked abs (v :: rest)) (hv : (abs v).kind = .admission)
    (hu : u ∈ rest) (hub : (abs u).kind ≠ .base) : (abs u).fence < (abs v).fence := by
  obtain ⟨between, older, rfl⟩ := List.append_of_mem hu
  have hb : ∀ x ∈ between, (abs x).kind ≠ .base := by
    intro x hx hxb
    obtain ⟨front, back, rfl⟩ := List.append_of_mem hx
    have hlink : Linked abs (x :: (back ++ u :: older)) := h.suffix ⟨v :: front, by simp⟩
    exact hub (base_of_base hlink hxb u (by simp))
  exact (fence_le h (by rw [hv]; decide) hb).2 (by rw [hv]; decide)

/-- Two admissions of a run with one fence are one version. -/
theorem admission_unique : ∀ {l : List V}, Linked abs l → ∀ {u v : V}, u ∈ l → v ∈ l → (abs u).kind = .admission →
    (abs v).kind = .admission → (abs u).fence = (abs v).fence → u = v
  | [], _, _, _, hu, _, _, _, _ => by cases hu
  | x :: rest, h, u, v, hu, hv, hku, hkv, hf => by
    rcases List.mem_cons.1 hu with hux | hu
    · rcases List.mem_cons.1 hv with hvx | hv
      · rw [hux, hvx]
      · have := lt_of_admission h (hux ▸ hku) hv (by rw [hkv]; decide)
        rw [← hux] at this
        omega
    · rcases List.mem_cons.1 hv with hvx | hv
      · have := lt_of_admission h (hvx ▸ hkv) hu (by rw [hku]; decide)
        rw [← hvx] at this
        omega
      · exact admission_unique h.2 hu hv hku hkv hf

/-- A version of the run with a pending exchange is its admission. -/
theorem admission_of_pending {v : V} {rest : List V} (h : Linked abs (v :: rest)) (hv : (abs v).kind ≠ .base)
    (hp : (abs v).pending ≠ none) : (abs v).kind = .admission := by
  have hf := h.1
  unfold Follows at hf
  split at hf
  · rename_i hk
    exact absurd hk hv
  · assumption
  · obtain ⟨_, -, -, -, -, hnone⟩ := hf
    exact absurd hnone hp
  · exact absurd hf.2.2 hp

/-- A version of the run that is pending has a larger fence than everything below it. -/
theorem pending_after {p q : V} {newer older : List V} (h : Linked abs (newer ++ p :: older))
    (hnew : ∀ x ∈ newer, (abs x).kind ≠ .base) (hq : q ∈ newer) (hpend : (abs q).pending ≠ none) :
    (abs p).fence < (abs q).fence := by
  obtain ⟨front, back, rfl⟩ := List.append_of_mem hq
  have hqlink : Linked abs (q :: (back ++ p :: older)) := h.suffix ⟨front, by simp⟩
  have hadmitted := admission_of_pending hqlink (hnew q hq) hpend
  exact (fence_le hqlink (hnew q hq) (fun x hx => hnew x (by simp [hx]))).2 (by rw [hadmitted]; decide)

/-- **Publication is of the head's own exchange.**  When the head that had an exchange pending under its fence has been
left, no later version of the run is published from a head pending under that fence. -/
theorem publish_after {p v q : V} {newer older before : List V} (h : Linked abs (newer ++ p :: older))
    (hnew : ∀ x ∈ newer, (abs x).kind ≠ .base) (hs : v :: q :: before <:+ newer ++ p :: older) (hq : q ∈ newer)
    (hk : (abs v).kind = .publish) : (abs q).fence ≠ (abs p).fence := by
  have hpend : (abs q).pending ≠ none := by
    have hf := (h.suffix hs).1
    unfold Follows at hf
    rw [hk] at hf
    obtain ⟨q', hq', hp, -⟩ := hf
    cases hq'
    exact hp
  exact Nat.ne_of_gt (pending_after h hnew hq hpend)

end Head
end Dex
