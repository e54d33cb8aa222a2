import Mathlib.Data.List.Basic
/-!
# LibSaturate — closing a set under a relation, in scans over a list

A scan goes through the items in order and adds each one that the set pulls in, the set as it stands when the item's turn
comes.  Scans are repeated until one adds nothing.  Whether the set pulls an item in may fail to be told.
-/
namespace Lib
namespace Saturate

variable {α ε : Type} [DecidableEq α] (pulled : List α → α → Except ε Bool)

def visit (state : List α × Bool) (a : α) : Except ε (List α × Bool) :=
  if a ∈ state.1 then .ok state else (pulled state.1 a).map (fun isPulled => if isPulled then (a :: state.1, true) else state)

/-- One scan, and whether it added an item. -/
def scan (items s : List α) : Except ε (List α × Bool) := items.foldlM (visit pulled) (s, false)

/-- The items that are not in the set. -/
def missing (items s : List α) : Nat := (items.filter (fun a => a ∉ s)).length

/-! ## One scan -/

variable {pulled}

theorem visit_cases {state next : List α × Bool} {a : α} (h : visit pulled state a = .ok next) :
    (next = state ∧ (a ∈ state.1 ∨ pulled state.1 a = .ok false)) ∨
      (a ∉ state.1 ∧ pulled state.1 a = .ok true ∧ next = (a :: state.1, true)) := by
  unfold visit at h
  by_cases ha : a ∈ state.1
  · rw [if_pos ha] at h
    cases h
    exact .inl ⟨rfl, .inl ha⟩
  · rw [if_neg ha] at h
    cases hp : pulled state.1 a with
    | error e =>
      rw [hp] at h
      cases h
    | ok isPulled =>
      rw [hp] at h
      cases isPulled with
      | false =>
        cases h
        exact .inl ⟨rfl, .inr rfl⟩
      | true =>
        cases h
        exact .inr ⟨ha, rfl, rfl⟩

theorem foldlM_cons_ok {items : List α} {state next : List α × Bool} {a : α}
    (h : (a :: items).foldlM (visit pulled) state = .ok next) :
    ∃ middle, visit pulled state a = .ok middle ∧ items.foldlM (visit pulled) middle = .ok next := by
  rw [List.foldlM_cons] at h
  cases hv : visit pulled state a with
  | error e =>
    rw [hv] at h
    cases h
  | ok middle =>
    rw [hv] at h
    exact ⟨middle, rfl, h⟩

theorem foldlM_grows : ∀ {items : List α} {state next : List α × Bool}, items.foldlM (visit pulled) state = .ok next →
    state.1 ⊆ next.1 ∧ (state.2 = true → next.2 = true)
  | [], state, next, h => by
    cases h
    exact ⟨fun _ hb => hb, id⟩
  | a :: items, state, next, h => by
    obtain ⟨middle, hv, hrest⟩ := foldlM_cons_ok h
    obtain ⟨hsub, hadded⟩ := foldlM_grows hrest
    rcases visit_cases hv with ⟨rfl, -⟩ | ⟨-, -, rfl⟩
    · exact ⟨hsub, hadded⟩
    · exact ⟨fun b hb => hsub (List.mem_cons_of_mem a hb), fun _ => hadded rfl⟩

/-- What a scan adds is among the items, and was not in the set. -/
theorem foldlM_added : ∀ {items : List α} {state next : List α × Bool}, items.foldlM (visit pulled) state = .ok next →
    state.2 = false → next.2 = true → ∃ a ∈ items, a ∉ state.1 ∧ a ∈ next.1
  | [], state, next, h, hstate, hnext => by
    cases h
    rw [hstate] at hnext
    cases hnext
  | a :: items, state, next, h, hstate, hnext => by
    obtain ⟨middle, hv, hrest⟩ := foldlM_cons_ok h
    rcases visit_cases hv with ⟨rfl, -⟩ | ⟨ha, -, rfl⟩
    · obtain ⟨b, hb, hnot, hmem⟩ := foldlM_added hrest hstate hnext
      exact ⟨b, List.mem_cons_of_mem a hb, hnot, hmem⟩
    · exact ⟨a, List.mem_cons_self, ha, (foldlM_grows hrest).1 List.mem_cons_self⟩

/-- A scan that adds nothing leaves the set, which pulls in none of the items. -/
theorem foldlM_unchanged : ∀ {items : List α} {state next : List α × Bool}, items.foldlM (visit pulled) state = .ok next →
    next.2 = false → next = state ∧ ∀ a ∈ items, a ∈ state.1 ∨ pulled state.1 a = .ok false
  | [], state, next, h, _ => by
    cases h
    exact ⟨rfl, fun a ha => by cases ha⟩
  | a :: items, state, next, h, hnext => by
    obtain ⟨middle, hv, hrest⟩ := foldlM_cons_ok h
    rcases visit_cases hv with ⟨rfl, hkept⟩ | ⟨-, -, rfl⟩
    · obtain ⟨rfl, hall⟩ := foldlM_unchanged hrest hnext
      exact ⟨rfl, List.forall_mem_cons.2 ⟨hkept, hall⟩⟩
    · have hadded := (foldlM_grows hrest).2 rfl
      rw [hnext] at hadded
      cases hadded

/-- A scan keeps what is closed under being pulled in. -/
theorem foldlM_mem {P : α → Prop} {items : List α} (hpull : ∀ s : List α, (∀ b ∈ s, P b) → ∀ a ∈ items, pulled s a = .ok true → P a) :
    ∀ {rest : List α} {state next : List α × Bool}, rest ⊆ items → rest.foldlM (visit pulled) state = .ok next →
      (∀ b ∈ state.1, P b) → ∀ b ∈ next.1, P b
  | [], state, next, _, h, hstate => by
    cases h
    exact hstate
  | a :: rest, state, next, hsub, h, hstate => by
    obtain ⟨middle, hv, hrest⟩ := foldlM_cons_ok h
    obtain ⟨ha, hsub⟩ := List.cons_subset.1 hsub
    rcases visit_cases hv with ⟨rfl, -⟩ | ⟨-, hp, rfl⟩
    · exact foldlM_mem hpull hsub hrest hstate
    · exact foldlM_mem hpull hsub hrest (List.forall_mem_cons.2 ⟨hpull state.1 hstate a ha hp, hstate⟩)

theorem missing_lt {items s t : List α} (hsub : s ⊆ t) {a : α} (ha : a ∈ items) (hnot : a ∉ s) (hmem : a ∈ t) :
    missing items t < missing items s := by
  unfold missing
  have hfilter : items.filter (fun a => a ∉ t) = (items.filter (fun a => a ∉ s)).filter (fun a => a ∉ t) := by
    rw [List.filter_filter]
    refine List.filter_congr fun b _ => ?_
    by_cases hb : b ∈ t
    · simp [hb]
    · simpa [hb] using fun h => hb (hsub h)
  rw [hfilter]
  refine List.length_filter_lt_length_iff_exists.2 ⟨a, List.mem_filter.2 ⟨ha, ?_⟩, ?_⟩
  · exact decide_eq_true hnot
  · simp [hmem]

/-! ## Scans until nothing is added -/

theorem scan_lt {items s next : List α} (h : scan pulled items s = .ok (next, true)) : missing items next < missing items s := by
  obtain ⟨a, ha, hnot, hmem⟩ := foldlM_added h rfl rfl
  exact missing_lt (foldlM_grows h).1 ha hnot hmem

variable (pulled) in
/-- The scans end, since each but the last adds an item. -/
def saturate (items s : List α) : Except ε (List α) :=
  match _h : scan pulled items s with
  | .error e => .error e
  | .ok (next, true) => saturate items next
  | .ok (next, false) => .ok next
termination_by missing items s
decreasing_by exact scan_lt _h

/-- **What comes out is closed**, holds what went in, and is within every closed set that does. -/
theorem saturate_spec {items s t : List α} (h : saturate pulled items s = .ok t) :
    s ⊆ t ∧ (∀ a ∈ items, a ∈ t ∨ pulled t a = .ok false) ∧
      ∀ P : α → Prop, (∀ s : List α, (∀ b ∈ s, P b) → ∀ a ∈ items, pulled s a = .ok true → P a) → (∀ b ∈ s, P b) → ∀ b ∈ t, P b := by
  induction s using saturate.induct pulled items with
  | case1 s e hscan =>
    rw [saturate, hscan] at h
    cases h
  | case2 s next hscan ih =>
    rw [saturate, hscan] at h
    obtain ⟨hsub, hclosed, hleast⟩ := ih h
    exact ⟨List.Subset.trans (foldlM_grows hscan).1 hsub, hclosed, fun P hpull hs =>
      hleast P hpull (foldlM_mem hpull (List.Subset.refl items) hscan hs)⟩
  | case3 s next hscan =>
    rw [saturate, hscan] at h
    cases h
    obtain ⟨heq, hclosed⟩ := foldlM_unchanged hscan rfl
    cases heq
    exact ⟨List.Subset.refl _, hclosed, fun P _ hs => hs⟩

theorem foldlM_ok (htold : ∀ s : List α, ∀ a, ∃ isPulled, pulled s a = .ok isPulled) :
    ∀ (items : List α) (state : List α × Bool), ∃ next, items.foldlM (visit pulled) state = .ok next
  | [], state => ⟨state, rfl⟩
  | a :: items, state => by
    obtain ⟨middle, hv⟩ : ∃ middle, visit pulled state a = .ok middle := by
      unfold visit
      by_cases ha : a ∈ state.1
      · exact ⟨state, if_pos ha⟩
      · obtain ⟨isPulled, hp⟩ := htold state.1 a
        rw [if_neg ha, hp]
        exact ⟨_, rfl⟩
    obtain ⟨next, hnext⟩ := foldlM_ok htold items middle
    refine ⟨next, ?_⟩
    rw [List.foldlM_cons, hv]
    exact hnext

/-- Where it can always be told what is pulled in, the scans succeed. -/
theorem saturate_ok (htold : ∀ s : List α, ∀ a, ∃ isPulled, pulled s a = .ok isPulled) (items s : List α) :
    ∃ t, saturate pulled items s = .ok t := by
  induction s using saturate.induct pulled items with
  | case1 s e hscan =>
    obtain ⟨next, hnext⟩ := foldlM_ok htold items (s, false)
    unfold scan at hscan
    rw [hnext] at hscan
    cases hscan
  | case2 s next hscan ih =>
    obtain ⟨t, ht⟩ := ih
    refine ⟨t, ?_⟩
    rw [saturate, hscan]
    exact ht
  | case3 s next hscan =>
    refine ⟨next, ?_⟩
    rw [saturate, hscan]

end Saturate
end Lib
