import Mathlib.Data.List.Basic
/-!
# LibObjectStore — a linearizable store of versioned objects

Every key has a history of versions, newest first.  A read answers the newest version, or the one asked for.  A create
succeeds only on a key without versions, a swap only when the newest version has the expected tag.  A conditional write
that is refused may say so, fail, or leave its caller in doubt; one that is applied may also leave its caller in doubt.
Nothing else is assumed of the answers: a refused write may report a conflict that is not there.

Version identifiers are never empty and never used twice for a key.  A tag identifies a representation: two versions of
a key with one tag have the same contents.  `writer` is ghost: it says who wrote a version and is read by no program.
-/
namespace Lib
namespace Store

variable {C T : Type}

structure Version (C T : Type) where
  id       : String
  etag     : String
  contents : C
  writer   : T

/-- The versions of every key, newest first. -/
abbrev Objects (C T : Type) := String → List (Version C T)

inductive ReadAnswer (C T : Type) where
  | found (version : Version C T)
  | absent
  | failed

inductive WriteAnswer (C T : Type) where
  | applied (version : Version C T)
  | conflict
  | unknown
  | failed

/-- The version a read names; the empty name is the newest. -/
def lookup (s : Objects C T) (key version : String) : Option (Version C T) :=
  if version = "" then (s key).head? else (s key).find? (fun v => v.id == version)

def put (s : Objects C T) (key : String) (v : Version C T) : Objects C T := fun k => if k = key then v :: s k else s k

def Reads (s : Objects C T) (key version : String) : ReadAnswer C T → Prop
  | .found v => lookup s key version = some v
  | .absent => lookup s key version = none
  | .failed => True

/-- A version that may be added to the history of a key. -/
structure Fresh (s : Objects C T) (key : String) (v : Version C T) : Prop where
  id_ne   : v.id ≠ ""
  etag_ne : v.etag ≠ ""
  new     : ∀ u ∈ s key, u.id ≠ v.id
  etag    : ∀ u ∈ s key, u.etag = v.etag → u.contents = v.contents

def Applies (s : Objects C T) (key : String) (contents : C) (writer : T) (answer : WriteAnswer C T)
    (s' : Objects C T) : Prop :=
  ∃ v, Fresh s key v ∧ v.contents = contents ∧ v.writer = writer ∧ s' = put s key v ∧
    (answer = .applied v ∨ answer = .unknown)

def Refuses (s : Objects C T) (answer : WriteAnswer C T) (s' : Objects C T) : Prop :=
  s' = s ∧ (answer = .conflict ∨ answer = .unknown ∨ answer = .failed)

def Creates (s : Objects C T) (key : String) (contents : C) (writer : T) (answer : WriteAnswer C T)
    (s' : Objects C T) : Prop :=
  (s key = [] ∧ Applies s key contents writer answer s') ∨ Refuses s answer s'

def Swaps (s : Objects C T) (key etag : String) (contents : C) (writer : T) (answer : WriteAnswer C T)
    (s' : Objects C T) : Prop :=
  ((∃ v, (s key).head? = some v ∧ v.etag = etag) ∧ Applies s key contents writer answer s') ∨ Refuses s answer s'

/-! ## Legal stores -/

/-- **What the store guarantees of its histories.** -/
structure Wf (s : Objects C T) : Prop where
  named : ∀ key, ∀ v ∈ s key, v.id ≠ "" ∧ v.etag ≠ ""
  ids   : ∀ key, (s key).Pairwise (fun u v => u.id ≠ v.id)
  etags : ∀ key, ∀ u ∈ s key, ∀ v ∈ s key, u.etag = v.etag → u.contents = v.contents

theorem wf_empty : Wf (fun _ => [] : Objects C T) :=
  ⟨fun _ _ h => (by cases h), fun _ => List.Pairwise.nil, fun _ _ h => (by cases h)⟩

@[simp] theorem put_same (s : Objects C T) (key : String) (v : Version C T) : put s key v key = v :: s key := if_pos rfl

theorem put_of_ne (s : Objects C T) {key k : String} (v : Version C T) (h : k ≠ key) : put s key v k = s k := if_neg h

theorem Wf.put {s : Objects C T} (h : Wf s) {key : String} {v : Version C T} (hv : Fresh s key v) : Wf (put s key v) := by
  refine ⟨fun k u hu => ?_, fun k => ?_, fun k u hu u' hu' he => ?_⟩
  · by_cases hk : k = key
    · subst hk
      rw [put_same] at hu
      rcases List.mem_cons.1 hu with rfl | hu
      · exact ⟨hv.id_ne, hv.etag_ne⟩
      · exact h.named k u hu
    · rw [put_of_ne s v hk] at hu
      exact h.named k u hu
  · by_cases hk : k = key
    · subst hk
      rw [put_same]
      exact List.Pairwise.cons (fun u hu => Ne.symm (hv.new u hu)) (h.ids k)
    · rw [put_of_ne s v hk]
      exact h.ids k
  · by_cases hk : k = key
    · subst hk
      rw [put_same] at hu hu'
      rcases List.mem_cons.1 hu with hueq | hu
      · rcases List.mem_cons.1 hu' with hueq' | hu'
        · rw [hueq, hueq']
        · rw [hueq] at he ⊢
          exact (hv.etag u' hu' he.symm).symm
      · rcases List.mem_cons.1 hu' with hueq' | hu'
        · rw [hueq'] at he ⊢
          exact hv.etag u hu he
        · exact h.etags k u hu u' hu' he
    · rw [put_of_ne s v hk] at hu hu'
      exact h.etags k u hu u' hu' he

/-- There is always a version to add. -/
theorem exists_fresh (s : Objects C T) (key : String) (contents : C) (writer : T) :
    ∃ v, Fresh s key v ∧ v.contents = contents ∧ v.writer = writer := by
  obtain ⟨n, hn⟩ : ∃ n, ∀ u ∈ s key, u.id.length < n ∧ u.etag.length < n := by
    generalize s key = l
    induction l with
    | nil => exact ⟨0, fun u hu => (by cases hu)⟩
    | cons u l ih =>
      obtain ⟨n, hn⟩ := ih
      refine ⟨n + u.id.length + u.etag.length + 1, fun x hx => ?_⟩
      rcases List.mem_cons.1 hx with rfl | hx
      · omega
      · have := hn x hx
        omega
  have hlength : (String.ofList (List.replicate (n + 1) '0')).length = n + 1 := by simp
  have hne : ∀ text : String, text.length < n → text ≠ String.ofList (List.replicate (n + 1) '0') := by
    rintro text h rfl
    omega
  have hempty : String.ofList (List.replicate (n + 1) '0') ≠ "" := by
    intro h
    rw [h] at hlength
    simp at hlength
  refine ⟨⟨_, _, contents, writer⟩, ⟨hempty, hempty, fun u hu => hne _ (hn u hu).1, fun u hu he => ?_⟩, rfl, rfl⟩
  exact absurd he (hne _ (hn u hu).2)

/-- **Histories only grow.** -/
def Grows (s s' : Objects C T) : Prop := ∀ key, s key <:+ s' key

theorem Grows.refl (s : Objects C T) : Grows s s := fun _ => List.suffix_rfl

theorem Grows.trans {s s' s'' : Objects C T} (h : Grows s s') (h' : Grows s' s'') : Grows s s'' :=
  fun key => (h key).trans (h' key)

theorem grows_put (s : Objects C T) (key : String) (v : Version C T) : Grows s (put s key v) := by
  intro k
  by_cases hk : k = key
  · subst hk
    rw [put_same]
    exact List.suffix_cons v _
  · exact ⟨[], (put_of_ne s v hk).symm⟩

theorem Grows.mem {s s' : Objects C T} (h : Grows s s') {key : String} {v : Version C T} (hv : v ∈ s key) : v ∈ s' key :=
  (h key).subset hv

theorem mem_of_lookup {s : Objects C T} {key version : String} {v : Version C T} (h : lookup s key version = some v) :
    v ∈ s key := by
  unfold lookup at h
  split at h
  · exact List.mem_of_mem_head? h
  · exact List.mem_of_find?_eq_some h

/-- A version is found by its identifier for good. -/
theorem Wf.lookup_id {s : Objects C T} (h : Wf s) (key : String) {v : Version C T} (hv : v ∈ s key) :
    lookup s key v.id = some v := by
  unfold lookup
  rw [if_neg (h.named key v hv).1]
  have hids := h.ids key
  generalize s key = l at hv hids
  induction l with
  | nil => cases hv
  | cons u rest ih =>
    cases hids with
    | cons hu hrest =>
      rcases List.mem_cons.1 hv with rfl | hv
      · simp
      · rw [List.find?_cons_of_neg (by simpa using hu v hv)]
        exact ih hv hrest

/-- A named version is found after a write as before it. -/
theorem lookup_put {s : Objects C T} {key k version : String} {u v : Version C T} (hu : lookup s k version = some u)
    (hversion : version ≠ "") (hv : Fresh s key v) : lookup (put s key v) k version = some u := by
  have hmem := mem_of_lookup hu
  unfold lookup at hu ⊢
  rw [if_neg hversion] at hu ⊢
  by_cases hk : k = key
  · subst hk
    have hid : u.id = version := by simpa using List.find?_some hu
    rw [put_same, List.find?_cons_of_neg (by simpa [← hid] using Ne.symm (hv.new u hmem)), hu]
  · rw [put_of_ne s v hk, hu]

/-- **A write changes nothing, or adds one version**; a swap adds it to the representation it expected. -/
theorem swaps_cases {s s' : Objects C T} {key : String} {u : Version C T} {contents : C} {writer : T}
    {answer : WriteAnswer C T} (h : Swaps s key u.etag contents writer answer s') (hwf : Wf s) (hu : u ∈ s key) :
    (s' = s ∧ ∀ v, answer ≠ .applied v) ∨
    ∃ v rest current, s key = current :: rest ∧ current.contents = u.contents ∧ Fresh s key v ∧ v.contents = contents ∧
      v.writer = writer ∧ s' = put s key v ∧ (answer = .applied v ∨ answer = .unknown) := by
  rcases h with ⟨⟨current, hhead, hetag⟩, v, hv, hc, hw, hs, ha⟩ | ⟨rfl, ha⟩
  · obtain ⟨rest, hrest⟩ : ∃ rest, s key = current :: rest := by
      cases hk : s key with
      | nil => rw [hk] at hhead; cases hhead
      | cons x rest => rw [hk] at hhead; cases hhead; exact ⟨rest, rfl⟩
    refine .inr ⟨v, rest, current, hrest, hwf.etags key current ?_ u hu hetag, hv, hc, hw, hs, ha⟩
    rw [hrest]
    exact List.mem_cons_self
  · refine .inl ⟨rfl, fun v hv => ?_⟩
    rw [hv] at ha
    rcases ha with ha | ha | ha <;> cases ha

theorem creates_cases {s s' : Objects C T} {key : String} {contents : C} {writer : T} {answer : WriteAnswer C T}
    (h : Creates s key contents writer answer s') :
    (s' = s ∧ ∀ v, answer ≠ .applied v) ∨
    ∃ v, s key = [] ∧ Fresh s key v ∧ v.contents = contents ∧ v.writer = writer ∧ s' = put s key v ∧
      (answer = .applied v ∨ answer = .unknown) := by
  rcases h with ⟨hempty, v, hv, hc, hw, hs, ha⟩ | ⟨rfl, ha⟩
  · exact .inr ⟨v, hempty, hv, hc, hw, hs, ha⟩
  · refine .inl ⟨rfl, fun v hv => ?_⟩
    rw [hv] at ha
    rcases ha with ha | ha | ha <;> cases ha

end Store
end Lib
