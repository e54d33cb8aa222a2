import Mathlib.Data.List.Induction
import Mathlib.Data.List.Nodup
import Mathlib.Data.List.TakeDrop
/-!
# LibRecency — the keys of a history that were used last

A history is newest first.  `recent` keeps each key once, where it was last used; `bounded n` is the first `n` of them.

An insertion-ordered map that gives up its first key once it is over its bound `Holds` the same entries exactly as long as the
key that it gives up is the one whose last use is longest ago (`holds_put_iff`).
-/
namespace Lib
namespace Recency

variable {K V : Type} [DecidableEq K]

def others (key : K) (entries : List (K × V)) : List (K × V) := entries.filter (fun e => e.1 != key)

def recent : List (K × V) → List (K × V)
  | [] => []
  | (key, value) :: older => (key, value) :: others key (recent older)

/-- **The entries of the `n` keys used last.** -/
def bounded (n : Nat) (history : List (K × V)) : List (K × V) := (recent history).take n

/-! ## Histories -/

theorem mem_others {key : K} {entries : List (K × V)} {e : K × V} : e ∈ others key entries ↔ e ∈ entries ∧ e.1 ≠ key := by
  unfold others
  rw [List.mem_filter, bne_iff_ne]

theorem not_mem_keys_others (key : K) (entries : List (K × V)) : key ∉ (others key entries).map Prod.fst := by
  intro h
  obtain ⟨e, he, heq⟩ := List.mem_map.1 h
  exact (mem_others.1 he).2 heq

theorem others_of_not_mem {key : K} {entries : List (K × V)} (h : key ∉ entries.map Prod.fst) : others key entries = entries := by
  unfold others
  rw [List.filter_eq_self]
  intro e he
  rw [bne_iff_ne]
  exact fun heq => h (heq ▸ List.mem_map_of_mem he)

theorem nodup_others {entries : List (K × V)} (h : (entries.map Prod.fst).Nodup) (key : K) :
    ((others key entries).map Prod.fst).Nodup := h.sublist (List.filter_sublist.map _)

theorem mem_of_mem_recent {e : K × V} : ∀ {history : List (K × V)}, e ∈ recent history → e ∈ history
  | [], h => by cases h
  | _ :: older, h => by
    rcases List.mem_cons.1 h with rfl | h
    · exact List.mem_cons_self
    · exact List.mem_cons_of_mem _ (mem_of_mem_recent (mem_others.1 h).1)

theorem nodup_recent : ∀ history : List (K × V), ((recent history).map Prod.fst).Nodup
  | [] => List.nodup_nil
  | (key, _) :: older => List.nodup_cons.2 ⟨not_mem_keys_others key _, nodup_others (nodup_recent older) key⟩

theorem nodup_bounded (n : Nat) (history : List (K × V)) : ((bounded n history).map Prod.fst).Nodup :=
  (nodup_recent history).sublist ((List.take_sublist n _).map _)

theorem length_bounded_le (n : Nat) (history : List (K × V)) : (bounded n history).length ≤ n := List.length_take_le n _

theorem take_others_of_mem {key : K} : ∀ {entries : List (K × V)} {n : Nat}, (entries.map Prod.fst).Nodup →
    key ∈ (entries.take (n + 1)).map Prod.fst → (others key entries).take n = others key (entries.take (n + 1))
  | [], _, _, h => by cases h
  | e :: rest, n, hnodup, h => by
    rw [List.map_cons, List.nodup_cons] at hnodup
    rw [List.take_succ_cons] at h ⊢
    by_cases hkey : e.1 = key
    · subst hkey
      have hrest : e.1 ∉ (rest.take n).map Prod.fst := fun hm => hnodup.1 ((List.take_sublist n rest).map _ |>.subset hm)
      unfold others
      rw [List.filter_cons_of_neg (by simp), List.filter_cons_of_neg (by simp)]
      show (others e.1 rest).take n = others e.1 (rest.take n)
      rw [others_of_not_mem hnodup.1, others_of_not_mem hrest]
    · have hm : key ∈ (rest.take n).map Prod.fst := (List.mem_cons.1 h).resolve_left (fun heq => hkey heq.symm)
      cases n with
      | zero => cases hm
      | succ n =>
        unfold others
        rw [List.filter_cons_of_pos (by simp [hkey]), List.filter_cons_of_pos (by simp [hkey]), List.take_succ_cons]
        exact congrArg _ (take_others_of_mem hnodup.2 hm)

theorem take_others_of_not_mem {key : K} : ∀ {entries : List (K × V)} {n : Nat}, key ∉ (entries.take (n + 1)).map Prod.fst →
    (others key entries).take n = entries.take n
  | [], _, _ => rfl
  | e :: rest, n, h => by
    rw [List.take_succ_cons, List.map_cons, List.mem_cons, not_or] at h
    unfold others
    rw [List.filter_cons_of_pos (by simp [Ne.symm h.1])]
    cases n with
    | zero => rfl
    | succ n =>
      rw [List.take_succ_cons, List.take_succ_cons]
      exact congrArg _ (take_others_of_not_mem h.2)

/-- A key that is used again comes first. -/
theorem bounded_known {n : Nat} {key : K} {history : List (K × V)} (h : key ∈ (bounded (n + 1) history).map Prod.fst) (value : V) :
    bounded (n + 1) ((key, value) :: history) = (key, value) :: others key (bounded (n + 1) history) := by
  unfold bounded at h ⊢
  rw [recent, List.take_succ_cons, take_others_of_mem (nodup_recent history) h]

/-- A key that is new takes the place of the last. -/
theorem bounded_new {n : Nat} {key : K} {history : List (K × V)} (h : key ∉ (bounded (n + 1) history).map Prod.fst) (value : V) :
    bounded (n + 1) ((key, value) :: history) = (key, value) :: (bounded (n + 1) history).take n := by
  unfold bounded at h ⊢
  rw [recent, List.take_succ_cons, take_others_of_not_mem h, List.take_take, Nat.min_eq_left (Nat.le_succ n)]

/-! ## Insertion-ordered maps -/

/-- A key that is there keeps its place. -/
def assign (table : List (K × V)) (key : K) (value : V) : List (K × V) :=
  if key ∈ table.map Prod.fst then table.map (fun e => if e.1 = key then (key, value) else e) else table ++ [(key, value)]

/-- The first key goes when there are more than `n`. -/
def put (n : Nat) (table : List (K × V)) (key : K) (value : V) : List (K × V) :=
  if n < (assign table key value).length then (assign table key value).tail else assign table key value

/-- **The table holds the entries of the `n` keys used last**, in some order. -/
structure Holds (n : Nat) (table history : List (K × V)) : Prop where
  nodup : (table.map Prod.fst).Nodup
  same  : ∀ e, e ∈ table ↔ e ∈ bounded n history

/-- What is given up for the key is the key used longest ago, if anything is. -/
def GivesUpLast (n : Nat) (table history : List (K × V)) (key : K) : Prop :=
  key ∈ table.map Prod.fst ∨ table.length < n ∨ table.head? = (bounded n history).getLast?

section

variable {n : Nat} {table history : List (K × V)}

theorem Holds.perm (h : Holds n table history) : table.Perm (bounded n history) :=
  (List.perm_ext_iff_of_nodup h.nodup.of_map (nodup_bounded n history).of_map).2 h.same

theorem Holds.length_le (h : Holds n table history) : table.length ≤ n := by
  rw [h.perm.length_eq]
  exact length_bounded_le n history

theorem Holds.mem_keys (h : Holds n table history) (key : K) :
    key ∈ table.map Prod.fst ↔ key ∈ (bounded n history).map Prod.fst := (h.perm.map _).mem_iff

theorem holds_nil : Holds n ([] : List (K × V)) [] := by
  refine ⟨List.nodup_nil, fun e => ?_⟩
  unfold bounded recent
  rw [List.take_nil]

theorem mem_assign_known {key : K} {value : V} (hkey : key ∈ table.map Prod.fst) (e : K × V) :
    e ∈ table.map (fun e => if e.1 = key then (key, value) else e) ↔ e = (key, value) ∨ e ∈ others key table := by
  rw [List.mem_map, mem_others]
  constructor
  · rintro ⟨d, hd, rfl⟩
    split
    · exact .inl rfl
    next hne => exact .inr ⟨hd, hne⟩
  · rintro (rfl | ⟨he, hne⟩)
    · obtain ⟨d, hd, hdkey⟩ := List.mem_map.1 hkey
      exact ⟨d, hd, if_pos hdkey⟩
    · exact ⟨e, he, if_neg hne⟩

theorem keys_assign_known {key : K} {value : V} :
    (table.map (fun e => if e.1 = key then (key, value) else e)).map Prod.fst = table.map Prod.fst := by
  rw [List.map_map]
  refine List.map_congr_left fun e _ => ?_
  show (if e.1 = key then (key, value) else e).1 = e.1
  split
  next h => exact h.symm
  · rfl

theorem put_known {key : K} {value : V} (hlength : table.length ≤ n) (hkey : key ∈ table.map Prod.fst) :
    put n table key value = table.map (fun e => if e.1 = key then (key, value) else e) := by
  unfold put assign
  rw [if_pos hkey, List.length_map, if_neg (Nat.not_lt.2 hlength)]

theorem put_new {key : K} {value : V} (hkey : key ∉ table.map Prod.fst) (hlength : table.length < n) :
    put n table key value = table ++ [(key, value)] := by
  unfold put assign
  rw [if_neg hkey, List.length_append, List.length_singleton, if_neg (by omega)]

theorem put_full {key : K} {value : V} {first : K × V} (hkey : key ∉ (first :: table).map Prod.fst)
    (hlength : (first :: table).length = n) : put n (first :: table) key value = table ++ [(key, value)] := by
  unfold put assign
  rw [if_neg hkey, List.length_append, List.length_singleton, if_pos (by omega)]
  rfl

theorem Holds.put_known (h : Holds (n + 1) table history) {key : K} (value : V) (hkey : key ∈ table.map Prod.fst) :
    Holds (n + 1) (put (n + 1) table key value) ((key, value) :: history) := by
  rw [Recency.put_known h.length_le hkey]
  refine ⟨by rw [keys_assign_known]; exact h.nodup, fun e => ?_⟩
  rw [mem_assign_known hkey, bounded_known ((h.mem_keys key).1 hkey), List.mem_cons, mem_others, mem_others, h.same]

theorem Holds.put_new (h : Holds (n + 1) table history) {key : K} (value : V) (hkey : key ∉ table.map Prod.fst)
    (hlength : table.length < n + 1) : Holds (n + 1) (put (n + 1) table key value) ((key, value) :: history) := by
  rw [Recency.put_new hkey hlength]
  have hbounded : (bounded (n + 1) history).length ≤ n := by
    rw [← h.perm.length_eq]
    exact Nat.le_of_lt_succ hlength
  refine ⟨?_, fun e => ?_⟩
  · rw [List.map_append, List.map_singleton, List.nodup_append]
    refine ⟨h.nodup, List.nodup_singleton _, fun a ha b hb heq => ?_⟩
    rw [heq, List.mem_singleton.1 hb] at ha
    exact hkey ha
  · rw [bounded_new (fun hm => hkey ((h.mem_keys key).2 hm)), List.take_of_length_le hbounded, List.mem_append, List.mem_singleton,
      List.mem_cons, h.same, or_comm]

/-- A full table keeps what it should exactly when its first key was used longest ago. -/
theorem Holds.put_full_iff {first : K × V} {rest : List (K × V)} (h : Holds (n + 1) (first :: rest) history) {key : K} (value : V)
    (hkey : key ∉ (first :: rest).map Prod.fst) (hlength : (first :: rest).length = n + 1) :
    Holds (n + 1) (put (n + 1) (first :: rest) key value) ((key, value) :: history) ↔
      some first = (bounded (n + 1) history).getLast? := by
  have hkey' : key ∉ (bounded (n + 1) history).map Prod.fst := fun hm => hkey ((h.mem_keys key).2 hm)
  have hbounded : (bounded (n + 1) history).length = n + 1 := by rw [← h.perm.length_eq, hlength]
  have hne : bounded (n + 1) history ≠ [] := fun heq => by rw [heq] at hbounded; cases hbounded
  have htake : (bounded (n + 1) history).take n = (bounded (n + 1) history).dropLast := by
    rw [List.dropLast_eq_take, hbounded]
    rfl
  have hsplit := List.dropLast_append_getLast hne
  have hlast : (bounded (n + 1) history).getLast? = some ((bounded (n + 1) history).getLast hne) := List.getLast?_eq_some_getLast hne
  rw [put_full hkey hlength, hlast]
  have hnodup := (nodup_bounded (n + 1) history).of_map
  rw [← hsplit, List.nodup_append] at hnodup
  have hfirst := List.nodup_cons.1 h.nodup.of_map
  constructor
  · intro hnew
    have hmem := (h.same first).1 List.mem_cons_self
    rw [← hsplit, List.mem_append, List.mem_singleton] at hmem
    refine congrArg some (hmem.resolve_left fun hm => ?_)
    have hin : first ∈ rest ++ [(key, value)] := by
      refine (hnew.same first).2 ?_
      rw [bounded_new hkey', htake]
      exact List.mem_cons_of_mem _ hm
    rcases List.mem_append.1 hin with hm | hm
    · exact hfirst.1 hm
    · exact hkey (by rw [List.mem_singleton.1 hm]; exact List.mem_cons_self)
  · intro heq
    have heq := Option.some.inj heq
    refine ⟨?_, fun e => ?_⟩
    · rw [List.map_append, List.map_singleton, List.nodup_append]
      refine ⟨(List.nodup_cons.1 h.nodup).2, List.nodup_singleton _, fun a ha b hb hab => ?_⟩
      rw [hab, List.mem_singleton.1 hb] at ha
      exact hkey (List.mem_cons_of_mem _ ha)
    · rw [bounded_new hkey', htake, List.mem_append, List.mem_singleton, List.mem_cons, or_comm]
      refine or_congr_right ?_
      have hsame := h.same e
      rw [← hsplit, List.mem_append, List.mem_singleton, List.mem_cons, ← heq] at hsame
      constructor
      · intro he
        refine (hsame.1 (.inr he)).resolve_right fun h => ?_
        exact hfirst.1 (h ▸ he)
      · intro he
        refine (hsame.2 (.inl he)).resolve_left fun h => ?_
        exact hnodup.2.2 e he _ (List.mem_singleton_self _) (h.trans heq)

/-- **The table keeps the keys used last exactly when the key that it gives up was used longest ago.** -/
theorem holds_put_iff (h : Holds (n + 1) table history) (key : K) (value : V) :
    Holds (n + 1) (put (n + 1) table key value) ((key, value) :: history) ↔ GivesUpLast (n + 1) table history key := by
  unfold GivesUpLast
  by_cases hkey : key ∈ table.map Prod.fst
  · exact ⟨fun _ => .inl hkey, fun _ => h.put_known value hkey⟩
  · by_cases hlength : table.length < n + 1
    · exact ⟨fun _ => .inr (.inl hlength), fun _ => h.put_new value hkey hlength⟩
    · have hfull : table.length = n + 1 := Nat.le_antisymm h.length_le (Nat.not_lt.1 hlength)
      cases table with
      | nil => cases hfull
      | cons first rest =>
        rw [h.put_full_iff value hkey hfull, List.head?_cons]
        exact ⟨fun heq => .inr (.inr heq), fun hor => (hor.resolve_left hkey).resolve_left hlength⟩

end

/-! ## Keys that are used once -/

theorem recent_of_nodup : ∀ {history : List (K × V)}, (history.map Prod.fst).Nodup → recent history = history
  | [], _ => rfl
  | (key, value) :: older, h => by
    rw [List.map_cons, List.nodup_cons] at h
    rw [recent, recent_of_nodup h.2, others_of_not_mem h.1]

theorem holds_fresh {n : Nat} {entries : List (K × V)} (hnodup : (entries.map Prod.fst).Nodup) (hlength : entries.length ≤ n) :
    Holds n entries entries.reverse := by
  refine ⟨hnodup, fun e => ?_⟩
  have hreverse : (entries.reverse.map Prod.fst).Nodup := by
    rw [List.map_reverse]
    exact List.nodup_reverse.2 hnodup
  unfold bounded
  rw [recent_of_nodup hreverse, List.take_of_length_le (by rw [List.length_reverse]; exact hlength), List.mem_reverse]

theorem foldl_put_fresh {n : Nat} {entries : List (K × V)} (hnodup : (entries.map Prod.fst).Nodup) (hlength : entries.length ≤ n) :
    entries.foldl (fun table e => put n table e.1 e.2) [] = entries := by
  induction entries using List.reverseRecOn with
  | nil => rfl
  | append_singleton entries e ih =>
    rw [List.map_append, List.map_singleton, List.nodup_append] at hnodup
    rw [List.length_append, List.length_singleton] at hlength
    have hkey : e.1 ∉ entries.map Prod.fst := fun hm => hnodup.2.2 e.1 hm e.1 (List.mem_singleton_self _) rfl
    rw [List.foldl_append, ih hnodup.1 (Nat.le_of_succ_le hlength)]
    exact put_new hkey hlength

theorem put_same {n : Nat} {table : List (K × V)} {e : K × V} (hnodup : (table.map Prod.fst).Nodup) (hlength : table.length ≤ n)
    (he : e ∈ table) : put n table e.1 e.2 = table := by
  rw [put_known hlength (List.mem_map_of_mem he)]
  refine (List.map_congr_left fun d hd => ?_).trans (List.map_id _)
  split
  next hkey => exact (List.inj_on_of_nodup_map hnodup hd he hkey).symm
  · rfl

/-- A key that is used again once the table is full, and then a new one: the table gives up the key that was used again. -/
theorem not_holds_reused {n : Nat} {first e : K × V} {rest history : List (K × V)} (hnodup : ((first :: rest).map Prod.fst).Nodup)
    (hlength : (first :: rest).length = n + 2) (he : e.1 ∉ (first :: rest).map Prod.fst)
    (hholds : Holds (n + 2) (first :: rest) history) :
    ¬ Holds (n + 2) (put (n + 2) (put (n + 2) (first :: rest) first.1 first.2) e.1 e.2) (e :: first :: history) := by
  intro h
  rw [put_same hnodup (Nat.le_of_eq hlength) List.mem_cons_self, put_full he hlength] at h
  have hfirst : first.1 ∈ (bounded (n + 2) history).map Prod.fst := (hholds.mem_keys _).1 List.mem_cons_self
  have hreused : bounded (n + 2) (first :: history) = first :: others first.1 (bounded (n + 2) history) := bounded_known hfirst first.2
  have hholds' : Holds (n + 2) (first :: rest) (first :: history) := by
    have := hholds.put_known first.2 List.mem_cons_self
    rwa [put_same hnodup (Nat.le_of_eq hlength) List.mem_cons_self] at this
  have hnew : bounded (n + 2) (e :: first :: history) = e :: (bounded (n + 2) (first :: history)).take (n + 1) :=
    bounded_new (fun hm => he ((hholds'.mem_keys _).2 hm)) e.2
  have hmem : first ∈ rest ++ [e] := by
    refine (h.same first).2 ?_
    rw [hnew, hreused, List.take_succ_cons]
    exact List.mem_cons_of_mem _ List.mem_cons_self
  rw [List.map_cons, List.nodup_cons] at hnodup
  rcases List.mem_append.1 hmem with hm | hm
  · exact hnodup.1 (List.mem_map_of_mem hm)
  · exact he (by rw [← List.mem_singleton.1 hm]; exact List.mem_cons_self)

end Recency
end Lib
