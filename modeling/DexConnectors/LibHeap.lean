import Mathlib.Data.List.Nodup
import DexConnectors.LibJsonTree
/-!
# LibHeap — maps and slices that are held by reference

A value names its maps and slices by address; `treeAt` is what it holds.  `Owned` says that the cells of a value stand in a range
of addresses and the cells of each part in a range of its own, so a write to one part leaves the others as they are
(`Owned.frame`, `Chain.focus`).
-/
namespace Lib
namespace Heap

open Json

/-! ## Entries of a map -/

section Entries

variable {V : Type}

def lookup (entries : List (Bytes × V)) (key : Bytes) : Option V := entries.reverse.lookup key

def delete (entries : List (Bytes × V)) (key : Bytes) : List (Bytes × V) := entries.filter (fun e => e.1 != key)

def set (entries : List (Bytes × V)) (key : Bytes) (value : V) : List (Bytes × V) := delete entries key ++ [(key, value)]

def update (entries : List (Bytes × V)) (key : Bytes) (f : V → V) : List (Bytes × V) :=
  entries.map (fun e => if e.1 = key then (e.1, f e.2) else e)

theorem lookup_cons (name : Bytes) (value : V) (rest : List (Bytes × V)) (key : Bytes) :
    lookup ((name, value) :: rest) key = (lookup rest key).or (if key = name then some value else none) := by
  unfold lookup
  rw [List.reverse_cons, List.lookup_append, List.lookup_cons, List.lookup_nil]
  cases h : key == name with
  | true => rw [if_pos (beq_iff_eq.1 h)]
  | false => rw [if_neg (fun heq => by rw [heq, beq_self_eq_true] at h; cases h)]

theorem lookup_delete (entries : List (Bytes × V)) (key other : Bytes) :
    lookup (delete entries key) other = if other = key then none else lookup entries other := by
  induction entries with
  | nil => split <;> rfl
  | cons e rest ih =>
    obtain ⟨name, value⟩ := e
    unfold delete at ih ⊢
    by_cases hname : name = key
    · rw [List.filter_cons_of_neg (by simp [hname]), ih, lookup_cons]
      split
      · rfl
      next hother => rw [if_neg (fun h => hother (h.trans hname)), Option.or_none]
    · rw [List.filter_cons_of_pos (by simp [hname]), lookup_cons, lookup_cons, ih]
      split
      next hother => rw [hother, if_neg (fun h => hname h.symm)]; rfl
      · rfl

theorem lookup_append_singleton (entries : List (Bytes × V)) (key : Bytes) (value : V) (other : Bytes) :
    lookup (entries ++ [(key, value)]) other = if other = key then some value else lookup entries other := by
  unfold lookup
  rw [List.reverse_append, List.reverse_singleton, List.singleton_append, List.lookup_cons]
  cases h : other == key with
  | true => rw [if_pos (beq_iff_eq.1 h)]
  | false => rw [if_neg (fun heq => by rw [heq, beq_self_eq_true] at h; cases h)]

theorem lookup_set (entries : List (Bytes × V)) (key : Bytes) (value : V) (other : Bytes) :
    lookup (set entries key value) other = if other = key then some value else lookup entries other := by
  unfold set
  rw [lookup_append_singleton, lookup_delete]
  split <;> rfl

theorem lookup_map (f : V → V) (entries : List (Bytes × V)) (key : Bytes) :
    lookup (entries.map (fun e => (e.1, f e.2))) key = (lookup entries key).map f := by
  induction entries with
  | nil => rfl
  | cons e rest ih =>
    obtain ⟨name, value⟩ := e
    rw [List.map_cons, lookup_cons, lookup_cons, ih]
    cases lookup rest key with
    | some v => rfl
    | none => split <;> rfl

theorem lookup_update (entries : List (Bytes × V)) (key : Bytes) (f : V → V) (other : Bytes) :
    lookup (update entries key f) other = if other = key then (lookup entries other).map f else lookup entries other := by
  induction entries with
  | nil => split <;> rfl
  | cons e rest ih =>
    obtain ⟨name, value⟩ := e
    unfold update at ih ⊢
    rw [List.map_cons]
    by_cases hname : name = key
    · rw [if_pos hname, lookup_cons, ih, lookup_cons]
      subst hname
      by_cases hother : other = name
      · rw [if_pos hother, if_pos hother, if_pos hother, if_pos hother]
        cases lookup rest other <;> rfl
      · rw [if_neg hother, if_neg hother, if_neg hother, if_neg hother]
    · rw [if_neg hname, lookup_cons, ih, lookup_cons]
      by_cases hother : other = key
      · rw [if_pos hother, if_pos hother, if_neg (fun h => hname (h.symm.trans hother))]
        cases lookup rest other <;> rfl
      · rw [if_neg hother, if_neg hother]

theorem mem_names_of_lookup {entries : List (Bytes × V)} {key : Bytes} {value : V} (h : lookup entries key = some value) :
    key ∈ entries.map Prod.fst := by
  obtain ⟨before, after, hsplit, -⟩ := List.lookup_eq_some_iff.1 h
  have hmem : (key, value) ∈ entries := List.mem_reverse.1 (hsplit ▸ List.mem_append_right _ List.mem_cons_self)
  exact List.mem_map.2 ⟨_, hmem, rfl⟩

theorem update_names (entries : List (Bytes × V)) (key : Bytes) (f : V → V) :
    (update entries key f).map Prod.fst = entries.map Prod.fst := by
  unfold update
  rw [List.map_map]
  refine List.map_congr_left fun e _ => ?_
  show (if e.1 = key then (e.1, f e.2) else e).1 = e.1
  split <;> rfl

theorem update_of_lookup_none {entries : List (Bytes × V)} {key : Bytes} (h : lookup entries key = none) (f : V → V) :
    update entries key f = entries := by
  induction entries with
  | nil => rfl
  | cons e rest ih =>
    obtain ⟨name, value⟩ := e
    rw [lookup_cons, Option.or_eq_none_iff] at h
    have hname : name ≠ key := fun heq => by
      rw [if_pos heq.symm] at h
      cases h.2
    unfold update at ih ⊢
    rw [List.map_cons, ih h.1, if_neg hname]

theorem nodup_delete {entries : List (Bytes × V)} (h : (entries.map Prod.fst).Nodup) (key : Bytes) :
    ((delete entries key).map Prod.fst).Nodup :=
  h.sublist (List.filter_sublist.map _)

theorem not_mem_delete (entries : List (Bytes × V)) (key : Bytes) : key ∉ (delete entries key).map Prod.fst := by
  intro h
  obtain ⟨e, he, hkey⟩ := List.mem_map.1 h
  exact absurd hkey (bne_iff_ne.1 (List.mem_filter.1 he).2)

theorem nodup_set {entries : List (Bytes × V)} (h : (entries.map Prod.fst).Nodup) (key : Bytes) (value : V) :
    ((set entries key value).map Prod.fst).Nodup := by
  unfold set
  rw [List.map_append, List.nodup_append]
  refine ⟨nodup_delete h key, List.nodup_singleton _, fun a ha b hb heq => ?_⟩
  rw [heq, List.mem_singleton.1 hb] at ha
  exact not_mem_delete entries key ha

end Entries

/-! ## Values -/

inductive Value where
  | null
  | bool (b : Bool)
  | number (text : Bytes)
  | string (text : Bytes)
  | map (address : Nat)
  | slice (address : Nat)
  deriving DecidableEq

inductive Cell where
  | map (entries : List (Bytes × Value))
  | slice (items : List Value)

abbrev Cells := List Cell

/-- The value that needs no cell. -/
def scalar : Value → Option Tree
  | .null => some .null
  | .bool b => some (.bool b)
  | .number text => some (.number text)
  | .string text => some (.string text)
  | .map _ | .slice _ => none

def readEach (read : Value → Option Tree) : List (Bytes × Value) → Option Members
  | [] => some []
  | (name, value) :: rest =>
    match read value, readEach read rest with
    | some tree, some members => some ((name, tree) :: members)
    | _, _ => none

def unnamed {V : Type} (items : List V) : List (Bytes × V) := items.map (fun v => ([], v))

/-- **What a value holds**; the number bounds how deep it is. -/
def treeAt : Nat → Cells → Value → Option Tree
  | 0, _, value => scalar value
  | n + 1, cells, value =>
    match value with
    | .map address =>
      match cells[address]? with
      | some (.map entries) => (readEach (treeAt n cells) entries).map .object
      | _ => none
    | .slice address =>
      match cells[address]? with
      | some (.slice items) => (readEach (treeAt n cells) (unnamed items)).map (fun members => .array (members.map Prod.snd))
      | _ => none
    | value => scalar value

/-- How deep a value is at most. -/
def Within : Nat → Tree → Prop
  | 0, .object _ | 0, .array _ => False
  | n + 1, .object members => ∀ m ∈ members, Within n m.2
  | n + 1, .array items => ∀ item ∈ items, Within n item
  | _, _ => True

/-! ## Ownership -/

/-- The values of a list have consecutive ranges of addresses. -/
inductive Chain (R : Nat → Nat → Value → Tree → Prop) : Nat → Nat → List (Bytes × Value) → Members → Prop
  | nil {lo hi : Nat} (h : lo ≤ hi) : Chain R lo hi [] []
  | cons {lo mid hi : Nat} {name : Bytes} {value : Value} {tree : Tree} {entries : List (Bytes × Value)} {members : Members}
      (h : R lo mid value tree) (hle : lo ≤ mid) (rest : Chain R mid hi entries members) :
      Chain R lo hi ((name, value) :: entries) ((name, tree) :: members)

/-- A value whose cells stand from `lo` up to `hi`, its own behind those of its parts. -/
def Owned (cells : Cells) : Nat → Nat → Nat → Value → Tree → Prop
  | 0, lo, hi, value, tree => lo ≤ hi ∧ scalar value = some tree
  | n + 1, lo, hi, value, tree =>
    (lo ≤ hi ∧ scalar value = some tree) ∨
    (∃ address entries members, value = .map address ∧ tree = .object members ∧ cells[address]? = some (.map entries) ∧
      (entries.map Prod.fst).Nodup ∧ address < hi ∧ Chain (Owned cells n) lo address entries members) ∨
    ∃ address items trees, value = .slice address ∧ tree = .array trees ∧ cells[address]? = some (.slice items) ∧
      address < hi ∧ Chain (Owned cells n) lo address (unnamed items) (unnamed trees)

namespace Chain

variable {R R' : Nat → Nat → Value → Tree → Prop} {lo hi : Nat} {entries : List (Bytes × Value)} {members : Members}

theorem le (h : Chain R lo hi entries members) : lo ≤ hi := by
  induction h with
  | nil h => exact h
  | cons _ hle _ ih => exact Nat.le_trans hle ih

theorem imp (h : Chain R lo hi entries members)
    (himp : ∀ l r value tree, lo ≤ l → r ≤ hi → R l r value tree → R' l r value tree) : Chain R' lo hi entries members := by
  induction h with
  | nil h => exact .nil h
  | cons h hle rest ih =>
    exact .cons (himp _ _ _ _ (Nat.le_refl _) rest.le h) hle
      (ih (fun l r value tree hl hr => himp l r value tree (Nat.le_trans hle hl) hr))

theorem names (h : Chain R lo hi entries members) : members.map Prod.fst = entries.map Prod.fst := by
  induction h with
  | nil => rfl
  | cons _ _ _ ih => rw [List.map_cons, List.map_cons, ih]

theorem mono (hR : ∀ l l' r value tree, l' ≤ l → R l r value tree → R l' r value tree) {lo' hi' : Nat} (hlo : lo' ≤ lo)
    (hhi : hi ≤ hi') (h : Chain R lo hi entries members) : Chain R lo' hi' entries members := by
  induction h generalizing lo' with
  | nil h => exact .nil (Nat.le_trans hlo (Nat.le_trans h hhi))
  | cons h hle rest ih => exact .cons (hR _ _ _ _ _ hlo h) (Nat.le_trans hlo hle) (ih (Nat.le_refl _) hhi)

theorem deleted (hR : ∀ l l' r value tree, l' ≤ l → R l r value tree → R l' r value tree) (key : Bytes)
    (h : Chain R lo hi entries members) : Chain R lo hi (delete entries key) (delete members key) := by
  induction h with
  | nil h => exact .nil h
  | @cons lo mid hi name value tree entries members h hle rest ih =>
    unfold delete at ih ⊢
    by_cases hname : name = key
    · rw [List.filter_cons_of_neg (by simp [hname]), List.filter_cons_of_neg (by simp [hname])]
      exact ih.mono hR hle (Nat.le_refl _)
    · rw [List.filter_cons_of_pos (by simp [hname]), List.filter_cons_of_pos (by simp [hname])]
      exact .cons h hle ih

theorem append_singleton {name : Bytes} {value : Value} {tree : Tree} (hlast : ∀ l, l ≤ hi → R l hi value tree)
    (h : Chain R lo hi entries members) : Chain R lo hi (entries ++ [(name, value)]) (members ++ [(name, tree)]) := by
  induction h with
  | nil h => exact .cons (hlast _ h) h (.nil (Nat.le_refl _))
  | cons h hle _ ih => exact .cons h hle (ih hlast)

theorem set (hR : ∀ l l' r value tree, l' ≤ l → R l r value tree → R l' r value tree) {name : Bytes} {value : Value} {tree : Tree}
    (hlast : ∀ l, l ≤ hi → R l hi value tree) (h : Chain R lo hi entries members) :
    Chain R lo hi (Heap.set entries name value) (Heap.set members name tree) := (h.deleted hR name).append_singleton hlast

theorem lookup_cases (h : Chain R lo hi entries members) (key : Bytes) :
    (lookup entries key = none ∧ lookup members key = none) ∨
      ∃ value tree l r, lookup entries key = some value ∧ lookup members key = some tree ∧ R l r value tree := by
  induction h with
  | nil => exact .inl ⟨rfl, rfl⟩
  | @cons lo mid hi name value tree entries members h hle rest ih =>
    rw [lookup_cons, lookup_cons]
    rcases ih with ⟨hentries, hmembers⟩ | ⟨value', tree', l, r, hentries, hmembers, hR⟩
    · rw [hentries, hmembers, Option.none_or, Option.none_or]
      split
      · exact .inr ⟨value, tree, lo, mid, rfl, rfl, h⟩
      · exact .inl ⟨rfl, rfl⟩
    · rw [hentries, hmembers]
      exact .inr ⟨value', tree', l, r, rfl, rfl, hR⟩

theorem lookup_none (h : Chain R lo hi entries members) {key : Bytes} (hnone : lookup entries key = none) :
    lookup members key = none := by
  rcases h.lookup_cases key with h | ⟨_, _, _, _, hsome, _⟩
  · exact h.2
  · rw [hnone] at hsome
    cases hsome

/-- **One part of a list of values**, which can be changed within its range while the others stay. -/
theorem focus (h : Chain R lo hi entries members) (hnodup : (entries.map Prod.fst).Nodup) {key : Bytes} {value : Value}
    (hvalue : lookup entries key = some value) :
    ∃ l r tree, lo ≤ l ∧ r ≤ hi ∧ lookup members key = some tree ∧ R l r value tree ∧
      ∀ {R' : Nat → Nat → Value → Tree → Prop} {f : Tree → Tree}, R' l r value (f tree) →
        (∀ a b v t, (b ≤ l ∨ r ≤ a) → R a b v t → R' a b v t) → Chain R' lo hi entries (update members key f) := by
  induction h with
  | nil => cases hvalue
  | @cons lo mid hi name value' tree' entries members h hle rest ih =>
    rw [List.map_cons, List.nodup_cons] at hnodup
    rw [lookup_cons] at hvalue
    cases hrest : lookup entries key with
    | some found =>
      rw [hrest, Option.some_or] at hvalue
      cases hvalue
      have hname : name ≠ key := fun heq => hnodup.1 (heq ▸ mem_names_of_lookup hrest)
      obtain ⟨l, r, tree, hl, hr, htree, hR, hchange⟩ := ih hnodup.2 hrest
      refine ⟨l, r, tree, Nat.le_trans hle hl, hr, ?_, hR, fun hnew hothers => ?_⟩
      · rw [lookup_cons, htree, Option.some_or]
      · show Chain _ _ _ _ ((if name = key then _ else _) :: update members key _)
        rw [if_neg hname]
        exact .cons (hothers _ _ _ _ (.inl hl) h) hle (hchange hnew hothers)
    | none =>
      rw [hrest, Option.none_or] at hvalue
      split at hvalue
      next heq =>
        cases hvalue
        have hmembers := rest.lookup_none hrest
        refine ⟨lo, mid, tree', Nat.le_refl _, rest.le, ?_, h, fun {R' f} hnew hothers => ?_⟩
        · rw [lookup_cons, hmembers, if_pos heq]
          rfl
        · have hsame : update members key f = members := by
            unfold update
            refine (List.map_congr_left fun e he => if_neg fun hkey => ?_).trans (List.map_id _)
            exact hnodup.1 (heq ▸ rest.names ▸ List.mem_map.2 ⟨e, he, hkey⟩)
          show Chain _ _ _ _ ((if name = key then _ else _) :: update members key f)
          rw [if_pos heq.symm, hsame]
          exact .cons hnew hle (rest.imp (fun a b v t ha _ hR => hothers a b v t (.inr ha) hR))
      · cases hvalue

end Chain

namespace Owned

variable {cells cells' : Cells} {n lo hi : Nat} {value : Value} {tree : Tree}

theorem of_scalar (h : scalar value = some tree) (hle : lo ≤ hi) : Owned cells n lo hi value tree := by
  cases n with
  | zero => exact ⟨hle, h⟩
  | succ n => exact .inl ⟨hle, h⟩

theorem le (h : Owned cells n lo hi value tree) : lo ≤ hi := by
  cases n with
  | zero => exact h.1
  | succ n =>
    rcases h with h | ⟨address, entries, members, -, -, -, -, hlt, hchain⟩ | ⟨address, items, trees, -, -, -, hlt, hchain⟩
    · exact h.1
    · exact Nat.le_trans hchain.le hlt.le
    · exact Nat.le_trans hchain.le hlt.le

theorem mono {lo' hi' : Nat} (hlo : lo' ≤ lo) (hhi : hi ≤ hi') (h : Owned cells n lo hi value tree) :
    Owned cells n lo' hi' value tree := by
  induction n generalizing lo lo' hi hi' value tree with
  | zero => exact ⟨Nat.le_trans hlo (Nat.le_trans h.1 hhi), h.2⟩
  | succ n ih =>
    have hR : ∀ l l' r value tree, l' ≤ l → Owned cells n l r value tree → Owned cells n l' r value tree :=
      fun l l' r value tree hl h => ih hl (Nat.le_refl _) h
    rcases h with h | ⟨address, entries, members, hv, ht, hcell, hnodup, hlt, hchain⟩ | ⟨address, items, trees, hv, ht, hcell, hlt, hchain⟩
    · exact .inl ⟨Nat.le_trans hlo (Nat.le_trans h.1 hhi), h.2⟩
    · exact .inr (.inl ⟨address, entries, members, hv, ht, hcell, hnodup, Nat.lt_of_lt_of_le hlt hhi,
        hchain.mono hR hlo (Nat.le_refl _)⟩)
    · exact .inr (.inr ⟨address, items, trees, hv, ht, hcell, Nat.lt_of_lt_of_le hlt hhi, hchain.mono hR hlo (Nat.le_refl _)⟩)

theorem mono_left (l l' r : Nat) (value : Value) (tree : Tree) (hle : l' ≤ l) (h : Owned cells n l r value tree) :
    Owned cells n l' r value tree := h.mono hle (Nat.le_refl _)

/-- **What is owned depends on its range of cells alone.** -/
theorem frame (hsame : ∀ x, lo ≤ x → x < hi → cells'[x]? = cells[x]?) (h : Owned cells n lo hi value tree) :
    Owned cells' n lo hi value tree := by
  induction n generalizing lo hi value tree with
  | zero => exact h
  | succ n ih =>
    rcases h with h | ⟨address, entries, members, hv, ht, hcell, hnodup, hlt, hchain⟩ | ⟨address, items, trees, hv, ht, hcell, hlt, hchain⟩
    · exact .inl h
    · refine .inr (.inl ⟨address, entries, members, hv, ht, (hsame address hchain.le hlt).trans hcell, hnodup, hlt, ?_⟩)
      exact hchain.imp fun l r value tree hl hr h => ih (fun x hlx hxr => hsame x (by omega) (by omega)) h
    · refine .inr (.inr ⟨address, items, trees, hv, ht, (hsame address hchain.le hlt).trans hcell, hlt, ?_⟩)
      exact hchain.imp fun l r value tree hl hr h => ih (fun x hlx hxr => hsame x (by omega) (by omega)) h

end Owned

theorem Owned.up {cells : Cells} {k n lo hi : Nat} {value : Value} {tree : Tree} (hk : k ≤ n) (h : Owned cells k lo hi value tree) :
    Owned cells n lo hi value tree := by
  induction n generalizing k lo hi value tree with
  | zero =>
    cases Nat.le_zero.1 hk
    exact h
  | succ n ih =>
    cases k with
    | zero => exact .inl h
    | succ k =>
      have hup : ∀ l r value tree, Owned cells k l r value tree → Owned cells n l r value tree :=
        fun _ _ _ _ h => ih (Nat.le_of_succ_le_succ hk) h
      rcases h with h | ⟨address, entries, members, hv, ht, hcell, hnodup, hlt, hchain⟩ | ⟨address, items, trees, hv, ht, hcell, hlt, hchain⟩
      · exact .inl h
      · exact .inr (.inl ⟨address, entries, members, hv, ht, hcell, hnodup, hlt, hchain.imp fun l r v t _ _ h => hup l r v t h⟩)
      · exact .inr (.inr ⟨address, items, trees, hv, ht, hcell, hlt, hchain.imp fun l r v t _ _ h => hup l r v t h⟩)

theorem readEach_of_chain {read : Value → Option Tree} {R : Nat → Nat → Value → Tree → Prop} {lo hi : Nat}
    {entries : List (Bytes × Value)} {members : Members} (h : Chain R lo hi entries members)
    (hread : ∀ l r value tree, R l r value tree → read value = some tree) : readEach read entries = some members := by
  induction h with
  | nil => rfl
  | cons h _ _ ih =>
    rw [readEach, hread _ _ _ _ h, ih]

theorem mem_of_readEach {read : Value → Option Tree} : ∀ {entries : List (Bytes × Value)} {members : Members},
    readEach read entries = some members → ∀ m ∈ members, ∃ value, read value = some m.2
  | [], _, h, m, hm => by cases h; cases hm
  | (name, value) :: rest, members, h, m, hm => by
    rw [readEach] at h
    split at h
    next tree others htree hothers =>
      cases h
      rcases List.mem_cons.1 hm with rfl | hm
      · exact ⟨value, htree⟩
      · exact mem_of_readEach hothers m hm
    · cases h

theorem within_of_scalar {n : Nat} {value : Value} {tree : Tree} (h : scalar value = some tree) : Within n tree := by
  cases value with
  | map | slice => cases h
  | null | bool | number | string =>
    cases h
    cases n <;> trivial

theorem within_of_treeAt {n : Nat} {cells : Cells} {value : Value} {tree : Tree} (h : treeAt n cells value = some tree) :
    Within n tree := by
  induction n generalizing value tree with
  | zero => exact within_of_scalar h
  | succ n ih =>
    cases value with
    | null | bool | number | string =>
      cases h
      trivial
    | map address =>
      rw [treeAt] at h
      split at h
      · obtain ⟨members, hmembers, rfl⟩ := Option.map_eq_some_iff.1 h
        intro m hm
        obtain ⟨value, hvalue⟩ := mem_of_readEach hmembers m hm
        exact ih hvalue
      · cases h
    | slice address =>
      rw [treeAt] at h
      split at h
      · obtain ⟨members, hmembers, rfl⟩ := Option.map_eq_some_iff.1 h
        intro item hitem
        obtain ⟨m, hm, rfl⟩ := List.mem_map.1 hitem
        obtain ⟨value, hvalue⟩ := mem_of_readEach hmembers m hm
        exact ih hvalue
      · cases h

theorem Within.up {k n : Nat} {tree : Tree} (hk : k ≤ n) (h : Within k tree) : Within n tree := by
  induction n generalizing k tree with
  | zero =>
    cases Nat.le_zero.1 hk
    exact h
  | succ n ih =>
    cases tree with
    | null | bool | number | string => trivial
    | array items =>
      cases k with
      | zero => cases h
      | succ k => exact fun item hitem => ih (Nat.le_of_succ_le_succ hk) (h item hitem)
    | object members =>
      cases k with
      | zero => cases h
      | succ k => exact fun m hm => ih (Nat.le_of_succ_le_succ hk) (h m hm)

theorem names_of_readEach {read : Value → Option Tree} : ∀ {entries : List (Bytes × Value)} {members : Members},
    readEach read entries = some members → members.map Prod.fst = entries.map Prod.fst
  | [], _, h => by cases h; rfl
  | (name, value) :: rest, members, h => by
    rw [readEach] at h
    split at h
    next tree others _ hothers =>
      cases h
      rw [List.map_cons, List.map_cons, names_of_readEach hothers]
    · cases h

theorem unnamed_of_names {V : Type} : ∀ {entries : List (Bytes × V)}, (∀ name ∈ entries.map Prod.fst, name = []) →
    unnamed (entries.map Prod.snd) = entries
  | [], _ => rfl
  | (name, value) :: rest, h => by
    rw [List.map_cons, List.forall_mem_cons] at h
    have hname : name = [] := h.1
    show ([], value) :: unnamed (rest.map Prod.snd) = _
    rw [unnamed_of_names h.2, hname]

theorem names_unnamed {V : Type} (items : List V) : ∀ name ∈ (unnamed items).map Prod.fst, name = [] := by
  intro name h
  unfold unnamed at h
  rw [List.map_map] at h
  obtain ⟨_, -, hname⟩ := List.mem_map.1 h
  exact hname.symm

theorem unnamed_snd {V : Type} (items : List V) : (unnamed items).map Prod.snd = items := by
  unfold unnamed
  rw [List.map_map]
  exact List.map_id' _

theorem readEach_imp {read read' : Value → Option Tree} (h : ∀ {value tree}, read value = some tree → read' value = some tree) :
    ∀ {entries : List (Bytes × Value)} {members : Members}, readEach read entries = some members →
      readEach read' entries = some members
  | [], _, heq => heq
  | (name, value) :: rest, members, heq => by
    rw [readEach] at heq ⊢
    split at heq
    next tree others htree hothers =>
      rw [h htree, readEach_imp h hothers]
      exact heq
    · cases heq

/-- Cells that are added leave what a value holds. -/
theorem treeAt_append {n : Nat} {cells more : Cells} {value : Value} {tree : Tree} (h : treeAt n cells value = some tree) :
    treeAt n (cells ++ more) value = some tree := by
  have hcell : ∀ {address : Nat} {cell : Cell}, cells[address]? = some cell → (cells ++ more)[address]? = some cell := by
    intro address cell hcell
    rw [List.getElem?_append_left (List.getElem?_eq_some_iff.1 hcell).1]
    exact hcell
  induction n generalizing value tree with
  | zero => exact h
  | succ n ih =>
    cases value with
    | null | bool | number | string => exact h
    | map address =>
      rw [treeAt] at h ⊢
      split at h
      next entries hentries =>
        rw [hcell hentries]
        obtain ⟨members, hmembers, rfl⟩ := Option.map_eq_some_iff.1 h
        dsimp only
        rw [readEach_imp ih hmembers]
        rfl
      · cases h
    | slice address =>
      rw [treeAt] at h ⊢
      split at h
      next items hitems =>
        rw [hcell hitems]
        obtain ⟨members, hmembers, rfl⟩ := Option.map_eq_some_iff.1 h
        dsimp only
        rw [readEach_imp ih hmembers]
        rfl
      · cases h

/-- What is owned is what the value holds. -/
theorem Owned.treeAt {cells : Cells} {n lo hi : Nat} {value : Value} {tree : Tree} (h : Owned cells n lo hi value tree) :
    treeAt n cells value = some tree := by
  induction n generalizing lo hi value tree with
  | zero => exact h.2
  | succ n ih =>
    have hread : ∀ l r value tree, Owned cells n l r value tree → Heap.treeAt n cells value = some tree :=
      fun _ _ _ _ h => ih h
    rcases h with h | ⟨address, entries, members, rfl, rfl, hcell, hnodup, hlt, hchain⟩ | ⟨address, items, trees, rfl, rfl, hcell, hlt, hchain⟩
    · cases value with
      | map | slice => cases h.2
      | null | bool | number | string => exact h.2
    · rw [Heap.treeAt, hcell]
      dsimp only
      rw [readEach_of_chain hchain hread]
      rfl
    · rw [Heap.treeAt, hcell]
      dsimp only
      rw [readEach_of_chain hchain hread]
      exact congrArg (fun ts => some (Tree.array ts)) (unnamed_snd trees)

end Heap
end Lib
