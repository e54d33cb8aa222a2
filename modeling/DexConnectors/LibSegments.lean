import Mathlib.Data.List.Basic
/-!
# LibSegments — texts joined by a separator

A list of segments without the separator is found again in their join: it is unambiguous, what stands between two separators is
an inner segment, and what ends it is its last segment.
-/
namespace Lib
namespace Segments

variable {α : Type} {sep : α}

/-- No segment has the separator in it. -/
def Plain (sep : α) (segments : List (List α)) : Prop := ∀ segment ∈ segments, sep ∉ segment

theorem join_append_cons {pre post : List (List α)} (segment : List α) (hpre : pre ≠ []) (hpost : post ≠ []) :
    [sep].intercalate (pre ++ segment :: post) =
      [sep].intercalate pre ++ (sep :: segment ++ [sep]) ++ [sep].intercalate post := by
  induction pre with
  | nil => exact absurd rfl hpre
  | cons first pre ih =>
    cases pre with
    | nil =>
      rw [List.singleton_append, List.intercalate_cons_cons, List.intercalate_cons_of_ne_nil hpost, List.intercalate_singleton]
      simp
    | cons second pre =>
      rw [List.cons_append, List.cons_append, List.intercalate_cons_cons, ← List.cons_append, ih (List.cons_ne_nil second pre),
        List.intercalate_cons_cons]
      simp

theorem join_concat {pre : List (List α)} (segment : List α) (hpre : pre ≠ []) :
    [sep].intercalate (pre ++ [segment]) = [sep].intercalate pre ++ sep :: segment := by
  induction pre with
  | nil => exact absurd rfl hpre
  | cons first pre ih =>
    cases pre with
    | nil =>
      rw [List.singleton_append, List.intercalate_cons_cons, List.intercalate_singleton, List.intercalate_singleton]
      simp
    | cons second pre =>
      rw [List.cons_append, List.cons_append, List.intercalate_cons_cons, ← List.cons_append, ih (List.cons_ne_nil second pre),
        List.intercalate_cons_cons]
      simp

/-- A segment with one before it and one after it. -/
theorem inner_iff {segments : List (List α)} {segment : List α} :
    (∃ pre post, segments = pre ++ segment :: post ∧ pre ≠ [] ∧ post ≠ []) ↔ segment ∈ segments.tail.dropLast := by
  constructor
  · rintro ⟨pre, post, rfl, hpre, hpost⟩
    cases pre with
    | nil => exact absurd rfl hpre
    | cons first pre =>
      rw [List.cons_append, List.tail_cons, List.dropLast_append_of_ne_nil (List.cons_ne_nil segment post),
        List.dropLast_cons_of_ne_nil hpost]
      exact List.mem_append_right pre List.mem_cons_self
  · intro hmem
    cases segments with
    | nil => cases hmem
    | cons first rest =>
      rw [List.tail_cons] at hmem
      have hne : rest ≠ [] := fun hnil => by
        rw [hnil] at hmem
        cases hmem
      obtain ⟨pre, post, hrest⟩ := List.append_of_mem hmem
      refine ⟨first :: pre, post ++ [rest.getLast hne], ?_, List.cons_ne_nil first pre, by simp⟩
      have hsplit := List.dropLast_append_getLast hne
      rw [hrest] at hsplit
      rw [List.append_assoc, List.cons_append] at hsplit
      exact (congrArg (first :: ·) hsplit).symm

variable [BEq α] [LawfulBEq α]

theorem join_injective {a b : List (List α)} (ha : Plain sep a) (hb : Plain sep b) (hane : a ≠ []) (hbne : b ≠ [])
    (h : [sep].intercalate a = [sep].intercalate b) : a = b := by
  rw [← List.splitOn_intercalate sep ha hane, h, List.splitOn_intercalate sep hb hbne]

/-- **What stands between two separators is an inner segment.** -/
theorem between_iff {segments : List (List α)} {segment : List α} (hplain : Plain sep segments) (hne : segments ≠ [])
    (hsegment : sep ∉ segment) :
    sep :: segment ++ [sep] <:+: [sep].intercalate segments ↔
      ∃ pre post, segments = pre ++ segment :: post ∧ pre ≠ [] ∧ post ≠ [] := by
  constructor
  · rintro ⟨front, back, h⟩
    refine ⟨front.splitOn sep, back.splitOn sep, ?_, List.splitOn_ne_nil sep front, List.splitOn_ne_nil sep back⟩
    rw [← List.splitOn_intercalate sep hplain hne, ← h]
    have hsplit : front ++ (sep :: segment ++ [sep]) ++ back = front ++ sep :: (segment ++ sep :: back) := by simp
    rw [hsplit, List.splitOn_append_cons_self, List.splitOn_append_cons_self_of_not_mem hsegment]
  · rintro ⟨pre, post, rfl, hpre, hpost⟩
    exact ⟨_, _, (join_append_cons segment hpre hpost).symm⟩

/-- **What ends the join after a separator is the last segment.** -/
theorem ends_iff {segments : List (List α)} {segment : List α} (hplain : Plain sep segments) (hne : segments ≠ [])
    (hsegment : sep ∉ segment) :
    sep :: segment <:+ [sep].intercalate segments ↔ ∃ pre, segments = pre ++ [segment] ∧ pre ≠ [] := by
  constructor
  · rintro ⟨front, h⟩
    refine ⟨front.splitOn sep, ?_, List.splitOn_ne_nil sep front⟩
    rw [← List.splitOn_intercalate sep hplain hne, ← h, List.splitOn_append_cons_self, List.splitOn_eq_singleton hsegment]
  · rintro ⟨pre, rfl, hpre⟩
    exact ⟨_, (join_concat segment hpre).symm⟩

end Segments
end Lib
