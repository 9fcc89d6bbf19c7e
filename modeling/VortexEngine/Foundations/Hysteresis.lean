import Mathlib.Order.Lattice

namespace VortexEngine
namespace Foundations

/-!
# Hysteresis between two marks

A level rises and falls.  It has reached the high mark since it was last at or
below the low mark when some last part of its history stays above the low mark
and touches the high one.  A trigger computes the same from one level after
the other: it sets at the high mark, resets at the low mark, and keeps its
state between them.
-/

universe u

variable {Level : Type u} [LinearOrder Level]

/-- The history, oldest level first, has reached `high` since it was last at or
below `low`. -/
def ReachedSince (high low : Level) (history : List Level) : Prop :=
  Exists fun older => Exists fun recent => history = older ++ recent ∧
    (forall level, level ∈ recent -> low < level) ∧ Exists fun level => level ∈ recent ∧
      high ≤ level

variable {high low : Level}

theorem reachedSince_append (apart : low < high) (history : List Level) (level : Level) :
    ReachedSince high low (history ++ [level]) ↔
      high ≤ level ∨ (low < level ∧ ReachedSince high low history) := by
  constructor
  · rintro ⟨older, recent, split, above, peak, member, reached⟩
    rcases List.eq_nil_or_concat recent with rfl | ⟨earlier, last, rfl⟩
    · cases member
    · rw [List.concat_eq_append, ← List.append_assoc] at split
      rcases List.append_inj' split rfl with ⟨rfl, same⟩
      cases same
      rw [List.concat_eq_append] at above member
      rcases List.mem_append.mp member with before | now
      · refine Or.inr ⟨above level (by simp), older, earlier, rfl, ?_, peak, before, reached⟩
        exact fun other inside => above other (List.mem_append_left _ inside)
      · cases List.mem_singleton.mp now
        exact Or.inl reached
  · rintro (reached | ⟨above, older, recent, rfl, stays, peak, member, reached⟩)
    · refine ⟨history, [level], rfl, ?_, level, List.mem_singleton_self level, reached⟩
      intro other inside
      cases List.mem_singleton.mp inside
      exact apart.trans_le reached
    · refine ⟨older, recent ++ [level], by simp, ?_, peak, List.mem_append_left _ member, reached⟩
      intro other inside
      rcases List.mem_append.mp inside with before | now
      · exact stays other before
      · cases List.mem_singleton.mp now
        exact above

/-- The latest level decides whenever it is not between the marks. -/
theorem ReachedSince.above (apart : low < high) {history : List Level} {level : Level}
    (reached : ReachedSince high low (history ++ [level])) : low < level := by
  rcases (reachedSince_append apart history level).mp reached with peak | ⟨above, _⟩
  · exact apart.trans_le peak
  · exact above

end Foundations
end VortexEngine
