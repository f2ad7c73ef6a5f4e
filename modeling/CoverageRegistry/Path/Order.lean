import CoverageRegistry.Path.Basic

/-!
# The order of paths

The comparison of components, and with it that of paths, is a linear order. Two paths compare as
equal exactly when they name the same place, so a sorted set of paths is a set of places.
-/
namespace CoverageRegistry

namespace Component

theorem compare_eq_eq_iff (c d : Component) : compare c d = .eq ↔ c = d := by
  show compareLex (compareOn rank) (compareOn nameBytes) c d = .eq ↔ c = d
  rw [compareLex_eq_eq]
  simp only [compareOn, Std.compare_eq_iff_eq]
  constructor
  · rintro ⟨hrank, hname⟩
    cases c <;> cases d <;> simp_all [rank, nameBytes]
  · rintro rfl
    exact ⟨rfl, rfl⟩

instance : Std.TransOrd Component :=
  inferInstanceAs (Std.TransCmp (compareLex (compareOn rank) (compareOn nameBytes)))

instance : Std.LawfulEqOrd Component where
  eq_of_compare h := (compare_eq_eq_iff _ _).mp h

end Component

namespace Path

instance : Std.TransOrd Path :=
  inferInstanceAs (Std.TransCmp (compareOn components))

/-- Paths that compare as equal name the same place. -/
theorem compare_eq_eq_iff (p q : Path) : compare p q = .eq ↔ p.SameAs q := by
  show compare p.components q.components = .eq ↔ p.components = q.components
  exact Std.compare_eq_iff_eq

end Path

end CoverageRegistry
