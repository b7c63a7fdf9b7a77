import Mathlib.Logic.Relation
import Mathlib.Data.List.Basic

namespace GameLink.Foundation

structure Custody (τ : Type) where
  revision : ℕ
  token : Option τ

namespace Custody

variable {τ : Type}

structure Step (c : Custody τ) (issued : List τ) (c' : Custody τ) (issued' : List τ) : Prop where
  grows : issued ⊆ issued'
  moves : c' = c ∨ (c.revision < c'.revision ∧ ∀ t, c'.token = some t → c.token = some t ∨ (t ∉ issued ∧ t ∈ issued'))

def Stale (c : Custody τ) (issued : List τ) (t : τ) : Prop := t ∈ issued ∧ c.token ≠ some t

variable {c c' : Custody τ} {issued issued' : List τ}

theorem Step.stale (h : Step c issued c' issued') {t : τ} (hs : Stale c issued t) : Stale c' issued' t := by
  refine ⟨h.grows hs.1, ?_⟩
  rcases h.moves with rfl | ⟨-, hm⟩
  · exact hs.2
  intro ht
  rcases hm t ht with hold | ⟨hn, -⟩
  · exact hs.2 hold
  · exact hn hs.1

end Custody

end GameLink.Foundation
