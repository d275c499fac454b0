import CoinLedger.Random

/-!
# Shuffling

A shuffle only exchanges items, whatever is drawn: it puts them into some other order
(`shuffle_perm`).
-/

set_option autoImplicit false

namespace CoinLedger.RandomSource

variable {σ α : Type}

theorem swapIfInBounds_perm (items : Array α) (first second : Nat) :
    (items.swapIfInBounds first second).Perm items := by
  rw [Array.swapIfInBounds_def]
  split
  · split
    · exact Array.swap_perm _ _
    · exact Array.Perm.rfl
  · exact Array.Perm.rfl

theorem shuffleFrom_perm (source : RandomSource σ) (last : Nat) (items : Array α) (state : σ) :
    (source.shuffleFrom last items state).1.Perm items := by
  induction last generalizing items state with
  | zero => exact Array.Perm.rfl
  | succ last ih => exact (ih _ _).trans (swapIfInBounds_perm items _ _)

/-- **A shuffle keeps every item.** -/
theorem shuffle_perm (source : RandomSource σ) (items : List α) (state : σ) :
    (source.shuffle items state).1.Perm items :=
  (source.shuffleFrom_perm (items.length - 1) items.toArray state).toList

end CoinLedger.RandomSource
