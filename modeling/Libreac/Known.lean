import Mathlib.Data.List.Perm.Basic
import Mathlib.Order.WithBot

/-!
# What is known of many keys

Facts about a key are joined to what is known of it; nothing is known of most keys. The order in which
facts are learned does not matter.
-/

namespace Known

variable {κ β : Type} [DecidableEq κ] [SemilatticeSup β]

/-- Join a fact to what is known of its key. -/
def learn (known : κ → WithBot β) (fact : κ × β) : κ → WithBot β :=
  Function.update known fact.1 (known fact.1 ⊔ fact.2)

theorem learn_apply (known : κ → WithBot β) (fact : κ × β) (k : κ) :
    learn known fact k = if k = fact.1 then known k ⊔ fact.2 else known k := by
  unfold learn
  rw [Function.update_apply]
  split_ifs with hk
  · rw [hk]
  · rfl

theorem learn_comm (known : κ → WithBot β) (a b : κ × β) :
    learn (learn known a) b = learn (learn known b) a := by
  funext k
  rw [learn_apply, learn_apply, learn_apply, learn_apply]
  split_ifs
  · exact sup_right_comm _ _ _
  · rfl
  · rfl
  · rfl

/-- Facts in another order leave the same known. -/
theorem foldl_learn_perm {facts facts' : List (κ × β)} (h : facts.Perm facts') (known : κ → WithBot β) :
    facts.foldl learn known = facts'.foldl learn known := by
  induction h generalizing known with
  | nil => rfl
  | cons a _ ih => exact ih (learn known a)
  | swap a b facts =>
    show facts.foldl learn (learn (learn known b) a) = facts.foldl learn (learn (learn known a) b)
    rw [learn_comm]
  | trans _ _ ih₁ ih₂ => exact (ih₁ known).trans (ih₂ known)

end Known
