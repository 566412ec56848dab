import Mathlib

/-! # Following a partial function

From every point at most one step leads on. A walk ends where no step leads on, or where the step leads back to the point
itself; otherwise it runs into a cycle or never ends. -/
namespace HotAI.Lib

variable {α : Type*} (next : α → Option α)

def Leads (a b : α) : Prop := next a = some b

abbrev Reaches : α → α → Prop := Relation.ReflTransGen (Leads next)

def EndsAt (a e : α) : Prop := Reaches next a e ∧ ∀ b, next e = some b → b = e

variable {next}

theorem eq_of_stuck {e x : α} (he : ∀ b, next e = some b → b = e) (h : Reaches next e x) : x = e := by
  induction h with
  | refl => rfl
  | tail _ hbc ih => exact he _ (ih ▸ hbc)

theorem rightUnique_leads : Relator.RightUnique (Leads next) := fun _ _ _ hv hw => Option.some.inj (hv.symm.trans hw)

theorem EndsAt.unique {a e e' : α} (h : EndsAt next a e) (h' : EndsAt next a e') : e' = e := by
  rcases Relation.ReflTransGen.total_of_right_unique rightUnique_leads h.1 h'.1 with hreach | hreach
  · exact eq_of_stuck h.2 hreach
  · exact (eq_of_stuck h'.2 hreach).symm

end HotAI.Lib
