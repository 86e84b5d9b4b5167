import ModularNetServer.Token.TokenManager

/-!
# The token ledger

What a token manager is for: a table from the tokens that are in force to their deadlines.
-/

namespace ModularNetServer

open Cxx

/-- The deadline of each token that has been issued and not removed since. -/
abbrev TokenLedger := Table Str Int

namespace TokenLedger

/-- A token is in force at a point in time. -/
def InForce (ledger : TokenLedger) (now : Int) (token : Str) : Prop :=
  ∃ deadline, ledger token = some deadline ∧ now < deadline

/-- Refreshing sets the deadline of a token that is in force. -/
def refresh (ledger : TokenLedger) (now : Int) (token : Str) (deadline : Int) : TokenLedger :=
  match ledger token with
  | none => ledger
  | some old => if now < old then ledger.insert token deadline else ledger

end TokenLedger

end ModularNetServer
