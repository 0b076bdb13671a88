import Anope.Bridge.Service.Clients

/-!
# How many clients a bridge has

`CountClients` counts the clients whose keys start as those of a bridge do, and `FindClient`
looks for one key.  The two agree on a bridge unless the keys of another one go on from its own.
-/

namespace Anope.BridgeServ

open Library.Run

variable {env : Env} {state next : State} {bridge : Bridge}

/-- What follows the start of the bridge's keys in the key of a client is the client's user. -/
def Unextended (env : Env) (state : State) (bridge : Bridge) : Prop :=
  ∀ front, keyPrefix env bridge = some front → ∀ key client,
    state.clients.lookup key = some client → front <+: key → front ++ client.userId = key

theorem Unextended.of_clients (unextended : Unextended env state bridge)
    (clients : ∀ key client', next.clients.lookup key = some client' →
      ∃ client, state.clients.lookup key = some client ∧ SameClient client client') :
    Unextended env next bridge := by
  intro front isFront key client found starts
  rcases clients key client found with ⟨old, foundOld, same⟩
  rw [same.userId]
  exact unextended front isFront key old foundOld starts

end Anope.BridgeServ
