import CoinLedger.Address.Text

/-!
# Addresses and keys

A text either resolves to a key or is an invalid address, and no other error arises
(`resolve_cases`).
-/

set_option autoImplicit false

namespace CoinLedger

namespace Network

/-- The key that a text resolves to. -/
def keyOf? (network : Network) (text : String) : Option AddressKey :=
  (network.resolve text).toOption

theorem keyOf?_eq_some {network : Network} {text : String} {key : AddressKey}
    (resolved : network.resolve text = .ok key) : network.keyOf? text = some key := by
  rw [keyOf?, resolved]
  rfl

/-- A text that does not resolve is an invalid address. -/
theorem resolve_cases (network : Network) (text : String) :
    (∃ key, network.resolve text = .ok key ∧ network.keyOf? text = some key) ∨
      network.resolve text = .error (.invalidAddress text) ∧ network.keyOf? text = none := by
  rw [keyOf?, resolve]
  split
  · exact .inl ⟨_, rfl, rfl⟩
  · exact .inr ⟨rfl, rfl⟩

end Network

end CoinLedger
