/-!
# Who hears whom

Links are directed: that one node hears another does not mean that it is heard.  No node hears itself
(`carry_irrefl`).
-/
namespace ValueMesh

/-- Pairs of a sender and a listener; `none` if all nodes hear all others. -/
abbrev Links := Option (List (Nat × Nat))

def Links.carry (links : Links) (sender listener : Nat) : Bool :=
  sender != listener && match links with
    | none => true
    | some pairs => pairs.contains (sender, listener)

theorem Links.carry_irrefl (links : Links) (i : Nat) : links.carry i i = false := by
  simp [Links.carry]

end ValueMesh
