import ApiAtlas.Graph.Basic
set_option autoImplicit false

/-!
# Identifiers: families

The four layers name their entities by texts that begin with the word of the layer and a colon.  No
text begins with two of these words, so entities of different layers have different identifiers
whatever follows the colon.
-/

namespace ApiAtlas

namespace NodeKind

/-- The text that the identifiers of a layer begin with. -/
def family : NodeKind → String
  | .screen => "screen:"
  | .operation => "gql:"
  | .resolver => "resolver:"
  | .rpc => "grpc:"

/-- The identifier begins like those of the layer. -/
def Names (kind : NodeKind) (id : String) : Prop := kind.family.toList <+: id.toList

/-- An identifier belongs to one layer at most: none of the four beginnings begins another. -/
theorem eq_of_names {k l : NodeKind} {id : String} (hk : k.Names id) (hl : l.Names id) :
    k = l := by
  have hor : k.family.toList <+: l.family.toList ∨ l.family.toList <+: k.family.toList :=
    List.prefix_or_prefix_of_prefix hk hl
  revert hor
  cases k <;> cases l <;> decide

theorem names_append (k : NodeKind) (rest : String) : k.Names (k.family ++ rest) := by
  unfold Names
  rw [String.toList_append]
  exact List.prefix_append _ _

end NodeKind

namespace Identifier

open NodeKind (names_append)

theorem screen_names (space : Option String) (route : String) :
    NodeKind.screen.Names (screen space route) := by
  cases space with
  | none => exact names_append .screen route
  | some s =>
      simp only [screen]
      split
      · exact names_append .screen route
      · rw [String.append_assoc, String.append_assoc]
        exact names_append .screen (s ++ (":" ++ route))

theorem operation_names (kind : OperationKind) (field : String) :
    NodeKind.operation.Names (operation kind field) := by
  unfold operation
  rw [String.append_assoc, String.append_assoc]
  exact names_append .operation (kind.name ++ ("." ++ field))

theorem resolver_names (owner method : String) :
    NodeKind.resolver.Names (resolver owner method) := by
  unfold resolver
  rw [String.append_assoc, String.append_assoc]
  exact names_append .resolver (owner ++ ("." ++ method))

theorem rpc_names (service method : String) : NodeKind.rpc.Names (rpc service method) := by
  unfold rpc
  rw [String.append_assoc, String.append_assoc]
  exact names_append .rpc (service ++ ("." ++ method))

end Identifier

end ApiAtlas
