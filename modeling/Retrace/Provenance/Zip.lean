import Retrace.Provenance.Table

/-!
# Zipping two trees

Where the two trees have the same shape, nodes in the same place are taken to be
the same node. The walk goes down from the two roots as long as the kinds agree
and pairs children by their position; what has no partner stays without a link.

Only the output side is marked as it is met, which is enough for the walk to end
on every pair of arenas.
-/

namespace Retrace

namespace Table

/-- Pairs the nodes on a stack, and their children, as long as the output node is
still `unmet` and the kinds agree. The last pair of children is visited first. -/
def zipFrom (source output : Tree) (unmet : List NodeId) (stack : List (NodeId × NodeId)) :
    List (NodeId × Link) :=
  match stack with
  | [] => []
  | (sourceId, outputId) :: rest =>
    match source.node? sourceId, output.node? outputId with
    | some s, some o =>
      if s.kind = o.kind then
        if outputId ∈ unmet then
          (outputId, Link.carried s.kind s.span sourceId) ::
            zipFrom source output (unmet.erase outputId)
              ((s.children.zip o.children).reverse ++ rest)
        else zipFrom source output unmet rest
      else zipFrom source output unmet rest
    | _, _ => zipFrom source output unmet rest
termination_by (unmet.length, stack.length)
decreasing_by
  · rename_i hMem
    have hLength := List.length_erase_of_mem hMem
    have hPos := List.length_pos_of_mem hMem
    exact Prod.Lex.left _ _ (by omega)
  · exact Prod.Lex.right _ (by simp)
  · exact Prod.Lex.right _ (by simp)
  · exact Prod.Lex.right _ (by simp)

/-- The links between nodes in the same place of two trees. -/
def zip (source output : Tree) : Table :=
  ofList (zipFrom source output output.ids [(source.root, output.root)])

end Table

end Retrace
