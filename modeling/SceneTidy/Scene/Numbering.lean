import SceneTidy.Scene.Walk

/-!
# Numbered nodes

Nodes get numbers from zero upwards, in the order they are first seen, and keep them.  A numbering
is the list of its nodes: the number of a node is its place in the list.
-/

namespace SceneTidy

/-- Nodes in the order of their numbers, each once. -/
structure Numbering where
  order : List NodeId
  nodup : order.Nodup

namespace Numbering

/-- Nothing numbered. -/
def empty : Numbering := ⟨[], List.nodup_nil⟩

/-- How many nodes are numbered. -/
def size (nb : Numbering) : Nat := nb.order.length

/-- The number of a node. -/
def number? (nb : Numbering) (id : NodeId) : Option Nat := nb.order.findIdx? (· = id)

/-- Give a node the next number, unless it has one. -/
def insert (nb : Numbering) (id : NodeId) : Numbering :=
  if h : id ∈ nb.order then nb
  else ⟨nb.order ++ [id], by
    rw [List.nodup_append]
    exact ⟨nb.nodup, by simp, by grind⟩⟩

/-- A node that has a number adds nothing, and another comes last. -/
theorem order_insert (nb : Numbering) (id : NodeId) :
    (nb.insert id).order = if id ∈ nb.order then nb.order else nb.order ++ [id] := by
  unfold insert
  split <;> rfl

/-- The numbers already given stay at the start. -/
theorem order_isPrefix_insert (nb : Numbering) (id : NodeId) :
    nb.order <+: (nb.insert id).order := by
  rw [order_insert]
  split
  · exact List.prefix_rfl
  · exact List.prefix_append ..

/-- Number every node reachable from a start. -/
def assign (nb : Numbering) (s : Scene) (start : NodeId) : Numbering :=
  (s.walk start).foldl insert nb

end Numbering

end SceneTidy
