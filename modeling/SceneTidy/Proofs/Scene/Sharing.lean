import Mathlib.Data.List.Flatten
import SceneTidy.Proofs.Scene.Discovery

/-!
# Which nodes are shared

The shared nodes of a scene are those that are referred to more than once, in the order of a walk
(`shared_arrivals`).  Main statements: a node has a name if and only if it is referred to twice
(`exists_sharedName`, `two_le_of_sharedName`), and no two nodes have the same one
(`sharedNames_injective`).  A traversal that meets the nodes one by one follows what a node refers
to until it has met it (`count_later`).
-/

namespace SceneTidy

namespace Scene

variable {s : Scene} {id : NodeId} {met : List NodeId}

/-! ### References in nodes not met -/

/-- The references of the reachable nodes that a traversal has not met. -/
def later (s : Scene) (met : List NodeId) : List NodeId :=
  ((s.walk s.root).filter (!met.contains ·)).flatMap s.refs

theorem later_congr {met' : List NodeId} (h : ∀ a, a ∈ met ↔ a ∈ met') :
    s.later met = s.later met' := by
  have hp : (fun a => !met.contains a) = fun a => !met'.contains a := by
    funext a
    rw [Bool.eq_iff_iff]
    simp [h a]
  rw [later, later, hp]

theorem later_nil : s.later [] = (s.walk s.root).flatMap s.refs := by
  have hall : (s.walk s.root).filter (fun a => !([] : List NodeId).contains a) = s.walk s.root :=
    List.filter_eq_self.2 fun _ _ => rfl
  rw [later, hall]

/-- What a node refers to is followed later until the node is met. -/
theorem count_later (x : NodeId) (hid : id ∈ s.walk s.root) (hn : id ∉ met) :
    (s.later met).count x = (s.refs id).count x + (s.later (id :: met)).count x := by
  obtain ⟨l₁, l₂, hw⟩ := List.append_of_mem hid
  have hnd := s.nodup_walk s.root
  rw [hw, List.nodup_middle, List.nodup_cons] at hnd
  have hkeep : ∀ l : List NodeId, id ∉ l →
      l.filter (fun a => !(id :: met).contains a) = l.filter fun a => !met.contains a := by
    intro l hl
    refine List.filter_congr fun a ha => ?_
    have hne : a ≠ id := by
      rintro rfl
      exact hl ha
    simp [hne]
  have h₁ := hkeep l₁ fun h => hnd.1 (List.mem_append_left _ h)
  have h₂ := hkeep l₂ fun h => hnd.1 (List.mem_append_right _ h)
  rw [later, later, hw, List.filter_append, List.filter_append, h₁,
    List.filter_cons_of_pos (by simpa), List.filter_cons_of_neg (by simp), h₂]
  simp only [List.flatMap_append, List.flatMap_cons, List.count_append]
  omega

/-! ### Names -/

/-- The nodes arrived at more than once are those of a walk that are referred to more than once. -/
theorem shared_arrivals (s : Scene) (start : NodeId) : (s.arrivals start).shared =
    (s.walk start).filter (1 < (s.references start).count ·) := by
  rw [Arrivals.shared, arrivals_eq, List.filter_map, List.map_map]
  exact List.map_id _

theorem map_fst_sharedNames (s : Scene) :
    s.sharedNames.map Prod.fst = (s.arrivals s.root).shared := by
  rw [sharedNames, List.map_map]
  exact List.zipIdx_map_fst 0 _

/-- **A node that is referred to twice has a name.** -/
theorem exists_sharedName (hn : (s.node? id).isSome)
    (h : 2 ≤ (s.references s.root).count id) : ∃ name, s.sharedNames.lookup id = some name := by
  have hid : id ∈ s.references s.root := List.count_pos_iff.1 (Nat.zero_lt_of_lt h)
  refine exists_lookup_of_mem ?_
  rw [map_fst_sharedNames, shared_arrivals]
  exact List.mem_filter.2 ⟨mem_walk_of_mem_references hid hn, decide_eq_true h⟩

/-- **A node that has a name is referred to twice.** -/
theorem two_le_of_sharedName {name : String} (h : s.sharedNames.lookup id = some name) :
    2 ≤ (s.references s.root).count id := by
  have hmem : id ∈ s.sharedNames.map Prod.fst :=
    List.mem_map_of_mem (f := Prod.fst) (mem_of_lookup h)
  rw [map_fst_sharedNames, shared_arrivals] at hmem
  exact of_decide_eq_true (List.mem_filter.1 hmem).2

end Scene

theorem toList_sharedName (n : Nat) :
    (sharedName n).toList = ['r', 'e', 'f', '_'] ++ Nat.toDigits 10 n := by
  have hname : sharedName n = "ref_" ++ Nat.repr n := rfl
  rw [hname, String.toList_append, Nat.toList_repr]
  rfl

theorem sharedName_injective {m n : Nat} (h : sharedName m = sharedName n) : m = n := by
  have hd := congrArg String.toList h
  rw [toList_sharedName, toList_sharedName, List.append_cancel_left_eq] at hd
  rw [← Nat.ofDigitChars_ten_toDigits (n := m), hd, Nat.ofDigitChars_ten_toDigits]

namespace Scene

variable {s : Scene} {id : NodeId} {name : String}

theorem exists_eq_sharedName (h : s.sharedNames.lookup id = some name) :
    ∃ k, (s.arrivals s.root).shared[k]? = some id ∧ name = sharedName k := by
  obtain ⟨⟨a, k⟩, hk, he⟩ := List.mem_map.1 (mem_of_lookup h)
  obtain ⟨rfl, rfl⟩ := Prod.mk.inj he
  exact ⟨k, List.mem_zipIdx_iff_getElem?.1 hk, rfl⟩

/-- **No two nodes have the same name.** -/
theorem sharedNames_injective {a b : NodeId}
    (ha : s.sharedNames.lookup a = some name) (hb : s.sharedNames.lookup b = some name) :
    a = b := by
  obtain ⟨k, hk, hname⟩ := exists_eq_sharedName ha
  obtain ⟨l, hl, hname'⟩ := exists_eq_sharedName hb
  obtain rfl := sharedName_injective (hname.symm.trans hname')
  exact Option.some.inj (hk.symm.trans hl)

end Scene

end SceneTidy
