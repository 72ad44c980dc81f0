import Mathlib.Computability.StateTransition
import Mathlib.Data.List.Count
import Mathlib.Data.List.Nodup
import SceneTidy.Proofs.Scene.Reachable
import SceneTidy.Scene.Sharing

/-!
# Discovering nodes

A walk keeps a stack of nodes to visit, and looks only when it takes a node from it whether that
node was met; the discovery of shared nodes goes down by recursion, looks before it goes on, and
counts.  Here both are without bounds: the walk is a run of turns on its stack (`Walking.turn`), the
discovery a recursion that has no result if it goes deeper than some bound (`Scene.discover`).
While the discovery works off some nodes, a walk that has them on top of its stack meets the same
nodes in the same order, whatever lies below them (`Scene.discovers_arrive`).  Main statements: a
discovery arrives at the nodes of a walk, at each as often as it is referred to (`arrivals_eq`), and
both come to an end (`mem_eval_turn_and_discover`).
-/

namespace SceneTidy

/-- What gives more results gives more results along a list. -/
theorem foldlM_mono {α β : Type} {f g : α → β → Option α}
    (h : ∀ a b a', f a b = some a' → g a b = some a') {l : List β} {a a' : α}
    (hf : l.foldlM f a = some a') : l.foldlM g a = some a' := by
  induction l generalizing a with
  | nil => exact hf
  | cons b l ih =>
    rw [List.foldlM_cons, Option.bind_eq_bind, Option.bind_eq_some_iff] at hf
    obtain ⟨a₁, hb, hl⟩ := hf
    rw [List.foldlM_cons, h a b a₁ hb]
    exact ih hl

/-! ### Looking up nodes -/

theorem lookup_none_iff {β : Type} {l : List (NodeId × β)} {id : NodeId} :
    l.lookup id = none ↔ id ∉ l.map Prod.fst := by
  rw [List.lookup_eq_none_iff]
  constructor
  · rintro h hm
    obtain ⟨a, ha, rfl⟩ := List.mem_map.1 hm
    simpa using h a ha
  · intro h a ha
    have hne : id ≠ a.1 := fun he => h (he ▸ List.mem_map_of_mem ha)
    simpa using hne

theorem exists_lookup_of_mem {β : Type} {l : List (NodeId × β)} {id : NodeId}
    (h : id ∈ l.map Prod.fst) : ∃ b, l.lookup id = some b := by
  cases hl : l.lookup id with
  | none => exact absurd h (lookup_none_iff.1 hl)
  | some b => exact ⟨b, rfl⟩

theorem mem_of_lookup {α β : Type} [BEq α] [LawfulBEq α] {l : List (α × β)} {a : α} {b : β}
    (h : l.lookup a = some b) : (a, b) ∈ l := by
  obtain ⟨l₁, l₂, rfl, -⟩ := List.lookup_eq_some_iff.1 h
  exact List.mem_append_right _ (List.mem_cons_self ..)

namespace Arrivals

variable {as : Arrivals} {id : NodeId}

/-- How often a node was arrived at. -/
def times (as : Arrivals) (id : NodeId) : Nat := (as.lookup id).getD 0

/-- The nodes arrived at. -/
def met (as : Arrivals) : List NodeId := as.map Prod.fst

theorem contains_iff : as.contains id ↔ id ∈ as.met := by
  simp [contains, met]

theorem lookup_again (as : Arrivals) (id x : NodeId) :
    (as.again id).lookup x = (as.lookup x).map fun n => if x = id then n + 1 else n := by
  induction as with
  | nil => rfl
  | cons a as ih =>
    obtain ⟨a, n⟩ := a
    have hcons : again ((a, n) :: as) id = (a, if a = id then n + 1 else n) :: again as id := by
      by_cases h : a = id <;> simp [again, h]
    rw [hcons, List.lookup_cons, List.lookup_cons, ih]
    by_cases hx : x = a
    · subst hx
      rw [beq_self_eq_true]
      rfl
    · rw [beq_false_of_ne hx]

theorem times_again (h : id ∈ as.met) (x : NodeId) :
    (as.again id).times x = as.times x + [id].count x := by
  rw [times, times, lookup_again, List.count_singleton]
  by_cases hx : x = id
  · subst hx
    obtain ⟨n, hn⟩ := exists_lookup_of_mem h
    simp [hn]
  · have hne : ¬(id == x) = true := by simpa using fun h => hx h.symm
    simp [hx, hne]

theorem times_append_new (h : id ∉ as.met) (x : NodeId) :
    (times (as ++ [(id, 1)]) x) = as.times x + [id].count x := by
  rw [times, times, List.lookup_append, List.count_singleton]
  by_cases hx : x = id
  · subst hx
    simp [lookup_none_iff.2 h]
  · have hne : ¬(id == x) = true := by simpa using fun h => hx h.symm
    have hnone : List.lookup x [(id, 1)] = none := by simp [hx]
    rw [hnone, if_neg hne, Option.or_none, Nat.add_zero]

@[simp] theorem met_again (as : Arrivals) (id : NodeId) : (as.again id).met = as.met := by
  rw [met, met, again, List.map_map]
  refine List.map_congr_left fun a _ => ?_
  by_cases h : a.1 = id <;> simp [h]

@[simp] theorem met_append_new (as : Arrivals) (id : NodeId) :
    met (as ++ [(id, 1)]) = as.met ++ [id] := by
  simp [met]

/-- Arrivals with one entry for each node are known by their nodes and how often they were arrived
at. -/
theorem eq_map_times (h : as.met.Nodup) : as = as.met.map fun id => (id, as.times id) := by
  have htimes : ∀ a ∈ as, (a.1, as.times a.1) = a := by
    intro a ha
    obtain ⟨n, hn⟩ := exists_lookup_of_mem (List.mem_map_of_mem (f := Prod.fst) ha)
    rw [times, hn, Option.getD_some]
    exact List.inj_on_of_nodup_map h (mem_of_lookup hn) ha rfl
  rw [met, List.map_map]
  exact ((List.map_congr_left htimes).trans (List.map_id as)).symm

end Arrivals

/-! ### A walk in turns -/

/-- A walk under way: the nodes that it is still to visit, the next one last, and those it has met,
in that order. -/
structure Walking where
  stack : List NodeId
  met : List NodeId

namespace Walking

/-- One turn of a walk.  The next node is taken from the stack; if it was not met before, what it
refers to is put there backwards.  There is no turn when the stack is empty. -/
def turn (s : Scene) (w : Walking) : Option Walking :=
  match w.stack.getLast? with
  | none => none
  | some id =>
    if id ∈ w.met then some ⟨w.stack.dropLast, w.met⟩
    else
      match s.node? id with
      | none => some ⟨w.stack.dropLast, w.met⟩
      | some n => some ⟨w.stack.dropLast ++ n.refs.reverse, w.met ++ [id]⟩

variable {s : Scene} {id : NodeId} {stack met : List NodeId}

theorem turn_of_mem (h : id ∈ met) : turn s ⟨stack ++ [id], met⟩ = some ⟨stack, met⟩ := by
  simp [turn, h]

theorem turn_of_none (h : s.node? id = none) :
    turn s ⟨stack ++ [id], met⟩ = some ⟨stack, met⟩ := by
  simp [turn, h]

theorem turn_of_node {n : Node} (h : id ∉ met) (hn : s.node? id = some n) :
    turn s ⟨stack ++ [id], met⟩ = some ⟨stack ++ n.refs.reverse, met ++ [id]⟩ := by
  simp [turn, h, hn]

/-- The turns of a walk come to an empty stack, with what the walk lists behind what was met. -/
theorem reaches_walkFrom (s : Scene) (stack met : List NodeId) :
    StateTransition.Reaches (turn s) ⟨stack.reverse, met.reverse⟩
      ⟨[], met.reverse ++ s.walkFrom stack met⟩ := by
  fun_induction s.walkFrom stack met with
  | case1 met =>
    rw [List.append_nil]
    exact .refl
  | case2 met id rest hid ih =>
    refine ih.head ?_
    rw [List.reverse_cons]
    exact turn_of_mem (List.mem_reverse.2 hid)
  | case3 met id rest hid hn ih =>
    refine ih.head ?_
    rw [List.reverse_cons]
    exact turn_of_none hn
  | case4 met id rest hid n hn ih =>
    rw [List.reverse_append, List.reverse_cons, List.append_assoc, List.singleton_append] at ih
    refine ih.head ?_
    rw [List.reverse_cons]
    exact turn_of_node (mt List.mem_reverse.1 hid) hn

/-- **A walk in turns comes to an end**, and has met what a walk lists. -/
theorem mem_eval_turn (s : Scene) (start : NodeId) :
    ⟨[], s.walk start⟩ ∈ StateTransition.eval (turn s) ⟨[start], []⟩ :=
  StateTransition.mem_eval.2 ⟨reaches_walkFrom s [start] [], rfl⟩

end Walking

namespace Scene

variable {s : Scene} {id start : NodeId} {as as' as'' : Arrivals} {ids ids' : List NodeId}

/-! ### Discovery -/

/-- A discovery forgets no node. -/
theorem met_subset_arrive (bound : Nat) (as : Arrivals) (id : NodeId) :
    as.met ⊆ (s.arrive bound as id).met := by
  induction bound generalizing as id with
  | zero => exact fun _ h => h
  | succ bound ih =>
    rw [arrive]
    split
    · rw [Arrivals.met_again]
      exact fun _ h => h
    · split
      · exact fun _ h => h
      · next n _ =>
        have hnew : as.met ⊆ Arrivals.met (as ++ [(id, 1)]) := by
          rw [Arrivals.met_append_new]
          exact List.subset_append_left ..
        refine List.foldlRecOn (motive := fun as' : Arrivals => as.met ⊆ as'.met) n.refs
          (s.arrive bound) hnew fun as' h t _ => ?_
        exact fun _ hx => ih as' t (h hx)

theorem unmet_arrive_le (bound : Nat) (as : Arrivals) (id : NodeId) :
    s.unmet (s.arrive bound as id).met ≤ s.unmet as.met :=
  unmet_le_of_subset (met_subset_arrive bound as id)

/-- What a discovery does while it works off some nodes.  A walk that has them on top of its stack,
the first one last, comes to what lies below and has met the same nodes in the same order; each node
is counted once for each of its places among them and for each reference to it in a node that was
newly met. -/
structure Discovers (s : Scene) (as : Arrivals) (ids : List NodeId) (as' : Arrivals) : Prop where
  walked : ∀ below, StateTransition.Reaches (Walking.turn s) ⟨below ++ ids.reverse, as.met⟩
    ⟨below, as'.met⟩
  counted : ∀ x, (s.node? x).isSome → as'.times x + (as.met.flatMap s.refs).count x =
    as.times x + ids.count x + (as'.met.flatMap s.refs).count x

namespace Discovers

theorem nil (s : Scene) (as : Arrivals) : s.Discovers as [] as where
  walked below := by
    rw [List.reverse_nil, List.append_nil]
    exact .refl
  counted x _ := by rw [List.count_nil, Nat.add_zero]

theorem append (h : s.Discovers as ids as') (h' : s.Discovers as' ids' as'') :
    s.Discovers as (ids ++ ids') as'' where
  walked below := by
    rw [List.reverse_append, ← List.append_assoc]
    exact (h.walked _).trans (h'.walked below)
  counted x hx := by
    have hone := h.counted x hx
    have htwo := h'.counted x hx
    rw [List.count_append]
    omega

theorem again (h : id ∈ as.met) : s.Discovers as [id] (as.again id) where
  walked below := by
    rw [Arrivals.met_again]
    exact .single (Walking.turn_of_mem h)
  counted x _ := by rw [Arrivals.times_again h, Arrivals.met_again]

/-- Where no node is, nothing is counted. -/
theorem absent (hn : s.node? id = none) : s.Discovers as [id] as where
  walked below := .single (Walking.turn_of_none hn)
  counted x hx := by
    have hne : id ≠ x := by
      rintro rfl
      simp [hn] at hx
    rw [List.count_cons_of_ne hne, List.count_nil, Nat.add_zero]

/-- A new node is met before what it refers to. -/
theorem enter {n : Node} (hid : id ∉ as.met) (hn : s.node? id = some n)
    (h : s.Discovers (as ++ [(id, 1)]) n.refs as') : s.Discovers as [id] as' where
  walked below := by
    have hbelow := h.walked below
    rw [Arrivals.met_append_new] at hbelow
    exact hbelow.head (Walking.turn_of_node hid hn)
  counted x hx := by
    have hrefs := h.counted x hx
    rw [Arrivals.times_append_new hid, Arrivals.met_append_new, List.flatMap_append,
      List.flatMap_singleton, List.count_append, refs_of_node? hn] at hrefs
    omega

theorem foldl {bound : Nat}
    (step : ∀ as id, s.unmet as.met < bound → s.Discovers as [id] (s.arrive bound as id))
    (ids : List NodeId) (hb : s.unmet as.met < bound) :
    s.Discovers as ids (ids.foldl (s.arrive bound) as) := by
  induction ids generalizing as with
  | nil => exact nil s as
  | cons id ids ih =>
    exact (step as id hb).append (ih (Nat.lt_of_le_of_lt (unmet_arrive_le bound as id) hb))

end Discovers

/-- A walk follows the discovery. -/
theorem discovers_arrive (bound : Nat) (as : Arrivals) (id : NodeId) (hb : s.unmet as.met < bound) :
    s.Discovers as [id] (s.arrive bound as id) := by
  -- the induction is on the depth that is left, of which each new node takes one level
  induction bound generalizing as id with
  | zero => exact absurd hb (Nat.not_lt_zero _)
  | succ bound ih =>
    rw [arrive]
    by_cases hid : as.contains id
    · rw [if_pos hid]
      exact .again (Arrivals.contains_iff.1 hid)
    · have hmet : id ∉ as.met := fun hm => hid (Arrivals.contains_iff.2 hm)
      rw [if_neg hid]
      cases hn : s.node? id with
      | none => exact .absent hn
      | some n =>
        refine .enter hmet hn (.foldl ih n.refs ?_)
        rw [Arrivals.met_append_new]
        exact unmet_append_lt_of_lt_succ hn hmet hb

theorem discovers_arrivals (s : Scene) (start : NodeId) :
    s.Discovers [] [start] (s.arrivals start) :=
  discovers_arrive _ [] start (by simp [Arrivals.met])

/-- **A discovery meets the nodes in the order of a walk.** -/
theorem met_arrivals (s : Scene) (start : NodeId) : (s.arrivals start).met = s.walk start := by
  have hdiscovery : (⟨[], (s.arrivals start).met⟩ : Walking) ∈
      StateTransition.eval (Walking.turn s) ⟨[start], []⟩ :=
    StateTransition.mem_eval.2 ⟨(s.discovers_arrivals start).walked [], rfl⟩
  exact congrArg Walking.met (Part.mem_unique hdiscovery (Walking.mem_eval_turn s start))

/-- **A node is arrived at as often as it is referred to.** -/
theorem times_arrivals (hn : (s.node? id).isSome) :
    (s.arrivals start).times id = (s.references start).count id := by
  have hcounted := (s.discovers_arrivals start).counted id hn
  have hnone : Arrivals.times [] id + [start].count id = [start].count id := Nat.zero_add _
  rw [met_arrivals, hnone, ← count_references_eq] at hcounted
  exact hcounted

/-- A discovery arrives at the nodes of a walk, at each as often as it is referred to. -/
theorem arrivals_eq (s : Scene) (start : NodeId) : s.arrivals start =
    (s.walk start).map fun id => (id, (s.references start).count id) := by
  have hnodup : (s.arrivals start).met.Nodup := by
    rw [met_arrivals]
    exact s.nodup_walk start
  rw [Arrivals.eq_map_times hnodup, met_arrivals]
  exact List.map_congr_left fun id hid => by rw [times_arrivals (mem_walk_iff.1 hid).1]

/-! ### Discovery without bounds -/

/-- Arrive at a node and follow its references if it is new; there is no result if the references
lead deeper than the bound. -/
def discover (s : Scene) : Nat → Arrivals → NodeId → Option Arrivals
  | 0, _, _ => none
  | bound + 1, as, id =>
    if as.contains id then some (as.again id)
    else
      match s.node? id with
      | none => some as
      | some n => n.refs.foldlM (s.discover bound) (as ++ [(id, 1)])

/-- A result stays the same with a greater bound. -/
theorem discover_succ {bound : Nat} (h : s.discover bound as id = some as') :
    s.discover (bound + 1) as id = some as' := by
  induction bound generalizing as as' id with
  | zero => cases h
  | succ bound ih =>
    rw [discover] at h ⊢
    split at h
    · next hid => rwa [if_pos hid]
    · next hid =>
      rw [if_neg hid]
      cases hn : s.node? id with
      | none => rwa [hn] at h
      | some n =>
        rw [hn] at h
        exact foldlM_mono (fun _ _ _ => ih) h

theorem foldlM_discover {bound : Nat}
    (step : ∀ as id, s.unmet as.met < bound → s.discover bound as id = some (s.arrive bound as id))
    (ids : List NodeId) (hb : s.unmet as.met < bound) :
    ids.foldlM (s.discover bound) as = some (ids.foldl (s.arrive bound) as) := by
  induction ids generalizing as with
  | nil => rfl
  | cons id ids ih =>
    rw [List.foldlM_cons, step as id hb, List.foldl_cons]
    exact ih (Nat.lt_of_le_of_lt (unmet_arrive_le bound as id) hb)

/-- Discovery ends, since each level of the descent meets a new node. -/
theorem discover_eq (bound : Nat) (as : Arrivals) (id : NodeId) (hb : s.unmet as.met < bound) :
    s.discover bound as id = some (s.arrive bound as id) := by
  induction bound generalizing as id with
  | zero => exact absurd hb (Nat.not_lt_zero _)
  | succ bound ih =>
    rw [discover, arrive]
    by_cases hid : as.contains id
    · rw [if_pos hid, if_pos hid]
    · rw [if_neg hid, if_neg hid]
      cases hn : s.node? id with
      | none => rfl
      | some n =>
        have hmet : id ∉ as.met := fun hm => hid (Arrivals.contains_iff.2 hm)
        refine foldlM_discover ih n.refs ?_
        rw [Arrivals.met_append_new]
        exact unmet_append_lt_of_lt_succ hn hmet hb

/-- From nothing, a discovery goes no deeper than there are nodes. -/
theorem discover_nil {bound : Nat} (hb : s.size < bound) :
    s.discover bound [] start = some (s.arrivals start) := by
  induction bound, hb using Nat.le_induction with
  | base => exact discover_eq (s.size + 1) [] start (by simp [Arrivals.met])
  | succ bound _ ih => exact discover_succ ih

/-- **A walk and a discovery agree**, whatever nodes are shared and whatever references form cycles.
The walk comes to an end and has met each node that can be reached from its start, once; the
discovery goes no deeper than there are nodes, meets them in the same order, and leaves for each the
number of references to it. -/
theorem mem_eval_turn_and_discover (s : Scene) (start : NodeId) :
    (⟨[], s.walk start⟩ ∈ StateTransition.eval (Walking.turn s) ⟨[start], []⟩ ∧
      (s.walk start).Nodup ∧
      ∀ id, id ∈ s.walk start ↔ (s.node? id).isSome ∧ s.Reaches start id) ∧
    (∀ bound, s.size < bound → s.discover bound [] start = some (s.arrivals start)) ∧
    (s.arrivals start).met = s.walk start ∧
    ∀ id n, (id, n) ∈ s.arrivals start ↔
      (s.node? id).isSome ∧ id ∈ s.references start ∧ n = (s.references start).count id := by
  refine ⟨⟨Walking.mem_eval_turn s start, s.nodup_walk start, fun _ => mem_walk_iff⟩,
    fun _ => discover_nil, s.met_arrivals start, fun id n => ?_⟩
  rw [arrivals_eq, List.mem_map]
  constructor
  · rintro ⟨x, hx, he⟩
    obtain ⟨rfl, rfl⟩ := Prod.mk.inj he
    exact ⟨(mem_walk_iff.1 hx).1, mem_references_of_mem_walk hx, rfl⟩
  · rintro ⟨hn, hid, rfl⟩
    exact ⟨id, mem_walk_of_mem_references hid hn, rfl⟩

end Scene

end SceneTidy
