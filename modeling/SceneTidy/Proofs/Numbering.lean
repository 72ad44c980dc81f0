import Mathlib.Data.List.Nodup
import Mathlib.Data.Set.Function
import Mathlib.Order.Interval.Set.Defs
import SceneTidy.Proofs.Scene.Reachable
import SceneTidy.Scene.Numbering
import SceneTidy.Vrml.Writing

/-!
# Numbers that are kept

A writer numbers nodes whenever it is told to, from any start, and writes scenes in between; from
one call to the next a scene may have changed in any way.  A node without a number gets as its
number how many have one (`Numbering.number?_insert`), so that the nodes that a call finds without
come behind those that have one, in the order of a walk (`Numbering.order_assign`); and a numbering
that goes on from another one keeps its numbers (`Numbering.number?_of_isPrefix`).  Main statement:
after any calls the numbers are those from zero upwards, each of one node, they stay, and the next
ones go to the nodes that have none (`Writer.bijOn_number?_numbersAfter`).
-/

namespace SceneTidy

namespace Numbering

variable {nb nb' : Numbering} {s : Scene} {id start a b : NodeId} {k : Nat}

/-- A number is a place in the order. -/
theorem number?_eq_some_iff : nb.number? id = some k ↔ nb.order[k]? = some id := by
  rw [number?, List.findIdx?_eq_some_iff_getElem, List.getElem?_eq_some_iff]
  constructor
  · rintro ⟨hk, hid, -⟩
    exact ⟨hk, of_decide_eq_true hid⟩
  · rintro ⟨hk, hid⟩
    refine ⟨hk, decide_eq_true hid, fun j hj he => ?_⟩
    have hsame : nb.order[j] = nb.order[k] := (of_decide_eq_true he).trans hid.symm
    exact hj.ne (nb.nodup.getElem_inj_iff.1 hsame)

theorem number?_eq_none_iff : nb.number? id = none ↔ id ∉ nb.order := by
  rw [number?, List.findIdx?_eq_none_iff]
  constructor
  · intro h hid
    exact of_decide_eq_false (h id hid) rfl
  · intro h x hx
    exact decide_eq_false fun he => h (he ▸ hx)

/-- A numbering gives no number twice. -/
theorem number?_inj (nb : Numbering) (ha : nb.number? a = some k) (hb : nb.number? b = some k) :
    a = b := by
  rw [number?_eq_some_iff] at ha hb
  exact Option.some.inj (ha.symm.trans hb)

/-- **The numbers are those from zero upwards**, each of one node. -/
theorem bijOn_number? (nb : Numbering) :
    Set.BijOn nb.number? {id | (nb.number? id).isSome} (some '' Set.Iio nb.size) := by
  refine ⟨fun id hid => ?_, fun a ha b _ hab => ?_, ?_⟩
  · obtain ⟨k, hk⟩ := Option.isSome_iff_exists.1 hid
    have hlt := (List.getElem?_eq_some_iff.1 (number?_eq_some_iff.1 hk)).1
    exact ⟨k, hlt, hk.symm⟩
  · obtain ⟨k, hk⟩ := Option.isSome_iff_exists.1 ha
    exact nb.number?_inj hk (hab.symm.trans hk)
  · rintro _ ⟨k, hk, rfl⟩
    have hnumber : nb.number? (nb.order.get ⟨k, hk⟩) = some k :=
      number?_eq_some_iff.2 (List.getElem?_eq_getElem hk)
    exact ⟨nb.order.get ⟨k, hk⟩, Option.isSome_iff_exists.2 ⟨k, hnumber⟩, hnumber⟩

/-- A numbering that goes on from another one keeps its numbers. -/
theorem number?_of_isPrefix (h : nb.order <+: nb'.order) (hk : nb.number? id = some k) :
    nb'.number? id = some k := by
  obtain ⟨rest, hrest⟩ := h
  rw [number?_eq_some_iff] at hk ⊢
  rw [← hrest, List.getElem?_append_left (List.getElem?_eq_some_iff.1 hk).1, hk]

/-- A node without a number gets as its number how many have one; else nothing changes. -/
theorem number?_insert (nb : Numbering) (id x : NodeId) : (nb.insert id).number? x =
    if x = id ∧ nb.number? id = none then some nb.size else nb.number? x := by
  rw [number?, order_insert]
  by_cases hid : id ∈ nb.order
  · rw [if_pos hid, if_neg fun h => number?_eq_none_iff.1 h.2 hid, number?]
  · have hnone : nb.number? id = none := number?_eq_none_iff.2 hid
    rw [if_neg hid, List.findIdx?_append, ← number?]
    by_cases hx : x = id
    · subst hx
      rw [if_pos ⟨rfl, hnone⟩, hnone]
      simp [size]
    · have hne : id ≠ x := fun he => hx he.symm
      rw [if_neg fun h => hx h.1]
      simp [hne]

/-! ### Numbering what is reachable -/

/-- The nodes reachable from a start that have no number, in the order of a walk. -/
def unnumbered (nb : Numbering) (s : Scene) (start : NodeId) : List NodeId :=
  (s.walk start).filter fun id => (nb.number? id).isNone

theorem mem_unnumbered_iff : id ∈ nb.unnumbered s start ↔
    (s.node? id).isSome ∧ s.Reaches start id ∧ nb.number? id = none := by
  rw [unnumbered, List.mem_filter, Scene.mem_walk_iff, Option.isNone_iff_eq_none, and_assoc]

theorem order_foldl_insert {ids : List NodeId} (h : ids.Nodup) :
    (ids.foldl insert nb).order = nb.order ++ ids.filter fun id => (nb.number? id).isNone := by
  induction ids generalizing nb with
  | nil => exact (List.append_nil _).symm
  | cons id ids ih =>
    obtain ⟨hid, hnodup⟩ := List.nodup_cons.1 h
    have hrest : ids.filter (fun a => ((nb.insert id).number? a).isNone) =
        ids.filter fun a => (nb.number? a).isNone :=
      List.filter_congr fun a ha => by
        rw [number?_insert, if_neg fun h => ne_of_mem_of_not_mem ha hid h.1]
    rw [List.foldl_cons, ih hnodup, hrest, order_insert]
    by_cases hmem : id ∈ nb.order
    · have hsome : ¬(nb.number? id).isNone = true := by
        rwa [Option.isNone_iff_eq_none, number?_eq_none_iff, not_not]
      rw [if_pos hmem, List.filter_cons, if_neg hsome]
    · have hnone : (nb.number? id).isNone = true := by
        rwa [Option.isNone_iff_eq_none, number?_eq_none_iff]
      rw [if_neg hmem, List.filter_cons, if_pos hnone, List.append_assoc, List.singleton_append]

theorem order_assign (nb : Numbering) (s : Scene) (start : NodeId) :
    (nb.assign s start).order = nb.order ++ nb.unnumbered s start :=
  order_foldl_insert (s.nodup_walk start)

/-- **Nodes that have a number keep it**, and those without get the next ones in the order of a
walk. -/
theorem number?_assign (nb : Numbering) (s : Scene) (start id : NodeId) :
    (nb.assign s start).number? id =
      (nb.number? id).or (((nb.unnumbered s start).findIdx? (· = id)).map (nb.size + ·)) := by
  have hplace : (fun k => nb.size + k) = fun k => k + nb.order.length :=
    funext fun k => Nat.add_comm ..
  rw [number?, number?, order_assign, List.findIdx?_append, hplace]

end Numbering

/-! ### Calls of a writer -/

/-- What a writer keeps: the numbers it has given, and what it wrote last. -/
structure Writer where
  numbers : Numbering
  written : Writing

namespace Writer

/-- A writer that was not called yet. -/
def new : Writer := ⟨.empty, .empty⟩

/-- A call of a writer, with the scene as it is by then. -/
inductive Call
  | number (s : Scene) (start : NodeId)
  | write (s : Scene) (indent : Nat)

/-- The writer after a call.  To write starts all over, but for the numbers. -/
def after (w : Writer) : Call → Writer
  | .number s start => { w with numbers := w.numbers.assign s start }
  | .write s indent => { w with written := s.write indent }

/-- The numbers that a new writer has given after some calls. -/
def numbersAfter (calls : List Call) : Numbering := (calls.foldl after new).numbers

theorem order_isPrefix_after (w : Writer) (call : Call) :
    w.numbers.order <+: (w.after call).numbers.order := by
  cases call with
  | number s start =>
    rw [after, Numbering.order_assign]
    exact List.prefix_append ..
  | write s indent => exact List.prefix_rfl

theorem order_isPrefix_foldl (w : Writer) (calls : List Call) :
    w.numbers.order <+: (calls.foldl after w).numbers.order := by
  induction calls generalizing w with
  | nil => exact List.prefix_rfl
  | cons call calls ih => exact (w.order_isPrefix_after call).trans (ih (w.after call))

/-- **Numbers are dense, each is of one node, and they stay.**  Whatever a writer was called for, on
scenes that may have changed in any way from call to call: its numbers are those from zero upwards,
no later call changes one, and to number the nodes reachable from a start gives those that have no
number the next ones, in the order of a walk. -/
theorem bijOn_number?_numbersAfter (calls : List Call) :
    Set.BijOn (numbersAfter calls).number? {id | ((numbersAfter calls).number? id).isSome}
      (some '' Set.Iio (numbersAfter calls).size) ∧
    (∀ more id k, (numbersAfter calls).number? id = some k →
      (numbersAfter (calls ++ more)).number? id = some k) ∧
    ∀ s start,
      (∀ id, id ∈ (numbersAfter calls).unnumbered s start ↔
        (s.node? id).isSome ∧ s.Reaches start id ∧ (numbersAfter calls).number? id = none) ∧
      ((numbersAfter calls).unnumbered s start).Sublist (s.walk start) ∧
      ∀ id, (numbersAfter (calls ++ [.number s start])).number? id =
        ((numbersAfter calls).number? id).or
          ((((numbersAfter calls).unnumbered s start).findIdx? (· = id)).map
            ((numbersAfter calls).size + ·)) := by
  refine ⟨(numbersAfter calls).bijOn_number?, fun more id k hk => ?_, fun s start =>
    ⟨fun _ => Numbering.mem_unnumbered_iff, List.filter_sublist, fun id => ?_⟩⟩
  · refine Numbering.number?_of_isPrefix ?_ hk
    rw [numbersAfter, numbersAfter, List.foldl_append]
    exact order_isPrefix_foldl _ more
  · have hlast : numbersAfter (calls ++ [.number s start]) =
        (numbersAfter calls).assign s start := by
      rw [numbersAfter, List.foldl_append]
      rfl
    rw [hlast, Numbering.number?_assign]

end Writer

end SceneTidy
