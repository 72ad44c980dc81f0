import SceneTidy.Proofs.Simplify.Merging
import SceneTidy.Proofs.Vrml.Meaning

/-!
# Where reading stops

A reading that fails keeps the statements before the one that it fails on.  Main statement: when a
reading ends, the scene has what the statements before the stop make, whatever the failing statement
had come to, and the nodes that were there are as they were but for the top level
(`take_readTokens_stopsAt`).
-/

namespace SceneTidy

open Vrml

namespace Scene

variable {s : Scene}

theorem untouched_pushAll (s : Scene) (ns : List Node) : Untouched s [] (s.pushAll ns) := by
  refine ⟨rfl, by simp, fun x n hn => ⟨n, ?_, rfl, rfl, fun _ _ => rfl⟩⟩
  rw [node?_pushAll, if_pos (lt_size_of_node? hn), hn]

theorem untouched_appendTop (s : Scene) (ts : List NodeId) :
    Untouched s [s.root] (s.appendTop ts) :=
  untouched_setChildren s s.root _

theorem children_appendTop (h : s.isGrouping s.root = true) (ts : List NodeId) :
    (s.appendTop ts).children s.root = s.children s.root ++ ts := by
  obtain ⟨n, hn, hk⟩ := exists_node_of_isGrouping h
  exact children_setChildren hn hk _

/-- **Reading tokens into a scene keeps the statements before the stop, and nothing else.**  The
tokens are statements up to a stop, and the reading succeeds exactly if the stop is their end.  In
any case the nodes that those statements list come to the end of the top level, the nodes that they
make are all that is added, and no other field of a node that was there has changed. -/
theorem take_readTokens_stopsAt (s : Scene) (hroot : s.isGrouping s.root = true)
    (ts : List Token) :
    (∃ done rest targets made, StopsAt s.size ts done rest targets made) ∧
    ∀ done rest targets made, StopsAt s.size ts done rest targets made →
      let c := s.take (readTokens ts)
      (c.result = .ok () ↔ rest = []) ∧
      c.scene = (s.pushAll (made.map Made.node)).appendTop targets ∧
      c.scene.children s.root = s.children s.root ++ targets ∧ Untouched s [s.root] c.scene := by
  refine ⟨exists_stopsAt s.size ts, fun done rest targets made h => ?_⟩
  obtain ⟨hfailure, hmeans⟩ := h.reading
  have hresult : (s.take (readTokens ts)).result = .ok () ↔ (readTokens ts).failure = none := by
    cases hf : (readTokens ts).failure <;> simp [take, hf]
  have hpush := s.untouched_pushAll (made.map Made.node)
  have hscene : (s.take (readTokens ts)).scene =
      (s.pushAll (made.map Made.node)).appendTop targets := hmeans.plant
  obtain ⟨n, hn, -⟩ := exists_node_of_isGrouping hroot
  have hsome : (s.node? s.root).isSome := Option.isSome_iff_exists.2 ⟨n, hn⟩
  have hroot' : (s.pushAll (made.map Made.node)).isGrouping s.root = true := by
    rw [isGrouping, hpush.kind?_eq hsome]
    exact hroot
  refine ⟨hresult.trans hfailure, hscene, ?_, ?_⟩
  · rw [hscene, ← hpush.children_eq List.not_mem_nil hsome]
    exact children_appendTop hroot' targets
  · rw [hscene]
    exact hpush.trans (untouched_appendTop _ targets)

/-- A group, and another one with a group in it that breaks off. -/
def brokenOff : List Token :=
  [⟨.word, "Group", 1⟩, ⟨.mark, "\x7b", 1⟩, ⟨.mark, "\x7d", 1⟩, ⟨.word, "Group", 2⟩,
    ⟨.mark, "\x7b", 2⟩, ⟨.word, "children", 3⟩, ⟨.word, "Group", 3⟩, ⟨.mark, "\x7b", 3⟩]

theorem take_brokenOff : Scene.empty.isGrouping Scene.empty.root = true ∧
    (Scene.empty.take (readTokens brokenOff)).result ≠ .ok () ∧
    (Scene.empty.take (readTokens brokenOff)).scene.children 0 = [1] := by
  have hgroup : IsStatements 1 [] ((brokenOff.take 3).map Token.sign) [1] [⟨none, .group, []⟩] :=
    .node (@IsNode.body _ _ none "Group" .group _ _ _ rfl .nil) .nil
  have hstuck : Stuck 1 [none] (brokenOff.drop 3) :=
    (stuck_iff (List.cons_ne_nil _ _) (Nat.le_refl 5) []).2 ⟨_, _, rfl⟩
  have hstop : StopsAt Scene.empty.size brokenOff (brokenOff.take 3) (brokenOff.drop 3) [1]
      [⟨none, .group, []⟩] := ⟨rfl, hgroup, hstuck⟩
  obtain ⟨hresult, -, hchildren, -⟩ :=
    (take_readTokens_stopsAt Scene.empty rfl brokenOff).2 _ _ _ _ hstop
  exact ⟨rfl, fun hok => List.cons_ne_nil _ _ (hresult.1 hok), hchildren⟩

end Scene

end SceneTidy
