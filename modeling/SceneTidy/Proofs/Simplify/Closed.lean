import SceneTidy.Plan
import SceneTidy.Proofs.Simplify.FoldSteps
import SceneTidy.Proofs.Simplify.Judging
import SceneTidy.Proofs.Simplify.Merging
import SceneTidy.Proofs.Simplify.Replacing

/-!
# Simplifications keep scenes closed

Each change that a simplification makes gives a field references that were there before, or that
lead to a new node of a kind with a place in files.  Main statement: whatever a plan does to a
closed scene is closed (`Closed.follows_dropJunk` and its siblings), whether it fails or not.
-/

namespace SceneTidy.Scene

variable {s t : Scene} {id x y : NodeId} {n : Node}

/-! ### Dropping junk -/

theorem Closed.follows_sound {c : JunkCase} {start : NodeId} {st : Judging} (h : s.Closed)
    (hs : c.Sound s start [] st) : Follows s st.scene :=
  h.follows_of_refs hs.root hs.kind fun x y hy => h.listable x y (hs.refers hy)

theorem Closed.follows_dropJunk (h : s.Closed) (numberOf : NodeId → Option Nat) (rules : JunkRules)
    (start : NodeId) : Follows s (s.dropJunk numberOf rules start).scene := by
  unfold dropJunk
  cases s.keptGroup numberOf rules start with
  | error e => exact .refl h
  | ok kept => exact h.follows_sound (judgeJunk_spec ⟨numberOf, rules, kept⟩ s start).1

/-! ### Folding -/

theorem Closed.follows_foldStep (h : s.Closed) (hstep : FoldStep s t) : Follows s t := by
  cases hstep with
  | setChildren _ hts =>
    refine h.follows_setChildren fun y hy => ?_
    obtain ⟨z, hz⟩ := hts y hy
    exact h.of_mem_children hz

theorem Closed.follows_folds (h : s.Closed) (hfolds : Folds s t) : Follows s t := by
  induction hfolds with
  | refl => exact .refl h
  | tail _ hstep ih => exact ih.trans (ih.closed.follows_foldStep hstep)

theorem Closed.follows_foldTransforms (h : s.Closed) (start : NodeId) :
    Follows s (s.foldTransforms start).scene := h.follows_folds (s.folds_foldTransforms start)

/-! ### Merging -/

theorem Closed.follows_pushShape (h : s.Closed) {appearance : Option NodeId}
    (ha : ∀ a ∈ appearance, s.Listable a) (faces : IndexedFaces) :
    Follows s (s.pushShape appearance faces) ∧
      (s.pushShape appearance faces).Listable (s.size + 2) := by
  have hcoord : Follows s (s.push (coordinateNode faces.points)) := by
    refine h.follows_push fun y hy => ?_
    have hno : (coordinateNode faces.points).refs = [] := rfl
    rw [hno] at hy
    exact absurd hy List.not_mem_nil
  have hset : Follows (s.push (coordinateNode faces.points)) ((s.push
      (coordinateNode faces.points)).push (mergedFaceSet s.size faces.indices)) := by
    refine hcoord.closed.follows_push fun y hy => ?_
    have hone : (mergedFaceSet s.size faces.indices).refs = [s.size] := rfl
    rw [hone] at hy
    obtain rfl := List.mem_singleton.1 hy
    exact s.listable_push rfl
  have hshape : Follows ((s.push (coordinateNode faces.points)).push
      (mergedFaceSet s.size faces.indices)) (s.pushShape appearance faces) := by
    refine hset.closed.follows_push fun y hy => ?_
    have hrefs : (shapeNode appearance (s.push (coordinateNode faces.points)).size).refs =
        appearance.toList ++ [(s.push (coordinateNode faces.points)).size] := rfl
    rcases List.mem_append.1 (hrefs ▸ hy) with hy | hy
    · exact hset.listable (hcoord.listable (ha y (Option.mem_toList.1 hy)))
    · obtain rfl := List.mem_singleton.1 hy
      exact listable_push _ rfl
  refine ⟨(hcoord.trans hset).trans hshape, ?_⟩
  have hlast := (s.pushShape_spec appearance faces).2.2.shape
  exact listable_of_node? hlast rfl

/-- One change after another, unless the first fails. -/
theorem Follows.andThen {α β : Type} {c : Change α} {f : Scene → α → Change β}
    (hc : Follows s c.scene)
    (hf : ∀ a, c.result = .ok a → Follows c.scene (f c.scene a).scene) :
    Follows s (c.andThen f).scene :=
  of_scene_andThen (P := Follows s) hc fun a ha => hc.trans (hf a ha)

theorem Closed.follows_mergeClass (h : s.Closed) (w : Bool) {c : ShapeClass}
    (hc : ∀ a ∈ c.appearance, s.Listable a) :
    Follows s (s.mergeClass w c).scene ∧
      ∀ id, (s.mergeClass w c).result = .ok id → (s.mergeClass w c).scene.Listable id := by
  cases hr : (s.mergeClass w c).result with
  | error e =>
    refine ⟨?_, fun id hid => by cases hid⟩
    unfold mergeClass at hr ⊢
    cases hfaces : s.allFaces c.shapes with
    | error cause => exact .refl h
    | ok faces => simp [hfaces] at hr
  | ok id =>
    obtain ⟨faces, -, rfl, hscene⟩ := exists_of_mergeClass_ok hr
    obtain ⟨hpush, hnew⟩ :=
      h.follows_pushShape hc (IndexedFaces.ofFaces (Face.distinct w faces))
    rw [hscene]
    refine ⟨hpush, fun id hid => ?_⟩
    obtain rfl := Except.ok.inj hid
    exact hnew

/-- Merging classes leaves a closed scene, with shapes for what was merged. -/
theorem Closed.follows_mergeClasses (h : s.Closed) (w : Bool) {classes : List ShapeClass}
    (hclasses : ∀ c ∈ classes, ∀ a ∈ c.appearance, s.Listable a) :
    Follows s (s.mergeClasses w classes).scene ∧
      ∀ merged, (s.mergeClasses w classes).result = .ok merged →
        ∀ p ∈ merged, (s.mergeClasses w classes).scene.Listable p.2 := by
  induction classes generalizing s with
  | nil =>
    refine ⟨.refl h, fun merged hm p hp => ?_⟩
    obtain rfl : [] = merged := Except.ok.inj hm
    exact absurd hp List.not_mem_nil
  | cons c classes ih =>
    obtain ⟨hc, hclasses⟩ := List.forall_mem_cons.1 hclasses
    obtain ⟨hone, hshape⟩ := h.follows_mergeClass w hc
    obtain ⟨hrest, hmerged⟩ := ih hone.closed fun c hc a ha => hone.listable (hclasses c hc a ha)
    rw [mergeClasses]
    refine ⟨hone.andThen fun _ _ => hrest.andThen fun _ _ => .refl hrest.closed,
      fun merged hm p hp => ?_⟩
    obtain ⟨shape, rest, hfirst, hlater, rfl, hlast⟩ := exists_of_andThen_pure_ok hm
    rw [hlast]
    rcases List.mem_cons.1 hp with rfl | hp
    · exact hrest.listable (hshape shape hfirst)
    · exact hmerged rest hlater p hp

/-- A group gets no children but its own and merged shapes. -/
theorem mem_of_mem_replaceShapes {appearanceOf : NodeId → Option NodeId} {shapes : List NodeId}
    {merged : List (Option NodeId × NodeId)} {placed : List (Option NodeId)} {ids : List NodeId}
    (h : y ∈ replaceShapes appearanceOf shapes merged placed ids) :
    y ∈ ids ∨ ∃ p ∈ merged, p.2 = y := by
  induction ids generalizing placed with
  | nil => exact absurd h List.not_mem_nil
  | cons id ids ih =>
    have htail : ∀ {placed}, y ∈ replaceShapes appearanceOf shapes merged placed ids →
        y ∈ id :: ids ∨ ∃ p ∈ merged, p.2 = y := fun h =>
      (ih h).imp_left (List.mem_cons_of_mem id)
    rw [replaceShapes] at h
    dsimp only at h
    split at h
    · split at h
      · exact htail h
      · rcases List.mem_append.1 h with h | h
        · exact .inr ⟨_, mem_of_lookup (Option.mem_toList.1 h), rfl⟩
        · exact htail h
    · rcases List.mem_cons.1 h with rfl | h
      · exact .inl (List.mem_cons_self ..)
      · exact htail h

theorem Closed.listable_appearanceOf (h : s.Closed) : ∀ a ∈ s.appearanceOf x, s.Listable a := by
  intro a ha
  obtain ⟨n, hn, ha⟩ := Option.bind_eq_some_iff.1 ha
  exact h.of_mem_refs hn (Node.mem_refs_of_target ha)

theorem Closed.follows_mergeGroup (h : s.Closed) (w : Bool) (group : NodeId) :
    Follows s (s.mergeGroup w group).scene := by
  have hclasses : ∀ c ∈ s.shapeClasses (s.children group), ∀ a ∈ c.appearance, s.Listable a := by
    intro c hc
    obtain ⟨x, -, hx⟩ := List.mem_map.1 (((s.classesFit_shapeClasses _).mem c.appearance).1
      (List.mem_map_of_mem hc))
    exact hx ▸ h.listable_appearanceOf
  obtain ⟨hmerge, hmerged⟩ := h.follows_mergeClasses w hclasses
  unfold mergeGroup
  dsimp only
  split
  · exact .refl h
  · split
    · exact .refl h
    · next merged hok =>
      refine hmerge.trans (hmerge.closed.follows_setChildren fun y hy => ?_)
      rcases mem_of_mem_replaceShapes hy with hy | ⟨p, hp, rfl⟩
      · exact hmerge.listable (h.of_mem_children hy)
      · exact hmerged merged hok p hp

theorem Closed.follows_mergeGroups (h : s.Closed) (w : Bool) (groups : List NodeId) :
    Follows s (s.mergeGroups w groups).scene := by
  induction groups generalizing s with
  | nil => exact .refl h
  | cons group groups ih =>
    have hone := h.follows_mergeGroup w group
    have hrest := ih hone.closed
    rw [mergeGroups]
    exact hone.andThen fun _ _ => hrest.andThen fun _ _ => .refl hrest.closed

theorem Closed.follows_mergeShapes (h : s.Closed) (w : Bool) (start : NodeId) :
    Follows s (s.mergeShapes w start).scene := by
  have hall := h.follows_mergeGroups w (s.mergeable start)
  rw [mergeShapes]
  exact hall.andThen fun _ _ => .refl hall.closed

/-! ### Cleaning -/

theorem Closed.listable_of_settles {pending : List NodeId} {values : CleanValues} {st : CleanState}
    (h : s.Closed) (hs : CleanState.Loose s values pending st)
    (hx : s.Listable x) (hxy : CleanState.Settles pending st x y) : s.Listable y := by
  rcases hxy with rfl | ⟨-, hr⟩
  · exact hx
  · rcases hs.offered x y hr with rfl | ⟨a, ha⟩ | hk
    · exact hx
    · exact h.listable a y ha
    · exact ⟨_, hk, rfl⟩

theorem Closed.follows_clean (h : s.Closed) (values : CleanValues) :
    Follows s (s.clean values .empty).scene := by
  obtain ⟨st, hscene, -, hs⟩ := s.loose_clean values
  rw [hscene]
  refine h.follows_of_refs hs.root hs.kind fun x y hy => ?_
  cases hr : st.replacement? x with
  | none =>
    rw [refs, hs.untouched x hr] at hy
    exact h.listable x y hy
  | some r =>
    obtain ⟨n, m, hn, hm, hswap⟩ := hs.done x (by simp [hr]) List.not_mem_nil
    rw [refs_of_node? hm] at hy
    obtain ⟨c, hc, hcy⟩ := hswap.refs y hy
    exact h.listable_of_settles hs (h.of_mem_refs hn (Node.mem_refs_prepared.1 hc)) hcy

/-! ### A whole plan -/

theorem scene_stage {α : Type} (s : Scene) (on : Bool) (stage : Stage) (run : Scene → Change α) :
    (s.stage on stage run).scene = if on then (run s).scene else s := by
  unfold Scene.stage
  split <;> rfl

theorem Follows.stage {α : Type} (h : s.Closed) {on : Bool} {stage : Stage} {run : Scene → Change α}
    (hrun : Follows s (run s).scene) : Follows s (s.stage on stage run).scene := by
  rw [scene_stage]
  split
  · exact hrun
  · exact .refl h

end SceneTidy.Scene
