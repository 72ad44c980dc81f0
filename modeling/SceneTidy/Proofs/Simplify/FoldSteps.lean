import SceneTidy.Proofs.Scene.Closed
import SceneTidy.Proofs.Simplify.Folding

/-!
# Folding step by step

Folding a scene is a run of small steps, each of which gives a node that is no switch children that
were children before (`FoldStep`).  What every step keeps is thus kept by folding a whole scene
(`folds_foldTransforms`).
-/

namespace SceneTidy.Scene

variable {s t : Scene} {x : NodeId}

/-- A node that is no switch gets children that were children before. -/
inductive FoldStep (s : Scene) : Scene → Prop
  | setChildren {x : NodeId} {ts : List NodeId} (hx : s.kind? x ≠ some .switch)
      (hts : ∀ y ∈ ts, ∃ z, y ∈ s.children z) : FoldStep s (s.setChildren x ts)

/-- A run of such steps. -/
def Folds : Scene → Scene → Prop := Relation.ReflTransGen FoldStep

theorem FoldStep.kind?_eq (h : FoldStep s t) (x : NodeId) : t.kind? x = s.kind? x := by
  cases h
  exact kind?_modify (f := (·.setChildren _)) (fun _ _ => rfl) x

theorem Folds.kind?_eq (h : Folds s t) (x : NodeId) : t.kind? x = s.kind? x := by
  induction h with
  | refl => rfl
  | tail _ hstep ih => exact (hstep.kind?_eq x).trans ih

/-- Working off a list is a run if each of its entries makes one. -/
theorem folds_foldl {α σ : Type} (scene : σ → Scene) {f : σ → α → σ} {l : List α} (st : σ)
    (hf : ∀ st', Folds (scene st) (scene st') → ∀ a ∈ l,
      Folds (scene st') (scene (f st' a))) :
    Folds (scene st) (scene (l.foldl f st)) := by
  have hall : ∀ st', Folds (scene st) (scene st') → Folds (scene st) (scene (l.foldl f st')) := by
    induction l with
    | nil => exact fun _ h => h
    | cons a l ih =>
      intro st' h
      exact ih (fun st' h b hb => hf st' h b (List.mem_cons_of_mem _ hb)) _
        (h.trans (hf st' h a (List.mem_cons_self ..)))
  exact hall st .refl

theorem folds_handOver {survivor other : NodeId} (hsurvivor : s.kind? survivor = some .transform)
    (hother : s.kind? other = some .transform) : Folds s (handOver survivor s other) := by
  have hone : FoldStep s (s.setChildren survivor (s.children survivor ++ s.children other)) := by
    refine .setChildren (by rw [hsurvivor]; decide) fun y hy => ?_
    exact (List.mem_append.1 hy).elim (fun hy => ⟨_, hy⟩) fun hy => ⟨_, hy⟩
  refine .tail (.single hone) (.setChildren ?_ fun y hy => absurd hy List.not_mem_nil)
  rw [hone.kind?_eq, hother]
  decide

/-- What may be folded is a transform. -/
theorem kind?_of_foldable? {references : List NodeId} {p : Placement}
    (h : s.foldable? references x = some p) : s.kind? x = some .transform := by
  have hkind := (foldable?_eq_some h).1
  rwa [isKind, beq_iff_eq] at hkind

theorem folds_foldChildren (references : List NodeId) {group : NodeId}
    (hgroup : s.kind? group ≠ some .switch) : Folds s (s.foldChildren references group).1 := by
  have hrows : Folds s ((s.foldRows references group).foldl
      (fun s row => row.others.foldl (handOver row.survivor) s) s) := by
    refine folds_foldl (fun u => u) s fun u hu row hrow =>
      folds_foldl (fun v => v) u fun v hv other ho => ?_
    obtain ⟨hsurvivor, hothers⟩ := (s.foldRows_spec references group).1 row hrow
    obtain ⟨q, hq, -⟩ := hothers other ho
    have hsame : Folds s v := hu.trans hv
    exact folds_handOver ((hsame.kind?_eq _).trans (kind?_of_foldable? hsurvivor))
      ((hsame.kind?_eq _).trans (kind?_of_foldable? hq))
  unfold foldChildren
  dsimp only
  split
  · exact hrows
  · refine hrows.tail (.setChildren ?_ fun y hy => ⟨group, (List.mem_filter.1 hy).1⟩)
    rwa [hrows.kind?_eq]

theorem kind?_ne_switch_of_mayFold (h : s.mayFold x = true) : s.kind? x ≠ some .switch := by
  rw [mayFold, Bool.and_eq_true, Bool.not_eq_true', isKind, beq_eq_false_iff_ne] at h
  exact h.2

theorem folds_visit (references : List NodeId) (bound : Nat) (st : FoldState) (id : NodeId) :
    Folds st.scene (FoldState.visit references bound st id).scene := by
  induction bound generalizing st id with
  | zero => exact .refl
  | succ bound ih =>
    rw [FoldState.visit]
    split
    · exact .refl
    · have hself : Folds st.scene (if st.scene.mayFold id then
          st.scene.foldChildren references id else (st.scene, 0)).1 := by
        split
        · next hmay => exact folds_foldChildren references (kind?_ne_switch_of_mayFold hmay)
        · exact .refl
      generalize (if st.scene.mayFold id then st.scene.foldChildren references id
        else (st.scene, 0)) = r at hself ⊢
      exact hself.trans (folds_foldl FoldState.scene ⟨r.1, id :: st.visited, st.removed + r.2⟩
        fun st _ a _ => ih st a)

/-- **Folding a scene is a run of steps.** -/
theorem folds_foldTransforms (s : Scene) (start : NodeId) :
    Folds s (s.foldTransforms start).scene :=
  folds_visit (s.references start) (s.size + 1) ⟨s, [], 0⟩ start

end SceneTidy.Scene
