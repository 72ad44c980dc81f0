import SceneTidy.Proofs.Numbering
import SceneTidy.Proofs.Reading
import SceneTidy.Proofs.Simplify.Closed
import SceneTidy.Proofs.Simplify.Failing
import SceneTidy.Proofs.Vrml.RoundTrip

/-!
# Running a plan on a scene that was read

A scene that was read is closed, every stage of a plan keeps it so, and a closed scene can be
written.  Of the stages only two can fail, each for a reason that is there in the scene that it
starts from.  Main statement: `apply_isRead`.
-/

namespace SceneTidy

namespace Change

variable {α β γ : Type} {c : Change α} {f : Scene → α → Change β}

/-- Of three changes in a row it does not matter which two are taken together. -/
theorem andThen_assoc (c : Change α) (f : Scene → α → Change β) (g : Scene → β → Change γ) :
    (c.andThen f).andThen g = c.andThen fun s a => (f s a).andThen g := by
  cases hc : c.result with
  | error e => simp only [andThen, hc]
  | ok a =>
    cases hf : (f c.scene a).result with
    | error e => simp only [andThen, hc, hf]
    | ok b => simp only [andThen, hc, hf, List.append_assoc]

end Change

namespace Scene

variable {s t u : Scene} {plan : Plan} {numberOf : NodeId → Option Nat} {e : SceneError}

theorem Closed.writable (h : s.Closed) : s.Writable :=
  ⟨h.root, fun a b _ hab => h.listable a b hab.refers⟩

theorem Closed.whole (h : s.Closed) (start : NodeId) : s.Whole start :=
  fun a b _ hab => (h.listable a b hab).isSome

theorem Closed.root_lt (h : s.Closed) : s.root < s.size := by
  obtain ⟨n, hn, -⟩ := Option.map_eq_some_iff.1 h.root
  exact lt_size_of_node? hn

/-- A closed scene is written as a text that is read. -/
theorem Closed.write_spec (h : s.Closed) (indent : Nat) :
    (s.write indent).failure = none ∧
      (Scene.empty.readVrml (s.write indent).text).result = .ok () := by
  obtain ⟨hfailure, htext⟩ := Vrml.readText_write h.writable indent
  refine ⟨hfailure, ?_⟩
  rw [readVrml, readInto, take, htext]

/-! ### Stages -/

theorem stage_error {α : Type} {on : Bool} {stage : Stage} {run : Scene → Change α}
    (h : (s.stage on stage run).result = .error e) : on = true ∧ (run s).result = .error e := by
  unfold Scene.stage at h
  split at h
  · next hon =>
    refine ⟨hon, ?_⟩
    cases hr : (run s).result with
    | ok a => simp [hr, Except.map] at h
    | error e' => simpa [hr, Except.map] using h
  · cases h

/-- The first stage of a plan. -/
def afterDropping (s : Scene) (plan : Plan) (numberOf : NodeId → Option Nat) : Change Unit :=
  s.stage plan.dropJunk .prune fun s => s.dropJunk numberOf plan.rules s.root

/-- The stages of a plan that come before merging. -/
def beforeMerging (s : Scene) (plan : Plan) (numberOf : NodeId → Option Nat) : Change Unit :=
  (s.afterDropping plan numberOf).andThen fun s _ =>
    s.stage plan.foldTransforms .fold fun s => s.foldTransforms s.root

/-- The stages of a plan that come before cleaning. -/
def beforeCleaning (s : Scene) (plan : Plan) (numberOf : NodeId → Option Nat) : Change Unit :=
  (s.beforeMerging plan numberOf).andThen fun s _ =>
    s.stage plan.mergeShapes .unify fun s => s.mergeShapes plan.ignoreWinding s.root

theorem apply_eq (s : Scene) (plan : Plan) (numberOf : NodeId → Option Nat) :
    s.apply plan numberOf = (s.beforeCleaning plan numberOf).andThen fun s _ =>
      s.stage plan.clean .cleanup fun s => s.clean plan.values .empty := by
  rw [beforeCleaning, beforeMerging, Change.andThen_assoc, Change.andThen_assoc]
  rfl

theorem Closed.follows_beforeMerging (h : s.Closed) (plan : Plan)
    (numberOf : NodeId → Option Nat) : Follows s (s.beforeMerging plan numberOf).scene := by
  have hdrop : Follows s (s.afterDropping plan numberOf).scene :=
    .stage h (h.follows_dropJunk ..)
  exact hdrop.andThen fun _ _ => .stage hdrop.closed (hdrop.closed.follows_foldTransforms _)

theorem Closed.follows_apply (h : s.Closed) (plan : Plan) (numberOf : NodeId → Option Nat) :
    Follows s (s.apply plan numberOf).scene := by
  have hbefore := h.follows_beforeMerging plan numberOf
  have hmerge : Follows s (s.beforeCleaning plan numberOf).scene :=
    hbefore.andThen fun _ _ => .stage hbefore.closed (hbefore.closed.follows_mergeShapes ..)
  rw [apply_eq]
  exact hmerge.andThen fun _ _ => .stage hmerge.closed (hmerge.closed.follows_clean _)

/-- The stages before merging fail only for want of a group to keep. -/
theorem lacksGroup_of_beforeMerging_error
    (hnum : ∀ a b k, numberOf a = some k → numberOf b = some k → a = b)
    (h : (s.beforeMerging plan numberOf).result = .error e) : plan.dropJunk = true ∧
      ∃ number, s.LacksGroup numberOf plan.rules s.root number ∧
        e = .notReachableGroup number := by
  rcases cases_of_andThen_error h with hdrop | ⟨_, -, hfold⟩
  · obtain ⟨hon, herror⟩ := stage_error hdrop
    exact ⟨hon, lacksGroup_of_dropJunk_error hnum herror⟩
  · cases (stage_error hfold).2

/-- The numbers of the nodes of a scene, when all that is reachable from its root is numbered. -/
def numbers (s : Scene) : NodeId → Option Nat := (Numbering.empty.assign s s.root).number?

/-- A scene that can be passed on: all references lead to nodes that are there, none leads to the
root, and the scene is written, for any indent, as a text that is read. -/
structure Usable (s : Scene) : Prop where
  there : ∀ a b, s.Refers a b → (s.node? b).isSome
  root : ∀ a, ¬s.Refers a s.root
  written : ∀ indent, (s.write indent).failure = none
  read : ∀ indent, (Scene.empty.readVrml (s.write indent).text).result = .ok ()

theorem Closed.usable (h : s.Closed) : s.Usable where
  there a b hab := (h.listable a b hab).isSome
  root a hab := h.ne_root (h.listable a s.root hab) rfl
  written indent := (h.write_spec indent).1
  read indent := (h.write_spec indent).2

/-- **Running a plan on a scene that was read leaves a usable scene, or fails where it says**: for
want of the group to keep, or on a malformed shape of a group that is no switch, in the scene that
merging starts from. -/
theorem apply_isRead (hs : s.IsRead) (plan : Plan) :
    ((s.apply plan s.numbers).result = .ok () ∧ (s.apply plan s.numbers).scene.Usable) ∨
    (plan.dropJunk = true ∧ ∃ number, s.LacksGroup s.numbers plan.rules s.root number ∧
      (s.apply plan s.numbers).result = .error (.notReachableGroup number)) ∨
    (plan.mergeShapes = true ∧ ∃ cause,
      (s.beforeMerging plan s.numbers).scene.HasMalformedShape
        (s.beforeMerging plan s.numbers).scene.root cause ∧
      (s.apply plan s.numbers).result = .error (.malformed cause)) := by
  have hnum : ∀ a b k, s.numbers a = some k → s.numbers b = some k → a = b :=
    fun a b k => Numbering.number?_inj _
  have hbefore := hs.closed.follows_beforeMerging plan s.numbers
  cases hresult : (s.apply plan s.numbers).result with
  | ok _ => exact .inl ⟨rfl, (hs.closed.follows_apply plan s.numbers).closed.usable⟩
  | error e =>
    refine .inr ?_
    rw [apply_eq] at hresult
    rcases cases_of_andThen_error hresult with herror | ⟨_, -, hclean⟩
    · rcases cases_of_andThen_error herror with herror | ⟨_, -, hmerge⟩
      · obtain ⟨hon, number, hlacks, rfl⟩ := lacksGroup_of_beforeMerging_error hnum herror
        exact .inl ⟨hon, number, hlacks, rfl⟩
      · obtain ⟨hon, herror⟩ := stage_error hmerge
        obtain ⟨cause, rfl, hshape⟩ :=
          exists_of_mergeShapes_error (hbefore.closed.whole _) herror
        exact .inr ⟨hon, cause, hshape, rfl⟩
    · cases (stage_error hclean).2

/-- A text with a group that shows itself. -/
def loopText : String := "DEF Loop Group { children [ Shape { } USE Loop NULL ] }"

/-- A plan of all stages. -/
def fullPlan : Plan :=
  ⟨true, true, true, true, .standard, true, { CleanValues.standard with forceSolid := none }, 2,
    fun _ _ => nofun⟩

theorem apply_isRead_loop : (Scene.empty.readVrml loopText).result = .ok () ∧
    ∀ s, s = (Scene.empty.readVrml loopText).scene →
      ((s.apply fullPlan s.numbers).result = .ok () ∧ (s.apply fullPlan s.numbers).scene.Usable) ∨
      (fullPlan.dropJunk = true ∧ ∃ number, s.LacksGroup s.numbers fullPlan.rules s.root number ∧
        (s.apply fullPlan s.numbers).result = .error (.notReachableGroup number)) ∨
      (fullPlan.mergeShapes = true ∧ ∃ cause,
        (s.beforeMerging fullPlan s.numbers).scene.HasMalformedShape
          (s.beforeMerging fullPlan s.numbers).scene.root cause ∧
        (s.apply fullPlan s.numbers).result = .error (.malformed cause)) := by
  have hok : (Scene.empty.readVrml loopText).result = .ok () := by decide +kernel
  refine ⟨hok, ?_⟩
  rintro s rfl
  exact apply_isRead (.vrml loopText hok) fullPlan

end Scene

end SceneTidy
