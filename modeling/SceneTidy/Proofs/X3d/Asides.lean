import Mathlib.Data.List.Basic
import SceneTidy.X3d.Reader

/-!
# Asides of a document

Comments and processing instructions stand in a document beside its elements.  Below the scene
element the reader passes over them (`readChildren_thinned`), but before it the reader looks for the
tag of an aside, which has none.  Main statement: taking asides out of a document changes nothing of
what comes of reading it, unless an aside stands before the scene element (`readDocument_thinned`).
-/

namespace SceneTidy.X3d

/-- Items are what is left of others when asides are taken out, at any depth. -/
inductive Thinned : List Xml.Item → List Xml.Item → Prop
  | nil : Thinned [] []
  | drop {l m : List Xml.Item} (h : Thinned l m) : Thinned (.aside :: l) m
  | keep {l m : List Xml.Item} (h : Thinned l m) : Thinned (.aside :: l) (.aside :: m)
  | element {l m c d : List Xml.Item} (tag : String) (attributes : List (String × String))
      (below : Thinned c d) (h : Thinned l m) :
      Thinned (.element tag attributes c :: l) (.element tag attributes d :: m)

/-- An item is the element that holds a scene. -/
def IsSceneElement : Xml.Item → Prop
  | .element tag _ _ => Xml.localName tag = "Scene"
  | .aside => False

/-- An aside stands among the children of a document's element, with no scene element before it;
the document's element is none either. -/
def MeetsAside : Xml.Item → Prop
  | .element tag _ children => Xml.localName tag ≠ "Scene" ∧
      ∃ before rest, children = before ++ .aside :: rest ∧ ∀ i ∈ before, ¬IsSceneElement i
  | .aside => True

variable {skipped : List NodeKind} {l m : List Xml.Item}

/-- The reader passes over asides. -/
theorem readChildren_thinned (h : Thinned l m) (parent : NodeId) (kind : NodeKind) (tag : String) :
    Reader.readChildren skipped parent kind tag l =
      Reader.readChildren skipped parent kind tag m := by
  induction h generalizing parent kind tag with
  | nil => rfl
  | drop _ ih => rw [Reader.readChildren, ih]
  | keep _ ih => rw [Reader.readChildren, Reader.readChildren, ih]
  | element type attributes _ _ below ih =>
    simp only [Reader.readChildren, Reader.readNode, below, ih]

theorem findScene_of_aside {before rest : List Xml.Item} (h : ∀ i ∈ before, ¬IsSceneElement i) :
    findScene (before ++ .aside :: rest) = .error .asideBeforeScene := by
  induction before with
  | nil => rfl
  | cons i before ih =>
    obtain ⟨hi, hrest⟩ := List.forall_mem_cons.1 h
    cases i with
    | aside => rfl
    | element tag attributes children =>
      have htag : Xml.localName tag ≠ "Scene" := hi
      rw [List.cons_append, findScene, if_neg htag, ih hrest]

/-- Without an aside before it, the scene element is found after thinning if and only if it was
found before, and holds a thinned scene. -/
theorem findScene_thinned (h : Thinned l m)
    (hno : ¬∃ before rest, l = before ++ .aside :: rest ∧ ∀ i ∈ before, ¬IsSceneElement i) :
    (∃ c d, findScene l = .ok c ∧ findScene m = .ok d ∧ Thinned c d) ∨
      findScene l = findScene m := by
  induction h with
  | nil => exact .inr rfl
  | drop _ _ => exact absurd ⟨[], _, rfl, fun i hi => absurd hi List.not_mem_nil⟩ hno
  | keep _ _ => exact .inr rfl
  | @element l m c d tag attributes below _ _ ih =>
    rw [findScene, findScene]
    by_cases htag : Xml.localName tag = "Scene"
    · rw [if_pos htag, if_pos htag]
      exact .inl ⟨c, d, rfl, rfl, below⟩
    · rw [if_neg htag, if_neg htag]
      refine ih ?_
      rintro ⟨before, rest, rfl, hbefore⟩
      exact hno ⟨.element tag attributes c :: before, rest, rfl,
        List.forall_mem_cons.2 ⟨htag, hbefore⟩⟩

theorem readDocument_of_error {document : Xml.Item} {e : SceneError}
    (h : sceneItems document = .error e) :
    readDocument skipped document = ⟨.empty, [], .error e⟩ := by
  rw [readDocument, h]

/-- Documents whose scene elements hold the same but for asides are read alike. -/
theorem readDocument_congr {document other : Xml.Item} (hl : sceneItems document = .ok l)
    (hm : sceneItems other = .ok m) (h : Thinned l m) :
    readDocument skipped document = readDocument skipped other := by
  rw [readDocument, readDocument, hl, hm]
  simp only [readChildren_thinned h]

/-- **Asides do not matter, except before the scene element**: a document is read as the one that is
left when asides are taken out, with the same scene, notices and result; but if an aside stands
before the scene element, the reading fails there with nothing read. -/
theorem readDocument_thinned (skipped : List NodeKind) (tag : String)
    (attributes : List (String × String)) {l m : List Xml.Item} (h : Thinned l m) :
    (¬MeetsAside (.element tag attributes l) →
      readDocument skipped (.element tag attributes l) =
        readDocument skipped (.element tag attributes m)) ∧
    (MeetsAside (.element tag attributes l) →
      readDocument skipped (.element tag attributes l) =
        ⟨.empty, [], .error .asideBeforeScene⟩) := by
  constructor
  · intro hno
    by_cases htag : Xml.localName tag = "Scene"
    · exact readDocument_congr (by rw [sceneItems, if_pos htag]) (by rw [sceneItems, if_pos htag]) h
    · have hitems : ∀ items, sceneItems (.element tag attributes items) = findScene items :=
        fun items => by rw [sceneItems, if_neg htag]
      rcases findScene_thinned h fun haside => hno ⟨htag, haside⟩ with ⟨c, d, hc, hd, below⟩ | hsame
      · exact readDocument_congr ((hitems l).trans hc) ((hitems m).trans hd) below
      · rw [readDocument, readDocument, hitems, hitems, hsame]
  · rintro ⟨htag, before, rest, rfl, hbefore⟩
    refine readDocument_of_error ?_
    rw [sceneItems, if_neg htag, findScene_of_aside hbefore]

/-- The items of a document with asides inside, between and behind its nodes. -/
def annotated : List Xml.Item :=
  [.element "head" [] [.aside],
    .element "Scene" []
      [.aside, .element "Group" [("DEF", "G")] [.aside, .element "Shape" [] [], .aside],
        .element "Group" [("USE", "G")] [.aside]],
    .aside]

/-- The same items, with one of the asides left. -/
def hardlyAnnotated : List Xml.Item :=
  [.element "head" [] [],
    .element "Scene" []
      [.element "Group" [("DEF", "G")] [.element "Shape" [] [], .aside],
        .element "Group" [("USE", "G")] []]]

theorem thinned_annotated : Thinned annotated hardlyAnnotated :=
  .element _ _ (.drop .nil) <|
    .element _ _
      (.drop (.element _ _ (.drop (.element _ _ .nil (.keep .nil)))
        (.element _ _ (.drop .nil) .nil)))
      (.drop .nil)

theorem readDocument_thinned_annotated : Thinned annotated hardlyAnnotated ∧
    ¬MeetsAside (.element "X3D" [] annotated) ∧
    (readDocument usuallySkipped (.element "X3D" [] annotated)).result = .ok () ∧
    readDocument usuallySkipped (.element "X3D" [] annotated) =
      readDocument usuallySkipped (.element "X3D" [] hardlyAnnotated) := by
  have hno : ¬MeetsAside (.element "X3D" [] annotated) := by
    rintro ⟨-, before, rest, hitems, hbefore⟩
    match before with
    | [] => cases hitems
    | [_] => cases hitems
    | _ :: scene :: _ =>
      have hscene : scene = annotated[1] :=
        (List.cons.inj (List.cons.inj hitems).2).1.symm
      refine hbefore scene (by simp) ?_
      rw [hscene]
      exact rfl
  exact ⟨thinned_annotated, hno, rfl,
    (readDocument_thinned usuallySkipped "X3D" [] thinned_annotated).1 hno⟩

/-- An aside before the scene element makes the reading fail, though the document is read without
it. -/
theorem readDocument_ne_of_aside_first :
    Thinned [.aside, .element "Scene" [] []] [.element "Scene" [] []] ∧
    (readDocument usuallySkipped (.element "X3D" [] [.aside, .element "Scene" [] []])).result =
      .error .asideBeforeScene ∧
    (readDocument usuallySkipped (.element "X3D" [] [.element "Scene" [] []])).result = .ok () ∧
    readDocument usuallySkipped (.element "X3D" [] [.aside, .element "Scene" [] []]) ≠
      readDocument usuallySkipped (.element "X3D" [] [.element "Scene" [] []]) := by
  have hfails : (readDocument usuallySkipped
      (.element "X3D" [] [.aside, .element "Scene" [] []])).result = .error .asideBeforeScene := rfl
  have hreads : (readDocument usuallySkipped
      (.element "X3D" [] [.element "Scene" [] []])).result = .ok () := rfl
  refine ⟨.drop (.element _ _ .nil .nil), hfails, hreads, fun hsame => ?_⟩
  rw [hsame, hreads] at hfails
  cases hfails

end SceneTidy.X3d
