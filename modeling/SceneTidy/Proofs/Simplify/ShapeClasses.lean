import Mathlib.Data.List.Nodup
import SceneTidy.Simplify.Merging

/-!
# Shapes by appearance

The face-set shapes among the children of a group are taken once each, in order (`faceShapes_eq`),
and put into one class for each appearance (`classesFit_shapeClasses`).  The children after merging
are given position by position: other nodes stay, and of the shapes of one appearance the first
gives its place to a new shape (`mergedChildren`, `replaceShapes_eq`).
-/

namespace SceneTidy

/-! ### Distinct nodes -/

theorem firsts_id_eq_eraseDups (seen ids : List NodeId) :
    firsts (· == ·) id seen ids = (ids.filter (!seen.contains ·)).eraseDups := by
  induction ids generalizing seen with
  | nil => rfl
  | cons a ids ih =>
    have hany : seen.any (id a == ·) = seen.contains a := by
      rw [List.contains_eq_any_beq]
      rfl
    rw [firsts, hany]
    cases ha : seen.contains a with
    | true =>
      rw [if_pos rfl, List.filter_cons_of_neg (by rw [ha]; exact Bool.false_ne_true), ih]
    | false =>
      have hfilter : (ids.filter (!seen.contains ·)).filter (fun b => !b == a) =
          ids.filter (!(id a :: seen).contains ·) := by
        rw [List.filter_filter]
        refine List.filter_congr fun b _ => ?_
        rw [List.contains_cons, Bool.not_or]
        rfl
      rw [if_neg Bool.false_ne_true, List.filter_cons_of_pos (by rw [ha]; rfl),
        List.eraseDups_cons, hfilter, ih]

theorem distinctNodes_eq_eraseDups (ids : List NodeId) : distinctNodes ids = ids.eraseDups := by
  rw [distinctNodes, firsts_id_eq_eraseDups]
  congr 1
  exact List.filter_eq_self.2 fun _ _ => rfl

/-- The distinct nodes of a list are found in the same way after a renaming. -/
theorem distinctNodes_map {f : NodeId → NodeId} {ids : List NodeId}
    (hf : ∀ a ∈ ids, ∀ b ∈ ids, f a = f b → a = b) :
    distinctNodes (ids.map f) = (distinctNodes ids).map f := by
  have hall : ∀ rest seen : List NodeId, rest ⊆ ids → seen ⊆ ids →
      firsts (· == ·) id (seen.map f) (rest.map f) = (firsts (· == ·) id seen rest).map f := by
    intro rest
    induction rest with
    | nil => exact fun _ _ _ => rfl
    | cons a rest ih =>
      intro seen hrest hseen
      obtain ⟨ha, hrest⟩ := List.cons_subset.1 hrest
      have hany : (seen.map f).any (id (f a) == ·) = seen.any (id a == ·) := by
        rw [List.any_map, Bool.eq_iff_iff, List.any_eq_true, List.any_eq_true]
        refine exists_congr fun b => and_congr_right fun hb => ?_
        rw [Function.comp_apply, beq_iff_eq, beq_iff_eq]
        exact ⟨hf a ha b (hseen hb), congrArg f⟩
      have hmore := ih (a :: seen) hrest (List.cons_subset.2 ⟨ha, hseen⟩)
      rw [List.map_cons] at hmore
      rw [List.map_cons, firsts, firsts, hany, ih seen hrest hseen]
      split
      · rfl
      · exact congrArg (f a :: ·) hmore
  exact hall ids [] (fun _ h => h) (List.nil_subset _)

/-- The face-set shapes among nodes, each once, in the order of their first occurrence. -/
theorem Scene.faceShapes_eq (s : Scene) (ids : List NodeId) :
    s.faceShapes ids = (ids.filter s.isFaceShape).eraseDups := distinctNodes_eq_eraseDups _

theorem Scene.mem_faceShapes_iff {s : Scene} {ids : List NodeId} {id : NodeId} :
    id ∈ s.faceShapes ids ↔ id ∈ ids ∧ s.isFaceShape id = true := by
  rw [faceShapes_eq, List.mem_eraseDups, List.mem_filter]

/-! ### Classes -/

/-- Classes of some shapes by a key: one for each key, with the shapes of that key in order. -/
structure ClassesFit (key : NodeId → Option NodeId) (l : List NodeId)
    (classes : List ShapeClass) : Prop where
  nodup : (classes.map ShapeClass.appearance).Nodup
  shapes : ∀ c ∈ classes, c.shapes = l.filter (key · = c.appearance)
  mem : ∀ a, a ∈ classes.map ShapeClass.appearance ↔ a ∈ l.map key

variable {key : NodeId → Option NodeId}

theorem map_appearance_addToClass (a : Option NodeId) (id : NodeId) (cs : List ShapeClass) :
    (addToClass a id cs).map ShapeClass.appearance =
      if a ∈ cs.map ShapeClass.appearance then cs.map ShapeClass.appearance
      else cs.map ShapeClass.appearance ++ [a] := by
  induction cs with
  | nil => rfl
  | cons c cs ih =>
    rw [addToClass]
    by_cases h : c.appearance = a
    · rw [if_pos h, if_pos (by rw [List.map_cons, h]; exact List.mem_cons_self ..)]
      rfl
    · have hmem : a ∈ (c :: cs).map ShapeClass.appearance ↔ a ∈ cs.map ShapeClass.appearance := by
        rw [List.map_cons, List.mem_cons]
        exact or_iff_right fun he => h he.symm
      rw [if_neg h, List.map_cons, ih]
      by_cases ha : a ∈ cs.map ShapeClass.appearance
      · rw [if_pos ha, if_pos (hmem.2 ha)]
        rfl
      · rw [if_neg ha, if_neg (mt hmem.1 ha)]
        rfl

/-- A class after a shape was added is an old one of another appearance, or holds the shape last. -/
theorem mem_addToClass {a : Option NodeId} {id : NodeId} {cs : List ShapeClass} {c : ShapeClass}
    (hnd : (cs.map ShapeClass.appearance).Nodup) (hc : c ∈ addToClass a id cs) :
    c ∈ cs ∧ c.appearance ≠ a ∨ c.appearance = a ∧
      ((∃ b ∈ cs, b.appearance = a ∧ c.shapes = b.shapes ++ [id]) ∨
        a ∉ cs.map ShapeClass.appearance ∧ c.shapes = [id]) := by
  induction cs with
  | nil =>
    obtain rfl := List.mem_singleton.1 hc
    exact .inr ⟨rfl, .inr ⟨List.not_mem_nil, rfl⟩⟩
  | cons b cs ih =>
    obtain ⟨hb, hnd⟩ := List.nodup_cons.1 hnd
    rw [addToClass] at hc
    split at hc
    · next h =>
      rcases List.mem_cons.1 hc with rfl | hc
      · exact .inr ⟨h, .inl ⟨b, List.mem_cons_self .., h, rfl⟩⟩
      · refine .inl ⟨List.mem_cons_of_mem _ hc, fun he => hb ?_⟩
        rw [h, ← he]
        exact List.mem_map_of_mem hc
    · next h =>
      rcases List.mem_cons.1 hc with rfl | hc
      · exact .inl ⟨List.mem_cons_self .., h⟩
      · rcases ih hnd hc with ⟨hm, hne⟩ | ⟨ha, hshapes⟩
        · exact .inl ⟨List.mem_cons_of_mem _ hm, hne⟩
        · refine .inr ⟨ha, ?_⟩
          rcases hshapes with ⟨d, hd, hda, hshapes⟩ | ⟨hnot, hshapes⟩
          · exact .inl ⟨d, List.mem_cons_of_mem _ hd, hda, hshapes⟩
          · refine .inr ⟨fun hm => ?_, hshapes⟩
            rcases List.mem_cons.1 hm with he | hm
            · exact h he.symm
            · exact hnot hm

theorem ClassesFit.add {l : List NodeId} {cs : List ShapeClass} (h : ClassesFit key l cs)
    (id : NodeId) : ClassesFit key (l ++ [id]) (addToClass (key id) id cs) := by
  refine ⟨?_, fun c hc => ?_, fun a => ?_⟩
  · rw [map_appearance_addToClass]
    split
    · exact h.nodup
    · next hnew => exact List.nodup_append.2 ⟨h.nodup, List.nodup_singleton _, fun a ha b hb he =>
        hnew (List.mem_singleton.1 hb ▸ he ▸ ha)⟩
  · rw [List.filter_append]
    rcases mem_addToClass h.nodup hc with ⟨hm, hne⟩ | ⟨ha, hshapes⟩
    · rw [List.filter_cons_of_neg (by simpa using hne.symm), List.filter_nil, List.append_nil]
      exact h.shapes c hm
    · rw [List.filter_cons_of_pos (by simpa using ha.symm), List.filter_nil]
      rcases hshapes with ⟨b, hb, hba, hshapes⟩ | ⟨hnot, hshapes⟩
      · rw [hshapes, h.shapes b hb, hba, ha]
      · have hnil : l.filter (key · = c.appearance) = [] := by
          refine List.filter_eq_nil_iff.2 fun x hx he => hnot ((h.mem _).2 ?_)
          rw [← ha, ← of_decide_eq_true he]
          exact List.mem_map_of_mem hx
        rw [hshapes, hnil, List.nil_append]
  · rw [map_appearance_addToClass, List.map_append, List.mem_append, ← h.mem]
    split
    · next hm =>
      refine ⟨.inl, fun ha => ?_⟩
      rcases ha with ha | ha
      · exact ha
      · obtain rfl := List.mem_singleton.1 ha
        exact hm
    · exact List.mem_append

theorem classesFit_foldl (key : NodeId → Option NodeId) (l : List NodeId) :
    ClassesFit key l (l.foldl (fun cs id => addToClass (key id) id cs) []) := by
  have hall : ∀ (rest done : List NodeId) (cs : List ShapeClass), ClassesFit key done cs →
      ClassesFit key (done ++ rest) (rest.foldl (fun cs id => addToClass (key id) id cs) cs) := by
    intro rest
    induction rest with
    | nil =>
      intro done cs h
      rwa [List.append_nil]
    | cons id rest ih =>
      intro done cs h
      have hnext := ih (done ++ [id]) _ (h.add id)
      rwa [List.append_assoc, List.singleton_append] at hnext
  exact hall l [] [] ⟨List.nodup_nil, fun c hc => absurd hc List.not_mem_nil, fun _ => .rfl⟩

theorem Scene.classesFit_shapeClasses (s : Scene) (ids : List NodeId) :
    ClassesFit s.appearanceOf (s.faceShapes ids) (s.shapeClasses ids) := classesFit_foldl _ _

/-- The classes of nodes hold those of them that are face-set shapes. -/
theorem Scene.mem_of_mem_shapeClasses {s : Scene} {ids : List NodeId} {c : ShapeClass} {id : NodeId}
    (hc : c ∈ s.shapeClasses ids) (hid : id ∈ c.shapes) : id ∈ ids ∧ s.isFaceShape id = true := by
  rw [(s.classesFit_shapeClasses ids).shapes c hc] at hid
  exact mem_faceShapes_iff.1 (List.mem_filter.1 hid).1

/-! ### Children after merging -/

namespace Scene

/-- What comes of a child, by the children before it: a shape that shows a face set goes, but the
first of an appearance gives its place to a new shape; any other node stays. -/
def mergedAt (s : Scene) (new : Option NodeId → NodeId) (before : List NodeId) (id : NodeId) :
    List NodeId :=
  if s.isFaceShape id then
    if ∃ b ∈ before, s.isFaceShape b = true ∧ s.appearanceOf b = s.appearanceOf id then []
    else [new (s.appearanceOf id)]
  else [id]

/-- The children after merging, position by position. -/
def mergedChildren (s : Scene) (new : Option NodeId → NodeId) (ids : List NodeId) : List NodeId :=
  ids.zipIdx.flatMap fun p => s.mergedAt new (ids.take p.2) p.1

theorem replaceShapes_nil (key : NodeId → Option NodeId)
    (merged : List (Option NodeId × NodeId)) (placed : List (Option NodeId)) (ids : List NodeId) :
    replaceShapes key [] merged placed ids = ids := by
  induction ids with
  | nil => rfl
  | cons id ids ih =>
    rw [replaceShapes, if_neg (by simp), ih]

theorem replaceShapes_eq {s : Scene} {new : Option NodeId → NodeId} {ids : List NodeId}
    {merged : List (Option NodeId × NodeId)} (hkey : ∀ id ∈ ids, key id = s.appearanceOf id)
    (hnew : ∀ id ∈ s.faceShapes ids, merged.lookup (s.appearanceOf id) =
      some (new (s.appearanceOf id))) :
    replaceShapes key (s.faceShapes ids) merged [] ids = s.mergedChildren new ids := by
  have hall : ∀ (rest before : List NodeId) (placed : List (Option NodeId)), before ++ rest = ids →
      (∀ a, a ∈ placed ↔ ∃ b ∈ before, s.isFaceShape b = true ∧ s.appearanceOf b = a) →
      replaceShapes key (s.faceShapes ids) merged placed rest =
        (rest.zipIdx before.length).flatMap fun p => s.mergedAt new (ids.take p.2) p.1 := by
    intro rest
    induction rest with
    | nil => exact fun _ _ _ _ => rfl
    | cons id rest ih =>
      intro before placed hids hplaced
      have htake : ids.take before.length = before := by rw [← hids, List.take_left]
      have hmem : id ∈ ids := by
        rw [← hids]
        exact List.mem_append_right _ (List.mem_cons_self ..)
      have hnext : (before ++ [id]) ++ rest = ids := by
        rw [List.append_assoc, List.singleton_append, hids]
      have hlength : (before ++ [id]).length = before.length + 1 := List.length_append
      have hcontains : (s.faceShapes ids).contains id = s.isFaceShape id := by
        rw [Bool.eq_iff_iff, List.contains_iff_mem, mem_faceShapes_iff]
        exact and_iff_right hmem
      -- which appearances have been seen, one child further on
      have hsnoc : ∀ a, (∃ b ∈ before ++ [id], s.isFaceShape b = true ∧ s.appearanceOf b = a) ↔
          (∃ b ∈ before, s.isFaceShape b = true ∧ s.appearanceOf b = a) ∨
            s.isFaceShape id = true ∧ s.appearanceOf id = a := by
        intro a
        simp [or_and_right, exists_or]
      rw [replaceShapes, hkey id hmem, List.zipIdx_cons, List.flatMap_cons, htake, mergedAt,
        hcontains, ← hlength]
      cases hface : s.isFaceShape id with
      | false =>
        rw [if_neg Bool.false_ne_true, if_neg Bool.false_ne_true, List.singleton_append]
        refine congrArg _ (ih (before ++ [id]) placed hnext fun a => ?_)
        rw [hsnoc, hplaced, hface]
        exact (or_iff_left fun h => Bool.false_ne_true h.1).symm
      | true =>
        have hshape : id ∈ s.faceShapes ids := mem_faceShapes_iff.2 ⟨hmem, hface⟩
        have hiff := hplaced (s.appearanceOf id)
        rw [if_pos rfl, if_pos rfl]
        by_cases hseen : s.appearanceOf id ∈ placed
        · rw [if_pos (List.contains_iff_mem.2 hseen), if_pos (hiff.1 hseen), List.nil_append]
          refine ih (before ++ [id]) placed hnext fun a => ?_
          rw [hsnoc, hplaced]
          refine (or_iff_left_of_imp ?_).symm
          rintro ⟨-, rfl⟩
          exact hiff.1 hseen
        · rw [if_neg (mt List.contains_iff_mem.1 hseen), if_neg (mt hiff.2 hseen), hnew id hshape]
          refine congrArg _ (ih (before ++ [id]) _ hnext fun a => ?_)
          rw [hsnoc, List.mem_cons, hplaced, and_iff_right hface, or_comm, eq_comm]
  refine hall ids [] [] rfl fun a => ?_
  simp

theorem mergedChildren_of_nil {s : Scene} {ids : List NodeId} (h : s.faceShapes ids = [])
    (new : Option NodeId → NodeId) : s.mergedChildren new ids = ids := by
  have heq : replaceShapes s.appearanceOf (s.faceShapes ids) [] [] ids = s.mergedChildren new ids :=
    replaceShapes_eq (fun _ _ => rfl) fun id hid => by
      rw [h] at hid
      exact absurd hid List.not_mem_nil
  rw [← heq, h, replaceShapes_nil]

/-- Merging goes on in the same way after a renaming under which shapes keep what they show. -/
theorem mergedChildren_map {s s' : Scene} {f g : NodeId → NodeId}
    {new new' : Option NodeId → NodeId} {ids : List NodeId}
    (hface : ∀ x ∈ ids, s'.isFaceShape (f x) = s.isFaceShape x)
    (hsame : ∀ x ∈ ids, ∀ y ∈ ids, s.isFaceShape x = true → s.isFaceShape y = true →
      (s'.appearanceOf (f x) = s'.appearanceOf (f y) ↔ s.appearanceOf x = s.appearanceOf y))
    (hkept : ∀ x ∈ ids, s.isFaceShape x = false → x ∈ s.mergedChildren new ids → g x = f x)
    (hnew : ∀ x ∈ ids, s.isFaceShape x = true →
      new (s.appearanceOf x) ∈ s.mergedChildren new ids →
        g (new (s.appearanceOf x)) = new' (s'.appearanceOf (f x))) :
    s'.mergedChildren new' (ids.map f) = (s.mergedChildren new ids).map g := by
  have hat : ∀ p ∈ ids.zipIdx, s'.mergedAt new' ((ids.map f).take p.2) (f p.1) =
      (s.mergedAt new (ids.take p.2) p.1).map g := by
    rintro ⟨x, i⟩ hp
    have hx : x ∈ ids := by
      obtain ⟨hi, hx⟩ := List.mem_zipIdx' hp
      exact hx ▸ List.getElem_mem hi
    have hmem : ∀ y ∈ s.mergedAt new (ids.take i) x, y ∈ s.mergedChildren new ids := fun y hy =>
      List.mem_flatMap.2 ⟨(x, i), hp, hy⟩
    have hseen : s.isFaceShape x = true → ((∃ b ∈ (ids.map f).take i, s'.isFaceShape b = true ∧
          s'.appearanceOf b = s'.appearanceOf (f x)) ↔
        ∃ b ∈ ids.take i, s.isFaceShape b = true ∧ s.appearanceOf b = s.appearanceOf x) := by
      intro hxf
      rw [← List.map_take]
      simp only [List.mem_map, exists_exists_and_eq_and]
      refine exists_congr fun b => and_congr_right fun hb => ?_
      have hb := List.mem_of_mem_take hb
      rw [hface b hb]
      exact and_congr_right fun hbf => hsame b hb x hx hbf hxf
    unfold mergedAt at hmem ⊢
    rw [hface x hx]
    cases hxf : s.isFaceShape x with
    | false =>
      rw [hxf, if_neg Bool.false_ne_true] at hmem
      rw [if_neg Bool.false_ne_true, if_neg Bool.false_ne_true, List.map_singleton,
        hkept x hx hxf (hmem x (List.mem_singleton_self x))]
    | true =>
      rw [hxf, if_pos rfl] at hmem
      rw [if_pos rfl, if_pos rfl]
      by_cases hb : ∃ b ∈ ids.take i, s.isFaceShape b = true ∧ s.appearanceOf b = s.appearanceOf x
      · rw [if_pos hb, if_pos ((hseen hxf).2 hb), List.map_nil]
      · rw [if_neg hb] at hmem
        rw [if_neg hb, if_neg (mt (hseen hxf).1 hb), List.map_singleton,
          hnew x hx hxf (hmem _ (List.mem_singleton_self _))]
  rw [mergedChildren, mergedChildren, List.zipIdx_map, List.flatMap_map, List.map_flatMap]
  exact List.flatMap_congr hat

/-- Merging leaves no group without children that had some. -/
theorem mergedChildren_ne_nil {s : Scene} {ids : List NodeId} (h : ids ≠ [])
    (new : Option NodeId → NodeId) : s.mergedChildren new ids ≠ [] := by
  cases ids with
  | nil => exact absurd rfl h
  | cons id ids =>
    rw [mergedChildren, List.zipIdx_cons, List.flatMap_cons, mergedAt, List.take_zero]
    split
    · rw [if_neg (by simp)]
      exact List.cons_ne_nil _ _
    · exact List.cons_ne_nil _ _

end Scene

end SceneTidy
