import SceneTidy.Geometry.Face
import SceneTidy.Proofs.Numeric.SameValue

/-!
# Lists of faces

Of the items of a list, the first of each key are kept, so that every item has the same key as one
kept (`exists_mem_firsts`), and none as one kept before it (`pairwise_firsts`).  Faces read from
indices have corners, which are among the points (`corners_of_facesOfIndices`).  Main statements:
faces that are put into indices are read back with the points that stand for their corners
(`facesOfIndices_ofFaces_eq`), which are the same by value (`facesOfIndices_ofFaces`).
-/

namespace SceneTidy

/-! ### The first of each key -/

section Firsts

variable {α β : Type} {same : β → β → Bool} {key : α → β} {seen : List β} {as : List α}

theorem firsts_sublist (same : β → β → Bool) (key : α → β) (seen : List β) (as : List α) :
    List.Sublist (firsts same key seen as) as := by
  induction as generalizing seen with
  | nil => exact .slnil
  | cons a as ih =>
    rw [firsts]
    split
    · exact (ih seen).cons a
    · exact (ih _).cons_cons a

/-- Each item has the key of one seen before or of one kept, if its key is the same as itself. -/
theorem exists_mem_firsts {a : α} (ha : a ∈ as) (hself : same (key a) (key a)) :
    (∃ k ∈ seen, same (key a) k) ∨ ∃ b ∈ firsts same key seen as, same (key a) (key b) := by
  induction as generalizing seen with
  | nil => exact absurd ha List.not_mem_nil
  | cons b as ih =>
    rw [firsts]
    split
    · next hseen =>
      rcases List.mem_cons.1 ha with rfl | ha
      · exact .inl (List.any_eq_true.1 hseen)
      · exact ih ha
    · rcases List.mem_cons.1 ha with rfl | ha
      · exact .inr ⟨a, List.mem_cons_self .., hself⟩
      · rcases ih ha with ⟨k, hk, hsame⟩ | ⟨c, hc, hsame⟩
        · rcases List.mem_cons.1 hk with rfl | hk
          · exact .inr ⟨b, List.mem_cons_self .., hsame⟩
          · exact .inl ⟨k, hk, hsame⟩
        · exact .inr ⟨c, List.mem_cons_of_mem _ hc, hsame⟩

/-- Nothing is kept that has the key of an item seen before. -/
theorem not_same_of_mem_firsts {a : α} (ha : a ∈ firsts same key seen as) :
    ∀ k ∈ seen, same (key a) k = false := by
  induction as generalizing seen with
  | nil => exact absurd ha List.not_mem_nil
  | cons b as ih =>
    rw [firsts] at ha
    split at ha
    · exact ih ha
    · next hnew =>
      rcases List.mem_cons.1 ha with rfl | ha
      · exact fun k hk => Bool.eq_false_iff.2 fun hsame => hnew (List.any_eq_true.2 ⟨k, hk, hsame⟩)
      · exact fun k hk => ih ha k (List.mem_cons_of_mem _ hk)

theorem pairwise_firsts (same : β → β → Bool) (key : α → β) (seen : List β) (as : List α) :
    (firsts same key seen as).Pairwise fun a b => same (key b) (key a) = false := by
  induction as generalizing seen with
  | nil => exact .nil
  | cons a as ih =>
    rw [firsts]
    split
    · exact ih seen
    · exact .cons (fun b hb => not_same_of_mem_firsts hb _ (List.mem_cons_self ..)) (ih _)

/-- If no item has the key of one seen or of one before it, all are kept. -/
theorem firsts_eq_self (hseen : ∀ a ∈ as, ∀ k ∈ seen, same (key a) k = false)
    (h : as.Pairwise fun a b => same (key b) (key a) = false) : firsts same key seen as = as := by
  induction as generalizing seen with
  | nil => rfl
  | cons a as ih =>
    obtain ⟨ha, has⟩ := List.forall_mem_cons.1 hseen
    obtain ⟨hhead, htail⟩ := List.pairwise_cons.1 h
    have hnew : ¬seen.any (same (key a)) = true := fun hany => by
      obtain ⟨k, hk, hsame⟩ := List.any_eq_true.1 hany
      exact Bool.false_ne_true ((ha k hk).symm.trans hsame)
    rw [firsts, if_neg hnew, ih (fun b hb => List.forall_mem_cons.2 ⟨hhead b hb, has b hb⟩) htail]

/-- Items are kept or not by how their keys compare. -/
theorem firsts_map {g : α → α} {h : β → β} (hkey : ∀ a, key (g a) = h (key a))
    (hsame : ∀ k l, same (h k) (h l) = same k l) (seen : List β) (as : List α) :
    firsts same key (seen.map h) (as.map g) = (firsts same key seen as).map g := by
  induction as generalizing seen with
  | nil => rfl
  | cons a as ih =>
    have hany : (seen.map h).any (same (key (g a))) = seen.any (same (key a)) := by
      rw [List.any_map, hkey]
      exact congrArg seen.any (funext fun k => hsame _ k)
    have hmore := ih (key a :: seen)
    rw [List.map_cons, ← hkey] at hmore
    rw [List.map_cons, firsts, firsts, hany, ih, hmore]
    split <;> rfl

end Firsts

/-! ### Faces read from indices -/

variable {points : List Vec3}

theorem mem_of_pointAt {i : Int} {p : Vec3} (h : pointAt points i = .ok p) : p ∈ points := by
  unfold pointAt at h
  split at h
  · split at h
    · next q hq =>
      obtain rfl := Except.ok.inj h
      exact List.mem_of_getElem? hq
    · cases h
  · cases h

theorem corners_of_mem_finished {corners f : Face} (hf : f ∈ finished corners)
    (hc : ∀ p ∈ corners, p ∈ points) : f ≠ [] ∧ ∀ p ∈ f, p ∈ points := by
  unfold finished at hf
  split at hf
  · exact absurd hf List.not_mem_nil
  · next hne =>
    obtain rfl := List.mem_singleton.1 hf
    exact ⟨fun he => hne (by rw [he]; rfl), hc⟩

theorem corners_of_facesFrom {corners : Face} {is : List Int} {fs : List Face}
    (h : facesFrom points corners is = .ok fs) (hc : ∀ p ∈ corners, p ∈ points) :
    ∀ f ∈ fs, f ≠ [] ∧ ∀ p ∈ f, p ∈ points := by
  induction is generalizing corners fs with
  | nil =>
    obtain rfl := Except.ok.inj h
    exact fun f hf => corners_of_mem_finished hf hc
  | cons i is ih =>
    rw [facesFrom] at h
    split at h
    · cases hrest : facesFrom points [] is with
      | error e => simp [hrest, bind, Except.bind] at h
      | ok gs =>
        simp only [hrest, bind, Except.bind, pure, Except.pure, Except.ok.injEq] at h
        subst h
        intro f hf
        rcases List.mem_append.1 hf with hf | hf
        · exact corners_of_mem_finished hf hc
        · exact ih hrest (fun p hp => absurd hp List.not_mem_nil) f hf
    · cases hp : pointAt points i with
      | error e => simp [hp, bind, Except.bind] at h
      | ok p =>
        simp only [hp, bind, Except.bind] at h
        refine ih h fun q hq => ?_
        rcases List.mem_append.1 hq with hq | hq
        · exact hc q hq
        · obtain rfl := List.mem_singleton.1 hq
          exact mem_of_pointAt hp

/-- Faces read from indices have corners, which are among the points. -/
theorem corners_of_facesOfIndices {is : List Int} {fs : List Face}
    (h : facesOfIndices points is = .ok fs) : ∀ f ∈ fs, f ≠ [] ∧ ∀ p ∈ f, p ∈ points :=
  corners_of_facesFrom h fun _ hp => absurd hp List.not_mem_nil

/-- Whether an index that does not close a face is no place among the points. -/
def isOutOfRange (points : List Vec3) (i : Int) : Bool :=
  i ≠ faceEnd && (i < 0 || points.length ≤ i)

theorem pointAt_of_isOutOfRange {i : Int} (h : isOutOfRange points i) :
    pointAt points i = .error ⟨i, points.length⟩ := by
  simp only [isOutOfRange, Bool.and_eq_true, Bool.or_eq_true, decide_eq_true_eq] at h
  cases i with
  | ofNat n =>
    have hn : points.length ≤ n := by
      rw [Int.ofNat_eq_natCast] at h
      omega
    simp [pointAt, hn]
  | negSucc n => rfl

theorem exists_pointAt {i : Int} (hend : i ≠ faceEnd) (h : isOutOfRange points i = false) :
    ∃ p, pointAt points i = .ok p := by
  have hrange : 0 ≤ i ∧ i < points.length := by simpa [isOutOfRange, hend] using h
  cases i with
  | ofNat n =>
    have hn : n < points.length := Int.ofNat_lt.1 hrange.2
    exact ⟨points[n], by simp [pointAt, hn]⟩
  | negSucc n => omega

/-- **Reading faces fails at the first index that is no place among the points**, and only there. -/
theorem facesFrom_eq_error_iff {corners : Face} {is : List Int} {bad : BadIndex} :
    facesFrom points corners is = .error bad ↔
      is.find? (isOutOfRange points) = some bad.index ∧ bad.points = points.length := by
  induction is generalizing corners with
  | nil => simp [facesFrom]
  | cons i is ih =>
    rw [facesFrom]
    by_cases hend : i = faceEnd
    · have hskip : isOutOfRange points i = false := by simp [isOutOfRange, hend]
      have hrest : facesFrom points [] is = .error bad ↔ _ := ih
      rw [if_pos hend, List.find?_cons, hskip, ← hrest]
      cases facesFrom points [] is <;> simp [bind, Except.bind, pure, Except.pure]
    · rw [if_neg hend, List.find?_cons]
      cases hout : isOutOfRange points i with
      | true =>
        rw [pointAt_of_isOutOfRange hout]
        obtain ⟨index, count⟩ := bad
        simp [bind, Except.bind, eq_comm]
      | false =>
        obtain ⟨p, hp⟩ := exists_pointAt hend hout
        rw [hp]
        exact ih

/-- Reading faces fails exactly if some index is no place among the points. -/
theorem exists_facesOfIndices_error_iff {is : List Int} :
    (∃ bad, facesOfIndices points is = .error bad) ↔
      ∃ i ∈ is, i ≠ faceEnd ∧ (i < 0 ∨ points.length ≤ i) := by
  have hout : ∀ i, isOutOfRange points i ↔ i ≠ faceEnd ∧ (i < 0 ∨ points.length ≤ i) := by
    simp [isOutOfRange]
  simp only [← hout, ← List.find?_isSome, Option.isSome_iff_exists]
  constructor
  · rintro ⟨bad, hbad⟩
    exact ⟨_, (facesFrom_eq_error_iff.1 hbad).1⟩
  · rintro ⟨i, hi⟩
    exact ⟨⟨i, points.length⟩, facesFrom_eq_error_iff.2 ⟨hi, rfl⟩⟩

/-! ### Faces put into indices -/

/-- The first of some points that is the same as a point; that point if there is none. -/
def pointFor (points : List Vec3) (p : Vec3) : Vec3 := points[placeOf points p]?.getD p

section Places

variable {p : Vec3}

theorem getElem?_placeOf (h : ∃ q ∈ points, p.same q) :
    points[placeOf points p]? = some (pointFor points p) := by
  have hlt : placeOf points p < points.length := List.findIdx_lt_length.2 h
  rw [pointFor, List.getElem?_eq_getElem hlt, Option.getD_some]

theorem same_pointFor (h : ∃ q ∈ points, p.same q) : (pointFor points p).same p := by
  have hlt : placeOf points p < points.length := List.findIdx_lt_length.2 h
  have hsame : p.same points[placeOf points p] := List.findIdx_getElem (w := hlt)
  rwa [pointFor, List.getElem?_eq_getElem hlt, Option.getD_some, Vec3.same_comm]

theorem pointAt_placeOf (h : ∃ q ∈ points, p.same q) :
    pointAt points (placeOf points p : Int) = .ok (pointFor points p) := by
  have hpoint : pointAt points (.ofNat (placeOf points p)) = .ok (pointFor points p) := by
    rw [pointAt, getElem?_placeOf h]
  exact hpoint

theorem facesFrom_places {f : Face} (hf : ∀ p ∈ f, ∃ q ∈ points, p.same q)
    (corners : Face) (is : List Int) {fs : List Face} (his : facesFrom points [] is = .ok fs) :
    facesFrom points corners (f.map (fun p => (placeOf points p : Int)) ++ faceEnd :: is) =
      .ok (finished (corners ++ f.map (pointFor points)) ++ fs) := by
  induction f generalizing corners with
  | nil =>
    rw [List.map_nil, List.nil_append, facesFrom, if_pos rfl, his, List.map_nil, List.append_nil]
    rfl
  | cons p f ih =>
    obtain ⟨hp, hf⟩ := List.forall_mem_cons.1 hf
    have hne : (placeOf points p : Int) ≠ faceEnd := by
      unfold faceEnd
      omega
    rw [List.map_cons, List.cons_append, facesFrom, if_neg hne, pointAt_placeOf hp]
    have hrest := ih hf (corners ++ [pointFor points p])
    rw [List.append_assoc, List.singleton_append] at hrest
    exact hrest

/-- Faces by the places of their corners, each closed. -/
def placesOf (points : List Vec3) (fs : List Face) : List Int :=
  fs.flatMap fun f => f.map (fun p => (placeOf points p : Int)) ++ [faceEnd]

theorem placesOf_cons (points : List Vec3) (f : Face) (fs : List Face) :
    placesOf points (f :: fs) =
      f.map (fun p => (placeOf points p : Int)) ++ faceEnd :: placesOf points fs := by
  rw [placesOf, List.flatMap_cons, List.append_assoc, List.singleton_append, ← placesOf]

theorem facesOfIndices_placesOf {fs : List Face} (hne : ∀ f ∈ fs, f ≠ [])
    (hfs : ∀ f ∈ fs, ∀ p ∈ f, ∃ q ∈ points, p.same q) :
    facesOfIndices points (placesOf points fs) = .ok (fs.map (List.map (pointFor points))) := by
  induction fs with
  | nil => rfl
  | cons f fs ih =>
    obtain ⟨hne₁, hne₂⟩ := List.forall_mem_cons.1 hne
    obtain ⟨hfs₁, hfs₂⟩ := List.forall_mem_cons.1 hfs
    have hfinished : finished ([] ++ f.map (pointFor points)) = [f.map (pointFor points)] := by
      unfold finished
      rw [List.nil_append, if_neg]
      simpa using hne₁
    rw [facesOfIndices, placesOf_cons, facesFrom_places hfs₁ [] _ (ih hne₂ hfs₂), hfinished,
      List.map_cons, List.singleton_append]

end Places

theorem sameItems_map {α : Type} {same : α → α → Bool} {g : α → α} {l : List α}
    (h : ∀ a ∈ l, same (g a) a) : sameItems same (l.map g) l := by
  induction l with
  | nil => rfl
  | cons a l ih =>
    obtain ⟨ha, hl⟩ := List.forall_mem_cons.1 h
    rw [List.map_cons, sameItems, ha, ih hl]
    rfl

/-- The distinct points of faces. -/
def Face.distinctPoints (fs : List Face) : List Vec3 := firsts Vec3.same id [] fs.flatten

variable {fs : List Face}

/-- A corner that is a number is the same as one of the distinct points. -/
theorem exists_mem_distinctPoints (hnumber : ∀ f ∈ fs, ∀ p ∈ f, p.IsNumber) :
    ∀ f ∈ fs, ∀ p ∈ f, ∃ q ∈ Face.distinctPoints fs, p.same q := by
  intro f hf p hp
  have hmem : p ∈ fs.flatten := List.mem_flatten.2 ⟨f, hf, hp⟩
  have hself : Vec3.same (id p) (id p) := Vec3.same_self (hnumber f hf p hp)
  exact (exists_mem_firsts hmem hself).resolve_left fun ⟨k, hk, _⟩ => absurd hk List.not_mem_nil

/-- Faces that have corners are put into indices with no exception for those that have none. -/
theorem ofFaces_eq (hne : ∀ f ∈ fs, f ≠ []) :
    IndexedFaces.ofFaces fs = ⟨Face.distinctPoints fs, placesOf (Face.distinctPoints fs) fs⟩ := by
  rw [IndexedFaces.ofFaces, ← Face.distinctPoints]
  split
  · next hnil =>
    cases fs with
    | nil => rfl
    | cons f fs =>
      obtain ⟨p, f, rfl⟩ := List.exists_cons_of_ne_nil (hne f (List.mem_cons_self ..))
      simp [Face.distinctPoints, firsts] at hnil
  · rfl

theorem facesOfIndices_ofFaces_eq (hne : ∀ f ∈ fs, f ≠ [])
    (hnumber : ∀ f ∈ fs, ∀ p ∈ f, p.IsNumber) :
    facesOfIndices (IndexedFaces.ofFaces fs).points (IndexedFaces.ofFaces fs).indices =
      .ok (fs.map (List.map (pointFor (Face.distinctPoints fs)))) := by
  rw [ofFaces_eq hne]
  exact facesOfIndices_placesOf hne (exists_mem_distinctPoints hnumber)

/-- **Faces put into indices are read back**, with the same corners by value. -/
theorem facesOfIndices_ofFaces (hne : ∀ f ∈ fs, f ≠ [])
    (hnumber : ∀ f ∈ fs, ∀ p ∈ f, p.IsNumber) :
    ∃ gs, facesOfIndices (IndexedFaces.ofFaces fs).points (IndexedFaces.ofFaces fs).indices =
      .ok gs ∧ sameItems Face.same gs fs :=
  ⟨_, facesOfIndices_ofFaces_eq hne hnumber, sameItems_map fun f hf => sameItems_map fun p hp =>
    same_pointFor (exists_mem_distinctPoints hnumber f hf p hp)⟩

end SceneTidy
