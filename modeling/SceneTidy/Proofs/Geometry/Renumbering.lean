import SceneTidy.Proofs.Geometry.FaceKeys

/-!
# Indices from sorted points

Of the points of some faces, those are kept that are the same as no point before them
(`firsts_eq_fresh`).  They can be found by sorting the points, which tells the distinct points in
ascending order, the first place of each, and the place of each point among them (`SortedPoints`).
To have the distinct points in the order of their first appearance, their first places are sorted in
turn, and the indices are renumbered by the inverse of that order.  Main statement: this gives the
points and indices of `IndexedFaces.ofFaces` (`IndexedFaces.renumbered_eq_ofFaces`).
-/

namespace SceneTidy

/-! ### Items that differ from all before them -/

/-- The items that are the same as no item before them, in their order. -/
def fresh {α : Type} (same : α → α → Bool) (as : List α) : List α :=
  (as.zipIdx.filter fun p => (as.take p.2).all fun b => !same p.1 b).map Prod.fst

section Fresh

variable {α β : Type} {same : β → β → Bool} (key : α → β)

/-- What goes before the items is all there was, although only the keys of what was kept are seen.
-/
theorem firsts_eq_filter (htrans : ∀ a b c, same a b → same b c → same a c) (seen : List β)
    (before as : List α) (hseen : ∀ k ∈ seen, ∃ b ∈ before, key b = k)
    (hbefore : ∀ b ∈ before, key b ∈ seen ∨ ∃ k ∈ seen, same (key b) k) :
    firsts same key seen as = ((as.zipIdx before.length).filter fun p =>
      ((before ++ as).take p.2).all fun b => !same (key p.1) (key b)).map Prod.fst := by
  induction as generalizing seen before with
  | nil => rfl
  | cons a as ih =>
    have hsplit : before ++ a :: as = (before ++ [a]) ++ as := by simp
    have hlength : before.length + 1 = (before ++ [a]).length := by simp
    have hall : ((before ++ a :: as).take before.length).all (fun b => !same (key a) (key b)) =
        !seen.any (same (key a)) := by
      rw [List.take_left, Bool.eq_iff_iff, List.all_eq_true, Bool.not_eq_true', List.any_eq_false]
      constructor
      · intro h k hk hsame
        obtain ⟨b, hb, rfl⟩ := hseen k hk
        simpa [hsame] using h b hb
      · intro h b hb
        rw [Bool.not_eq_true', Bool.eq_false_iff]
        intro hsame
        rcases hbefore b hb with hk | ⟨k, hk, hbk⟩
        · exact h _ hk hsame
        · exact h k hk (htrans _ _ _ hsame hbk)
    rw [firsts, List.zipIdx_cons]
    cases hany : seen.any (same (key a)) with
    | true =>
      rw [if_pos rfl, List.filter_cons_of_neg (by simpa [hany] using hall), hlength, hsplit]
      refine ih seen (before ++ [a]) (fun k hk => ?_) fun b hb => ?_
      · obtain ⟨b, hb, he⟩ := hseen k hk
        exact ⟨b, List.mem_append_left _ hb, he⟩
      · rcases List.mem_append.1 hb with hb | hb
        · exact hbefore b hb
        · obtain rfl := List.mem_singleton.1 hb
          exact .inr (List.any_eq_true.1 hany)
    | false =>
      rw [if_neg Bool.false_ne_true, List.filter_cons_of_pos (by simpa [hany] using hall), hlength,
        hsplit, List.map_cons]
      refine congrArg (a :: ·) (ih (key a :: seen) (before ++ [a]) (fun k hk => ?_) fun b hb => ?_)
      · rcases List.mem_cons.1 hk with rfl | hk
        · exact ⟨a, by simp, rfl⟩
        · obtain ⟨b, hb, he⟩ := hseen k hk
          exact ⟨b, List.mem_append_left _ hb, he⟩
      · rcases List.mem_append.1 hb with hb | hb
        · rcases hbefore b hb with hk | ⟨k, hk, hbk⟩
          · exact .inl (List.mem_cons_of_mem _ hk)
          · exact .inr ⟨k, List.mem_cons_of_mem _ hk, hbk⟩
        · obtain rfl := List.mem_singleton.1 hb
          exact .inl (List.mem_cons_self ..)

/-- **Of each key the first item is kept**, that is, the one with the key of no item before it. -/
theorem firsts_eq_fresh (htrans : ∀ a b c, same a b → same b c → same a c) (as : List α) :
    firsts same key [] as = fresh (fun a b => same (key a) (key b)) as :=
  firsts_eq_filter key htrans [] [] as (fun _ hk => absurd hk List.not_mem_nil)
    fun _ hb => absurd hb List.not_mem_nil

end Fresh

/-! ### Renumbering -/

/-- The places of a list in the order of what stands there; of equal ones the first comes first. -/
def argsort (l : List Nat) : List Nat :=
  (List.range l.length).mergeSort fun i j => l.getD i 0 ≤ l.getD j 0

/-- One place is numbered. -/
def scatterStep (ranks : List Nat) (p : Nat × Nat) : List Nat := ranks.set p.1 p.2

/-- The number of each place in an order. -/
def ranksOf (order : List Nat) : List Nat :=
  order.zipIdx.foldl scatterStep (List.replicate order.length 0)

/-- The indices of faces, whose corners are cut off the indices of all corners one after the other.
-/
def cutFaces (places : List Nat) : Nat → List Face → List Int
  | _, [] => []
  | cursor, f :: fs =>
    ((places.drop cursor).take f.length).map Int.ofNat ++
      faceEnd :: cutFaces places (cursor + f.length) fs

/-- Indexed faces, from the first places of the distinct points in ascending order, and the places
of all points among these. -/
def IndexedFaces.renumbered (first inverse : List Nat) (fs : List Face) : IndexedFaces :=
  if fs.flatten.isEmpty then ⟨[], []⟩
  else
    let order := argsort first
    ⟨order.map fun i => fs.flatten.getD (first.getD i 0) .zero,
      cutFaces (inverse.map fun i => (ranksOf order).getD i 0) 0 fs⟩

/-- What sorting some points tells: the distinct points in ascending order, the first place of each,
and the places of all points among them. -/
structure SortedPoints (points rows : List Vec3) (first inverse : List Nat) : Prop where
  ascending : rows.Pairwise fun p q => p.less q
  sound : ∀ r ∈ rows, ∃ p ∈ points, r.same p
  complete : ∀ p ∈ points, ∃ r ∈ rows, p.same r
  first : first = rows.map (placeOf points)
  inverse : inverse = points.map (placeOf rows)

/-! ### Orders and ranks -/

theorem getElem?_foldl_scatter_of_not_mem {ps : List (Nat × Nat)} {x : Nat}
    (h : x ∉ ps.map Prod.fst) (ranks : List Nat) :
    (ps.foldl scatterStep ranks)[x]? = ranks[x]? := by
  induction ps generalizing ranks with
  | nil => rfl
  | cons p ps ih =>
    rw [List.map_cons, List.mem_cons, not_or] at h
    rw [List.foldl_cons, ih h.2, scatterStep, List.getElem?_set_ne (Ne.symm h.1)]

/-- Each place has the number that it was given. -/
theorem getElem?_foldl_scatter (ranks : List Nat) {ps : List (Nat × Nat)} {p : Nat × Nat}
    (hnodup : (ps.map Prod.fst).Nodup) (hp : p ∈ ps) (hlt : p.1 < ranks.length) :
    (ps.foldl scatterStep ranks)[p.1]? = some p.2 := by
  induction ps generalizing ranks with
  | nil => exact absurd hp List.not_mem_nil
  | cons q ps ih =>
    rw [List.map_cons, List.nodup_cons] at hnodup
    rw [List.foldl_cons]
    rcases List.mem_cons.1 hp with rfl | hp
    · rw [getElem?_foldl_scatter_of_not_mem hnodup.1, scatterStep, List.getElem?_set_self hlt]
    · refine ih _ hnodup.2 hp ?_
      rw [scatterStep, List.length_set]
      exact hlt

/-- **Ranks are the inverse of an order.** -/
theorem getD_ranksOf {order : List Nat} (hnodup : order.Nodup) {k : Nat} (hk : k < order.length)
    (hlt : order[k] < order.length) : (ranksOf order).getD order[k] 0 = k := by
  have hfst : order.zipIdx.map Prod.fst = order := List.zipIdx_map_fst 0 order
  have hmem : (order[k], k) ∈ order.zipIdx := by
    rw [List.mk_mem_zipIdx_iff_getElem?]
    exact List.getElem?_eq_getElem hk
  have hget := getElem?_foldl_scatter (List.replicate order.length 0) (by rwa [hfst]) hmem
    (by simpa using hlt)
  rw [ranksOf, List.getD_eq_getElem?_getD, hget, Option.getD_some]

theorem perm_argsort (l : List Nat) : (argsort l).Perm (List.range l.length) :=
  List.mergeSort_perm ..

theorem map_argsort_perm (l : List Nat) : ((argsort l).map fun i => l.getD i 0).Perm l := by
  have hall : (List.range l.length).map (fun i => l.getD i 0) = l :=
    List.ext_getElem (by simp) fun i h1 h2 => by simp [List.getD_eq_getElem?_getD, h2]
  exact ((perm_argsort l).map _).trans (.of_eq hall)

/-- In the order of its places a list is ascending. -/
theorem pairwise_map_argsort (l : List Nat) :
    ((argsort l).map fun i => l.getD i 0).Pairwise (· ≤ ·) := by
  rw [List.pairwise_map]
  refine (List.pairwise_mergeSort ?_ ?_ _).imp of_decide_eq_true
  · exact fun a b c hab hbc => decide_eq_true
      (Nat.le_trans (of_decide_eq_true hab) (of_decide_eq_true hbc))
  · exact fun a b => by simpa using Nat.le_total (l.getD a 0) (l.getD b 0)

/-! ### First places -/

/-- The places of the items that are the same as no item before them. -/
def freshPlaces {α : Type} (same : α → α → Bool) (as : List α) : List Nat :=
  (as.zipIdx.filter fun p => (as.take p.2).all fun b => !same p.1 b).map Prod.snd

theorem mem_freshPlaces_iff {α : Type} {same : α → α → Bool} {as : List α} {i : Nat} :
    i ∈ freshPlaces same as ↔ ∃ a, as[i]? = some a ∧ ∀ b ∈ as.take i, same a b = false := by
  rw [freshPlaces, List.mem_map]
  constructor
  · rintro ⟨⟨a, j⟩, hp, rfl⟩
    obtain ⟨hmem, hall⟩ := List.mem_filter.1 hp
    exact ⟨a, List.mk_mem_zipIdx_iff_getElem?.1 hmem, by simpa using hall⟩
  · rintro ⟨a, ha, hall⟩
    have hmem : (a, i) ∈ as.zipIdx := List.mk_mem_zipIdx_iff_getElem?.2 ha
    exact ⟨(a, i), List.mem_filter.2 ⟨hmem, by simpa using hall⟩, rfl⟩

theorem pairwise_freshPlaces {α : Type} (same : α → α → Bool) (as : List α) :
    (freshPlaces same as).Pairwise (· < ·) := by
  have hsub : (freshPlaces same as).Sublist (as.zipIdx.map Prod.snd) := List.filter_sublist.map _
  rw [List.zipIdx_map_snd] at hsub
  exact (List.pairwise_lt_range' _).sublist hsub

/-- The items at those places. -/
theorem map_freshPlaces {α : Type} (same : α → α → Bool) (as : List α) (d : α) :
    (freshPlaces same as).map (fun i => as.getD i d) = fresh same as := by
  rw [freshPlaces, List.map_map, fresh]
  refine List.map_congr_left fun p hp => ?_
  have hmem := List.mk_mem_zipIdx_iff_getElem?.1 (List.mem_filter.1 hp).1
  rw [Function.comp_apply, List.getD_eq_getElem?_getD, hmem, Option.getD_some]

/-- What is the same as an item at a first place is found there. -/
theorem findIdx_eq_of_mem_freshPlaces {α : Type} {same : α → α → Bool}
    (hcomm : ∀ a b, same a b = same b a) (htrans : ∀ a b c, same a b → same b c → same a c)
    {as : List α} {i : Nat} {a b : α} (hi : i ∈ freshPlaces same as) (hb : as[i]? = some b)
    (hab : same a b) : as.findIdx (same a) = i := by
  obtain ⟨c, hc, hnew⟩ := mem_freshPlaces_iff.1 hi
  obtain rfl : b = c := Option.some.inj (hb.symm.trans hc)
  obtain ⟨hlt, rfl⟩ := List.getElem?_eq_some_iff.1 hb
  refine (List.findIdx_eq hlt).2 ⟨hab, fun j hj => ?_⟩
  have hmem : as[j] ∈ as.take i := List.mem_take_iff_getElem.2 ⟨j, by omega, rfl⟩
  rw [Bool.eq_false_iff]
  intro haj
  rw [hcomm] at hab
  exact Bool.eq_false_iff.1 (hnew _ hmem) (htrans _ _ _ hab haj)

theorem firsts_eq_fresh_points (points : List Vec3) :
    firsts Vec3.same id [] points = fresh Vec3.same points := by
  have htrans : ∀ u v w : Vec3, u.same v → v.same w → u.same w := fun _ _ _ => Vec3.same_trans
  exact firsts_eq_fresh id htrans points

theorem distinctPoints_eq_fresh (fs : List Face) :
    Face.distinctPoints fs = fresh Vec3.same fs.flatten := firsts_eq_fresh_points fs.flatten

theorem pairwise_fresh (points : List Vec3) :
    (fresh Vec3.same points).Pairwise fun p q => q.same p = false := by
  rw [← firsts_eq_fresh_points]
  exact pairwise_firsts Vec3.same id [] points

/-- A point is looked up at a point that is the same, if that is the same as none before it. -/
theorem placeOf_eq {points : List Vec3} {i : Nat} {p q : Vec3} (hp : points[i]? = some p)
    (hsame : p.same q) (hnew : ∀ r ∈ points.take i, p.same r = false) : placeOf points q = i := by
  have htrans : ∀ u v w : Vec3, u.same v → v.same w → u.same w := fun _ _ _ => Vec3.same_trans
  rw [Vec3.same_comm] at hsame
  exact findIdx_eq_of_mem_freshPlaces Vec3.same_comm htrans (mem_freshPlaces_iff.2 ⟨p, hp, hnew⟩)
    hp hsame

/-! ### Points that were sorted -/

namespace SortedPoints

variable {points rows : List Vec3} {first inverse : List Nat}

theorem mem_first_iff (h : SortedPoints points rows first inverse) {i : Nat} :
    i ∈ first ↔ i ∈ freshPlaces Vec3.same points := by
  rw [h.first, List.mem_map, mem_freshPlaces_iff]
  constructor
  · rintro ⟨r, hr, rfl⟩
    have hfound := h.sound r hr
    refine ⟨pointFor points r, getElem?_placeOf hfound, fun b hb => ?_⟩
    obtain ⟨j, hj, rfl⟩ := List.mem_take_iff_getElem.1 hb
    have hbefore : r.same points[j] = false := List.not_of_lt_findIdx (Nat.lt_min.1 hj).1
    have hself := same_pointFor hfound
    rw [Vec3.same_comm] at hself
    rw [Bool.eq_false_iff]
    exact fun hsame => Bool.eq_false_iff.1 hbefore (Vec3.same_trans hself hsame)
  · rintro ⟨a, ha, hnew⟩
    obtain ⟨r, hr, hsame⟩ := h.complete a (List.mem_of_getElem? ha)
    exact ⟨r, hr, placeOf_eq ha hsame hnew⟩

theorem nodup_first (h : SortedPoints points rows first inverse) : first.Nodup := by
  rw [h.first, List.Nodup, List.pairwise_map]
  refine h.ascending.imp_of_mem fun {r r'} hr hr' hless he => ?_
  have hplace := getElem?_placeOf (h.sound r hr)
  rw [he, getElem?_placeOf (h.sound r' hr')] at hplace
  have hsame := same_pointFor (h.sound r hr)
  rw [← Option.some.inj hplace, Vec3.same_comm] at hsame
  have hless' := Vec3.not_less_of_same (Vec3.same_trans hsame (same_pointFor (h.sound r' hr')))
  exact absurd hless (by simp [hless'])

/-- **The first places in their order** are those of the points that are the same as none before. -/
theorem map_argsort_first (h : SortedPoints points rows first inverse) :
    (argsort first).map (fun i => first.getD i 0) = freshPlaces Vec3.same points := by
  have hperm : (freshPlaces Vec3.same points).Perm first := by
    refine (List.perm_ext_iff_of_nodup ?_ h.nodup_first).2 fun i => h.mem_first_iff.symm
    exact (pairwise_freshPlaces _ _).imp Nat.ne_of_lt
  refine ((map_argsort_perm first).trans hperm.symm).eq_of_pairwise (fun _ _ _ _ => Nat.le_antisymm)
    (pairwise_map_argsort first) ?_
  exact (pairwise_freshPlaces _ _).imp Nat.le_of_lt

theorem map_argsort (h : SortedPoints points rows first inverse) (d : Vec3) :
    (argsort first).map (fun i => points.getD (first.getD i 0) d) = fresh Vec3.same points := by
  rw [← map_freshPlaces Vec3.same points d, ← h.map_argsort_first, List.map_map]
  rfl

/-- The first place of the row of a point. -/
theorem getD_first (h : SortedPoints points rows first inverse) {p : Vec3} (hp : p ∈ points)
    (d : Vec3) : (points.getD (first.getD (placeOf rows p) 0) d).same p := by
  have hrow := getElem?_placeOf (h.complete p hp)
  have hplace : first.getD (placeOf rows p) 0 = placeOf points (pointFor rows p) := by
    rw [h.first, List.getD_eq_getElem?_getD, List.getElem?_map, hrow, Option.map_some,
      Option.getD_some]
  have hfound := h.sound _ (List.mem_of_getElem? hrow)
  rw [hplace, List.getD_eq_getElem?_getD, getElem?_placeOf hfound, Option.getD_some]
  exact Vec3.same_trans (same_pointFor hfound) (same_pointFor (h.complete p hp))

/-- **The renumbered places** of the points are those among the points that are the same as none
before. -/
theorem map_ranksOf (h : SortedPoints points rows first inverse) :
    (inverse.map fun i => (ranksOf (argsort first)).getD i 0) =
      points.map (placeOf (fresh Vec3.same points)) := by
  rw [h.inverse, List.map_map]
  refine List.map_congr_left fun p hp => ?_
  have hlength : first.length = rows.length := by rw [h.first, List.length_map]
  have hlt : placeOf rows p < first.length :=
    hlength ▸ List.findIdx_lt_length.2 (h.complete p hp)
  have hperm := perm_argsort first
  obtain ⟨k, hk, hplace⟩ := List.mem_iff_getElem.1 (hperm.mem_iff.2 (List.mem_range.2 hlt))
  have hrank := getD_ranksOf (hperm.nodup_iff.2 List.nodup_range) hk
    (by rwa [hplace, hperm.length_eq, List.length_range])
  have hfresh : (fresh Vec3.same points)[k]? =
      some (points.getD (first.getD (placeOf rows p) 0) .zero) := by
    rw [← h.map_argsort .zero, List.getElem?_map, List.getElem?_eq_getElem hk, hplace]
    rfl
  rw [Function.comp_apply, ← hplace, hrank]
  refine (placeOf_eq hfresh (h.getD_first hp .zero) fun r hr => ?_).symm
  obtain ⟨j, hj, rfl⟩ := List.mem_take_iff_getElem.1 hr
  obtain ⟨hk', hp'⟩ := List.getElem?_eq_some_iff.1 hfresh
  rw [← hp']
  exact List.pairwise_iff_getElem.1 (pairwise_fresh points) j k _ hk' (Nat.lt_min.1 hj).1

end SortedPoints

/-! ### Faces -/

/-- The corners of faces are cut off one face after the other. -/
theorem cutFaces_map (g : Vec3 → Nat) (before : List Nat) (fs : List Face) :
    cutFaces (before ++ fs.flatten.map g) before.length fs =
      fs.flatMap fun f => f.map (fun p => (g p : Int)) ++ [faceEnd] := by
  induction fs generalizing before with
  | nil => rfl
  | cons f fs ih =>
    have hnext := ih (before ++ f.map g)
    rw [List.length_append, List.length_map] at hnext
    rw [cutFaces, List.flatMap_cons, List.flatten_cons, List.map_append, ← List.append_assoc, hnext]
    simp

/-- **Faces are put into the same indices by sorting their points.** -/
theorem IndexedFaces.renumbered_eq_ofFaces {fs : List Face} {rows : List Vec3}
    {first inverse : List Nat} (hne : ∀ f ∈ fs, f ≠ [])
    (h : SortedPoints fs.flatten rows first inverse) :
    renumbered first inverse fs = ofFaces fs := by
  have hcut := cutFaces_map (placeOf (fresh Vec3.same fs.flatten)) [] fs
  rw [List.nil_append, List.length_nil] at hcut
  cases fs with
  | nil => rfl
  | cons f fs =>
    have hcorner : (f :: fs).flatten.isEmpty ≠ true := by
      simp [hne f (List.mem_cons_self ..)]
    rw [ofFaces_eq hne, distinctPoints_eq_fresh, renumbered, if_neg hcorner]
    dsimp only
    rw [h.map_ranksOf, h.map_argsort, hcut, placesOf]

end SceneTidy
