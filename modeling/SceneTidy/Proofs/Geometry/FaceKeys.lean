import Mathlib.Data.List.Basic
import SceneTidy.Proofs.Geometry.FaceLists

/-!
# Keys of faces that are read back

Keys are found by comparing points, so that points of the same values may stand for those of a face:
its key then has the points that stand for those of the key (`Face.key_map`).  Main statement: the
distinct faces that were put into indices are distinct when they are read back, and are put into
the same indices again (`exists_readBack`).
-/

namespace SceneTidy

/-- Points stand for points of the same values. -/
def KeepsValues (g : Vec3 → Vec3) : Prop := ∀ p, (g p).values = p.values

theorem leastFrom_map {α : Type} {less : α → α → Bool} {g : α → α}
    (h : ∀ a b, less (g a) (g b) = less a b) (least : α) (as : List α) :
    leastFrom less (g least) (as.map g) = g (leastFrom less least as) := by
  induction as generalizing least with
  | nil => rfl
  | cons a as ih =>
    rw [List.map_cons, leastFrom, leastFrom, h, ← ih]
    split <;> rfl

variable {g : Vec3 → Vec3}

namespace KeepsValues

variable (hg : KeepsValues g)

include hg

theorem same (p q : Vec3) : (g p).same (g q) = p.same q := Vec3.same_congr (hg p) (hg q)

theorem less (p q : Vec3) : (g p).less (g q) = p.less q := Vec3.less_congr (hg p) (hg q)

theorem same_map (f f' : Face) : Face.same (f.map g) (f'.map g) = Face.same f f' := by
  induction f generalizing f' with
  | nil => cases f' <;> rfl
  | cons p f ih =>
    cases f' with
    | nil => rfl
    | cons q f' =>
      have hrest : sameItems Vec3.same (f.map g) (f'.map g) = sameItems Vec3.same f f' := ih f'
      rw [Face.same, Face.same, List.map_cons, List.map_cons, sameItems, sameItems, hg.same, hrest]

theorem less_map (f f' : Face) : Face.less (f.map g) (f'.map g) = Face.less f f' := by
  induction f generalizing f' with
  | nil => cases f' <;> rfl
  | cons p f ih =>
    cases f' with
    | nil => rfl
    | cons q f' =>
      rw [List.map_cons, List.map_cons, Face.less, Face.less, hg.same, hg.less, ih]

theorem sortedKey_map (f : Face) : Face.sortedKey (f.map g) = (Face.sortedKey f).map g :=
  (List.map_mergeSort fun p _ q _ => by rw [hg.less]).symm

theorem cycleKey_map (f : Face) : Face.cycleKey (f.map g) = (Face.cycleKey f).map g := by
  have hrotations : Face.rotations (f.map g) = (Face.rotations f).map (List.map g) := by
    rw [Face.rotations, Face.rotations, List.length_map, List.map_map]
    refine List.map_congr_left fun i _ => ?_
    rw [Function.comp_apply, List.map_append, List.map_drop, List.map_take]
  rw [Face.cycleKey, Face.cycleKey, hrotations]
  exact leastFrom_map hg.less_map f _

theorem key_map (w : Bool) (f : Face) : Face.key w (f.map g) = (Face.key w f).map g := by
  cases w with
  | true => exact hg.sortedKey_map f
  | false => exact hg.cycleKey_map f

/-- Distinct faces stay so if other points of the same values stand for their corners. -/
theorem distinct_map (w : Bool) (fs : List Face) :
    Face.distinct w ((Face.distinct w fs).map (List.map g)) =
      (Face.distinct w fs).map (List.map g) := by
  refine firsts_eq_self (fun _ _ k hk => absurd hk List.not_mem_nil) (List.pairwise_map.2 ?_)
  refine (pairwise_firsts Face.same (Face.key w) [] fs).imp fun {f f'} hff => ?_
  rw [hg.key_map, hg.key_map, hg.same_map, hff]

theorem distinctPoints_map (fs : List Face) :
    Face.distinctPoints (fs.map (List.map g)) = (Face.distinctPoints fs).map g := by
  have hkey : ∀ p : Vec3, id (g p) = g (id p) := fun _ => rfl
  rw [Face.distinctPoints, Face.distinctPoints, ← List.map_flatten]
  exact firsts_map hkey hg.same [] fs.flatten

theorem placesOf_map (points : List Vec3) (fs : List Face) :
    placesOf points (fs.map (List.map g)) = placesOf points fs := by
  have hplace : ∀ p, placeOf points (g p) = placeOf points p := fun p =>
    congrArg points.findIdx (funext fun q => Vec3.same_congr (hg p) rfl)
  rw [placesOf, placesOf, List.flatMap_map]
  refine List.flatMap_congr fun f _ => ?_
  rw [List.map_map]
  exact congrArg (· ++ [faceEnd]) (List.map_congr_left fun p _ => congrArg Int.ofNat (hplace p))

end KeepsValues

theorem keepsValues_pointFor (points : List Vec3) : KeepsValues (pointFor points) := by
  intro p
  by_cases h : ∃ q ∈ points, p.same q
  · exact Vec3.values_of_same (same_pointFor h)
  · have hlt : ¬placeOf points p < points.length := fun hlt => h (List.findIdx_lt_length.1 hlt)
    rw [pointFor, List.getElem?_eq_none (Nat.le_of_not_lt hlt), Option.getD_none]

variable {fs : List Face}

theorem pairwise_distinctPoints (fs : List Face) :
    (Face.distinctPoints fs).Pairwise fun p q => q.same p = false :=
  pairwise_firsts Vec3.same id [] fs.flatten

/-- A distinct point is a corner of a face. -/
theorem exists_of_mem_distinctPoints {p : Vec3} (hp : p ∈ Face.distinctPoints fs) :
    ∃ f ∈ fs, p ∈ f :=
  List.mem_flatten.1 ((firsts_sublist _ _ _ _).subset hp)

/-- A distinct point is looked up at its own place. -/
theorem placeOf_distinctPoints (hnumber : ∀ f ∈ fs, ∀ p ∈ f, p.IsNumber) {i : Nat}
    (hi : i < (Face.distinctPoints fs).length) :
    placeOf (Face.distinctPoints fs) (Face.distinctPoints fs)[i] = i := by
  obtain ⟨f, hf, hpf⟩ := exists_of_mem_distinctPoints (List.getElem_mem hi)
  exact (List.findIdx_eq hi).2 ⟨Vec3.same_self (hnumber f hf _ hpf), fun j hji =>
    List.pairwise_iff_getElem.1 (pairwise_distinctPoints fs) j i (Nat.lt_trans hji hi) hi hji⟩

/-- A distinct point stands for itself. -/
theorem pointFor_distinctPoints (hnumber : ∀ f ∈ fs, ∀ p ∈ f, p.IsNumber) {p : Vec3}
    (hp : p ∈ Face.distinctPoints fs) : pointFor (Face.distinctPoints fs) p = p := by
  obtain ⟨i, hi, rfl⟩ := List.mem_iff_getElem.1 hp
  rw [pointFor, placeOf_distinctPoints hnumber hi, List.getElem?_eq_getElem hi, Option.getD_some]

/-- Faces with the points that stand for their corners are put into the same indices. -/
theorem ofFaces_map_pointFor (hne : ∀ f ∈ fs, f ≠ []) (hnumber : ∀ f ∈ fs, ∀ p ∈ f, p.IsNumber) :
    IndexedFaces.ofFaces (fs.map (List.map (pointFor (Face.distinctPoints fs)))) =
      IndexedFaces.ofFaces fs := by
  have hg := keepsValues_pointFor (Face.distinctPoints fs)
  have hne' : ∀ f ∈ fs.map (List.map (pointFor (Face.distinctPoints fs))), f ≠ [] :=
    List.forall_mem_map.2 fun f hf he => hne f hf (List.map_eq_nil_iff.1 he)
  have hpoints : (Face.distinctPoints fs).map (pointFor (Face.distinctPoints fs)) =
      Face.distinctPoints fs :=
    (List.map_congr_left fun p hp => pointFor_distinctPoints hnumber hp).trans (List.map_id _)
  rw [ofFaces_eq hne', ofFaces_eq hne, hg.distinctPoints_map, hpoints, hg.placesOf_map]

/-- **Distinct faces that are read back are put into the same indices again.** -/
theorem exists_readBack (w : Bool) (hne : ∀ f ∈ fs, f ≠ [])
    (hnumber : ∀ f ∈ fs, ∀ p ∈ f, p.IsNumber) :
    ∃ drawn, facesOfIndices (IndexedFaces.ofFaces (Face.distinct w fs)).points
        (IndexedFaces.ofFaces (Face.distinct w fs)).indices = .ok drawn ∧
      IndexedFaces.ofFaces (Face.distinct w drawn) = IndexedFaces.ofFaces (Face.distinct w fs) := by
  have hsub : Face.distinct w fs ⊆ fs := (firsts_sublist _ _ _ _).subset
  have hne' : ∀ f ∈ Face.distinct w fs, f ≠ [] := fun f hf => hne f (hsub hf)
  have hnumber' : ∀ f ∈ Face.distinct w fs, ∀ p ∈ f, p.IsNumber := fun f hf =>
    hnumber f (hsub hf)
  refine ⟨_, facesOfIndices_ofFaces_eq hne' hnumber', ?_⟩
  rw [(keepsValues_pointFor _).distinct_map, ofFaces_map_pointFor hne' hnumber']

end SceneTidy
