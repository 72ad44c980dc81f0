import Mathlib.Data.List.Lex
import Mathlib.Data.List.Perm.Basic
import Mathlib.Data.List.Rotate
import Mathlib.Data.Prod.Lex
import Mathlib.Order.Bounds.Basic
import SceneTidy.Proofs.Geometry.FaceKeys

/-!
# Which faces have the same key

Points that are numbers are ordered by the places of their coordinates on the number line, and faces
by those of their points (`Vec3.less_iff_places`, `Face.less_iff_places`).  So the sorted key of a
face is its ascending permutation, and the cycle key is the least of its rotations
(`Face.isLeast_cycleKey`).  Main statement: two faces have the same key exactly if one is a
permutation of the other, or a rotation of it where the winding matters (`Face.exists_keys`).
-/

namespace SceneTidy

namespace Binary64

variable {x y : Binary64}

/-- The place on the number line, for what is a number. -/
def place (x : Binary64) : ℤ := x.value?.getD 0

theorem same_iff_place (hx : x.isNaN = false) (hy : y.isNaN = false) :
    x.same y ↔ x.place = y.place := by
  cases x with
  | nan => cases hx
  | num s r =>
    cases y with
    | nan => cases hy
    | num t q => simp [same_num, place, value?]

theorem less_iff_place (hx : x.isNaN = false) (hy : y.isNaN = false) :
    x.less y ↔ x.place < y.place := by
  cases x with
  | nan => cases hx
  | num s r =>
    cases y with
    | nan => cases hy
    | num t q => simp [less, place, value?]

end Binary64

namespace Vec3

variable {v w : Vec3}

/-- The places of the coordinates on the number line, in lexicographic order. -/
def places (v : Vec3) : ℤ ×ₗ ℤ ×ₗ ℤ := toLex (v.x.place, toLex (v.y.place, v.z.place))

theorem IsNumber.coordinates (h : v.IsNumber) :
    v.x.isNaN = false ∧ v.y.isNaN = false ∧ v.z.isNaN = false := by
  simpa [IsNumber, numbers] using h

theorem same_iff_places (hv : v.IsNumber) (hw : w.IsNumber) : v.same w ↔ v.places = w.places := by
  obtain ⟨hvx, hvy, hvz⟩ := hv.coordinates
  obtain ⟨hwx, hwy, hwz⟩ := hw.coordinates
  simp [same, places, Binary64.same_iff_place, hvx, hvy, hvz, hwx, hwy, hwz, and_assoc]

theorem less_iff_places (hv : v.IsNumber) (hw : w.IsNumber) : v.less w ↔ v.places < w.places := by
  obtain ⟨hvx, hvy, hvz⟩ := hv.coordinates
  obtain ⟨hwx, hwy, hwz⟩ := hw.coordinates
  have hx := Binary64.same_iff_place hvx hwx
  have hy := Binary64.same_iff_place hvy hwy
  rw [places, places, Prod.Lex.toLex_lt_toLex, Prod.Lex.toLex_lt_toLex, less]
  by_cases hsx : v.x.same w.x
  · have hex := hx.1 hsx
    by_cases hsy : v.y.same w.y
    · have hey := hy.1 hsy
      simp [hsx, hsy, hex, hey, Binary64.less_iff_place hvz hwz]
    · have hey := mt hy.2 hsy
      simp [hsx, hsy, hex, hey, Binary64.less_iff_place hvy hwy]
  · have hex := mt hx.2 hsx
    simp [hsx, hex, Binary64.less_iff_place hvx hwx]

end Vec3

/-! ### Sorted lists and least members -/

theorem mergeSort_eq_iff_perm {α : Type} [LinearOrder α] {as bs : List α} :
    as.mergeSort (· ≤ ·) = bs.mergeSort (· ≤ ·) ↔ as.Perm bs := by
  have hsorted : ∀ l : List α, (l.mergeSort (· ≤ ·)).Pairwise (· ≤ ·) := fun l =>
    (List.pairwise_mergeSort (by simpa using fun _ _ _ => le_trans) (by simpa using le_total)
      l).imp of_decide_eq_true
  constructor
  · intro h
    exact (List.mergeSort_perm as _).symm.trans (h ▸ List.mergeSort_perm bs _)
  · intro h
    have hsort : ∀ l : List α, (l.mergeSort (· ≤ ·)).Perm l := fun l => List.mergeSort_perm l _
    have hperm := (hsort as).trans (h.trans (hsort bs).symm)
    exact hperm.eq_of_pairwise (fun _ _ _ _ => le_antisymm) (hsorted as) (hsorted bs)

theorem leastFrom_mem {α : Type} (less : α → α → Bool) (least : α) (as : List α) :
    leastFrom less least as ∈ least :: as := by
  induction as generalizing least with
  | nil => exact List.mem_singleton_self least
  | cons a as ih =>
    rw [leastFrom]
    rcases List.mem_cons.1 (ih (if less a least then a else least)) with h | h
    · rw [h]
      split <;> simp
    · simp [h]

/-- The least member is no greater than any other, where the order is that of some places. -/
theorem leastFrom_le {α β : Type} [LinearOrder β] (place : α → β) {less : α → α → Bool} {least : α}
    {as : List α} (h : ∀ a ∈ least :: as, ∀ b ∈ least :: as, less a b ↔ place a < place b) :
    ∀ a ∈ least :: as, place (leastFrom less least as) ≤ place a := by
  induction as generalizing least with
  | nil => simp [leastFrom]
  | cons b as ih =>
    have hb := h b (by simp) least (by simp)
    have hle : place (if less b least then b else least) ≤ place b ∧
        place (if less b least then b else least) ≤ place least := by
      split
      · next hless => exact ⟨le_rfl, (hb.1 hless).le⟩
      · next hless => exact ⟨not_lt.1 (mt hb.2 hless), le_rfl⟩
    have hsub : (if less b least then b else least) :: as ⊆ least :: b :: as := by
      split <;> simp
    obtain ⟨hmin, hall⟩ := List.forall_mem_cons.1 (ih fun a ha c hc => h a (hsub ha) c (hsub hc))
    rw [leastFrom]
    exact List.forall_mem_cons.2 ⟨hmin.trans hle.2, List.forall_mem_cons.2 ⟨hmin.trans hle.1, hall⟩⟩

namespace Face

variable {f g h : Face}

/-- The places of the points of a face. -/
def places (f : Face) : List (ℤ ×ₗ ℤ ×ₗ ℤ) := f.map Vec3.places

theorem same_iff_places (hf : ∀ p ∈ f, p.IsNumber) (hg : ∀ p ∈ g, p.IsNumber) :
    f.same g ↔ f.places = g.places := by
  induction f generalizing g with
  | nil => cases g <;> simp [same, sameItems, places]
  | cons p f ih =>
    cases g with
    | nil => simp [same, sameItems, places]
    | cons q g =>
      obtain ⟨hp, hf⟩ := List.forall_mem_cons.1 hf
      obtain ⟨hq, hg⟩ := List.forall_mem_cons.1 hg
      have hrest : sameItems Vec3.same f g ↔ places f = places g := ih hf hg
      rw [same, sameItems, Bool.and_eq_true, Vec3.same_iff_places hp hq, hrest, places, places,
        places, places, List.map_cons, List.map_cons, List.cons.injEq]

theorem less_iff_places (hf : ∀ p ∈ f, p.IsNumber) (hg : ∀ p ∈ g, p.IsNumber) :
    f.less g ↔ f.places < g.places := by
  induction f generalizing g with
  | nil => cases g <;> simp [less, places]
  | cons p f ih =>
    cases g with
    | nil => simp [less, places]
    | cons q g =>
      obtain ⟨hp, hf⟩ := List.forall_mem_cons.1 hf
      obtain ⟨hq, hg⟩ := List.forall_mem_cons.1 hg
      have hrest : less f g ↔ places f < places g := ih hf hg
      have hsame := Vec3.same_iff_places hp hq
      rw [less, places, places, List.map_cons, List.map_cons, List.cons_lt_cons_iff]
      split
      · next hpq =>
        have he := hsame.1 hpq
        rw [hrest, he]
        simp [places]
      · next hpq =>
        have hne := mt hsame.2 hpq
        rw [Vec3.less_iff_places hp hq]
        simp [hne]

/-! ### The sorted key -/

theorem places_sortedKey (hf : ∀ p ∈ f, p.IsNumber) :
    places f.sortedKey = f.places.mergeSort (· ≤ ·) := by
  refine List.map_mergeSort fun p hp q hq => ?_
  rw [Bool.eq_iff_iff, Bool.not_eq_true', ← Bool.not_eq_true,
    Vec3.less_iff_places (hf q hq) (hf p hp), not_lt, decide_eq_true_iff]

/-! ### The cycle key -/

theorem mem_rotations_iff : h ∈ f.rotations ↔ ∃ i < f.length, f.rotate i = h := by
  rw [rotations, List.mem_map]
  refine exists_congr fun i => ?_
  rw [List.mem_range]
  exact and_congr_right fun hi => by rw [List.rotate_eq_drop_append_take hi.le]

theorem isRotated_of_mem (hh : h ∈ f :: f.rotations) : h ~r f := by
  rcases List.mem_cons.1 hh with rfl | hh
  · exact .refl h
  · obtain ⟨i, -, rfl⟩ := mem_rotations_iff.1 hh
    exact .forall f i

theorem mem_of_isRotated (hh : h ~r f) : h ∈ f :: f.rotations := by
  obtain ⟨i, hi, rfl⟩ := List.isRotated_iff_mod.1 hh.symm
  rcases hi.lt_or_eq with hi | rfl
  · exact List.mem_cons_of_mem _ (mem_rotations_iff.2 ⟨i, hi, rfl⟩)
  · rw [List.rotate_length]
    exact List.mem_cons_self ..

/-- **The cycle key is the least rotation.** -/
theorem isLeast_cycleKey (hf : ∀ p ∈ f, p.IsNumber) :
    IsLeast {r | r ~r places f} (places f.cycleKey) := by
  have hnumber : ∀ h ∈ f :: f.rotations, ∀ p ∈ h, p.IsNumber := fun h hh p hp =>
    hf p ((isRotated_of_mem hh).mem_iff.1 hp)
  constructor
  · exact (isRotated_of_mem (leastFrom_mem less f f.rotations)).map Vec3.places
  · intro r hr
    obtain ⟨i, rfl⟩ := List.IsRotated.symm hr
    have hmem : f.rotate i ∈ f :: f.rotations := mem_of_isRotated (.forall f i)
    have hle : places f.cycleKey ≤ places (f.rotate i) :=
      leastFrom_le places (fun h hh k hk => less_iff_places (hnumber h hh) (hnumber k hk)) _ hmem
    rwa [places, places, List.map_rotate] at hle

/-! ### Classes of faces -/

/-- A face is a permutation of another one by value if it has the same points as one. -/
theorem exists_perm_iff (hf : ∀ p ∈ f, p.IsNumber) (hg : ∀ p ∈ g, p.IsNumber) :
    (∃ h : Face, h.Perm f ∧ Face.same g h) ↔ (places f).Perm (places g) := by
  constructor
  · rintro ⟨h, hperm, hsame⟩
    have hh : ∀ p ∈ h, p.IsNumber := fun p hp => hf p (hperm.mem_iff.1 hp)
    rw [(same_iff_places hg hh).1 hsame]
    exact (hperm.map Vec3.places).symm
  · intro hperm
    have hstand : List.Forall₂ (fun a p => a = Vec3.places p) (places f) f :=
      List.forall₂_map_right_iff.1 (List.forall₂_eq_eq_eq ▸ rfl)
    obtain ⟨h, hgh, hh⟩ := List.perm_comp_forall₂ hperm.symm hstand
    have he : places g = places h :=
      List.forall₂_eq_eq_eq ▸ List.forall₂_map_right_iff.2 hgh
    exact ⟨h, hh, (same_iff_places hg fun p hp => hf p (hh.mem_iff.1 hp)).2 he⟩

theorem exists_isRotated_iff (hf : ∀ p ∈ f, p.IsNumber) (hg : ∀ p ∈ g, p.IsNumber) :
    (∃ h : Face, h ~r f ∧ Face.same g h) ↔ places f ~r places g := by
  constructor
  · rintro ⟨h, hturn, hsame⟩
    have hh : ∀ p ∈ h, p.IsNumber := fun p hp => hf p (hturn.mem_iff.1 hp)
    rw [(same_iff_places hg hh).1 hsame]
    exact (hturn.map Vec3.places).symm
  · rintro ⟨i, hi⟩
    have hh : ∀ p ∈ f.rotate i, p.IsNumber := fun p hp => hf p (List.mem_rotate.1 hp)
    refine ⟨f.rotate i, .forall f i, (same_iff_places hg hh).2 ?_⟩
    rw [← hi, places, places, List.map_rotate]

theorem same_sortedKey_iff (hf : ∀ p ∈ f, p.IsNumber) (hg : ∀ p ∈ g, p.IsNumber) :
    Face.same f.sortedKey g.sortedKey ↔ (places f).Perm (places g) := by
  have hf' : ∀ p ∈ f.sortedKey, p.IsNumber := fun p hp => hf p (List.mem_mergeSort.1 hp)
  have hg' : ∀ p ∈ g.sortedKey, p.IsNumber := fun p hp => hg p (List.mem_mergeSort.1 hp)
  rw [same_iff_places hf' hg', places_sortedKey hf, places_sortedKey hg, mergeSort_eq_iff_perm]

theorem same_cycleKey_iff (hf : ∀ p ∈ f, p.IsNumber) (hg : ∀ p ∈ g, p.IsNumber) :
    Face.same f.cycleKey g.cycleKey ↔ places f ~r places g := by
  have hturn : ∀ h : Face, h.cycleKey ~r h := fun h => isRotated_of_mem (leastFrom_mem less h _)
  have hf' : ∀ p ∈ f.cycleKey, p.IsNumber := fun p hp => hf p ((hturn f).mem_iff.1 hp)
  have hg' : ∀ p ∈ g.cycleKey, p.IsNumber := fun p hp => hg p ((hturn g).mem_iff.1 hp)
  have hleast := isLeast_cycleKey hf
  rw [same_iff_places hf' hg']
  constructor
  · intro he
    exact hleast.1.symm.trans (he ▸ (isLeast_cycleKey hg).1)
  · intro hfg
    have hall : {r | r ~r places f} = {r | r ~r places g} :=
      Set.ext fun r => ⟨fun hr => hr.trans hfg, fun hr => hr.trans hfg.symm⟩
    exact (hall ▸ hleast).unique (isLeast_cycleKey hg)

/-- Faces that have corners have keys. -/
theorem keys_eq {fs : List Face} (hne : ∀ f ∈ fs, f ≠ []) (w : Bool) :
    keys w fs = .ok (fs.map (key w)) := by
  have hany : fs.any List.isEmpty = false := by
    rw [List.any_eq_false]
    exact fun f hf he => hne f hf (List.isEmpty_iff.1 he)
  simp [keys, hany]

theorem keys_pair (hf : f ≠ []) (hg : g ≠ []) (w : Bool) :
    keys w [f, g] = .ok [f.key w, g.key w] :=
  keys_eq (by simp [hf, hg]) w

/-- **The keys of two faces are the same exactly if one face is a permutation of the other**, or
where the winding matters, a rotation of it.  Points count as equal if they are equal by value. -/
theorem exists_keys (hf : f ≠ []) (hg : g ≠ []) (hfn : ∀ p ∈ f, p.IsNumber)
    (hgn : ∀ p ∈ g, p.IsNumber) :
    (∃ k l, keys true [f, g] = .ok [k, l] ∧
      (Face.same k l ↔ ∃ h : Face, h.Perm f ∧ Face.same g h)) ∧
    ∃ k l, keys false [f, g] = .ok [k, l] ∧
      (Face.same k l ↔ ∃ h : Face, h ~r f ∧ Face.same g h) := by
  refine ⟨⟨_, _, keys_pair hf hg true, ?_⟩, _, _, keys_pair hf hg false, ?_⟩
  · rw [exists_perm_iff hfn hgn]
    exact same_sortedKey_iff hfn hgn
  · rw [exists_isRotated_iff hfn hgn]
    exact same_cycleKey_iff hfn hgn

/-- A face that has a corner twice. -/
def bowTie : Face :=
  [.zero, ⟨.infinity false, .zero, .zero⟩, .zero, ⟨.zero, .infinity false, .zero⟩]

/-- The same face from its third corner on, with a zero that has a sign. -/
def turnedBowTie : Face :=
  [⟨.ofDecimal true 0 0, .zero, .zero⟩, ⟨.zero, .infinity false, .zero⟩, .zero,
    ⟨.infinity false, .zero, .zero⟩]

theorem exists_keys_bowTie : bowTie ≠ [] ∧ turnedBowTie ≠ [] ∧ (∀ p ∈ bowTie, p.IsNumber) ∧
    (∀ p ∈ turnedBowTie, p.IsNumber) ∧
    (∃ k l, keys true [bowTie, turnedBowTie] = .ok [k, l] ∧
      (Face.same k l ↔ ∃ h : Face, h.Perm bowTie ∧ Face.same turnedBowTie h)) ∧
    ∃ k l, keys false [bowTie, turnedBowTie] = .ok [k, l] ∧
      (Face.same k l ↔ ∃ h : Face, h ~r bowTie ∧ Face.same turnedBowTie h) := by
  have hbowTie : ∀ p ∈ bowTie, ∀ x ∈ p.numbers, x.isNaN = false := by decide
  have hturned : ∀ p ∈ turnedBowTie, ∀ x ∈ p.numbers, x.isNaN = false := by decide
  exact ⟨by decide, by decide, hbowTie, hturned,
    exists_keys (by decide) (by decide) hbowTie hturned⟩

example : Face.same bowTie.cycleKey turnedBowTie.cycleKey = true := by decide +kernel

end Face

end SceneTidy
