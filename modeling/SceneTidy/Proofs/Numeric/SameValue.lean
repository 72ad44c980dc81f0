import SceneTidy.Field.Value

/-!
# The same by value

Two numbers are the same if they have one place on the number line; a number that is not a number
has none.  A point all of whose coordinates are numbers is the same as itself.  Points whose
coordinates have the same places cannot be told apart by comparing them (`Vec3.same_congr`,
`Vec3.less_congr`).
-/

namespace SceneTidy

namespace Binary64

variable {x x' y y' : Binary64}

/-- The place of a number on the number line. -/
def value? : Binary64 → Option Int
  | .nan => none
  | .num s r => some (position s r)

theorem same_iff : x.same y ↔ x.isNaN = false ∧ x.value? = y.value? := by
  cases x with
  | nan => simp [same, isNaN]
  | num s r =>
    cases y with
    | nan => simp [same, value?]
    | num t q => simp [same_num, isNaN, value?]

theorem same_comm (x y : Binary64) : x.same y = y.same x := by
  cases x with
  | nan => cases y <;> rfl
  | num s r =>
    cases y with
    | nan => rfl
    | num t q => rw [same_num, same_num, Bool.beq_comm]

theorem isNaN_eq (x : Binary64) : x.isNaN = x.value?.isNone := by
  cases x <;> rfl

theorem same_congr (hx : x.value? = x'.value?) (hy : y.value? = y'.value?) :
    x.same y = x'.same y' := by
  rw [Bool.eq_iff_iff, same_iff, same_iff, isNaN_eq, isNaN_eq, hx, hy]

theorem less_congr (hx : x.value? = x'.value?) (hy : y.value? = y'.value?) :
    x.less y = x'.less y' := by
  have hless : ∀ a b : Binary64, a.less b = true ↔
      ∃ i j, a.value? = some i ∧ b.value? = some j ∧ i < j := by
    intro a b
    cases a <;> cases b <;> simp [less, value?]
  rw [Bool.eq_iff_iff, hless, hless, hx, hy]

theorem less_self (x : Binary64) : x.less x = false := by
  cases x <;> simp [less]

end Binary64

namespace Vec3

variable {v v' w w' : Vec3}

/-- The numbers of a point. -/
def numbers (v : Vec3) : List Binary64 := [v.x, v.y, v.z]

/-- All coordinates of a point are numbers. -/
def IsNumber (v : Vec3) : Prop := ∀ x ∈ v.numbers, x.isNaN = false

theorem same_self (h : v.IsNumber) : v.same v := by
  have hx : ∀ x ∈ v.numbers, x.same x := fun x hx => Binary64.same_iff.2 ⟨h x hx, rfl⟩
  simp only [numbers, List.forall_mem_cons] at hx
  simp only [same, Bool.and_eq_true]
  exact ⟨⟨hx.1, hx.2.1⟩, hx.2.2.1⟩

theorem same_comm (v w : Vec3) : v.same w = w.same v := by
  simp only [same, Binary64.same_comm]

/-- The places of the coordinates on the number line. -/
def values (v : Vec3) : List (Option Int) := v.numbers.map Binary64.value?

theorem values_eq_iff : v.values = w.values ↔
    v.x.value? = w.x.value? ∧ v.y.value? = w.y.value? ∧ v.z.value? = w.z.value? := by
  simp [values, numbers]

theorem values_of_same (h : v.same w) : v.values = w.values := by
  simp only [same, Bool.and_eq_true, Binary64.same_iff] at h
  exact values_eq_iff.2 ⟨h.1.1.2, h.1.2.2, h.2.2⟩

theorem same_congr (hv : v.values = v'.values) (hw : w.values = w'.values) :
    v.same w = v'.same w' := by
  obtain ⟨hvx, hvy, hvz⟩ := values_eq_iff.1 hv
  obtain ⟨hwx, hwy, hwz⟩ := values_eq_iff.1 hw
  rw [same, same, Binary64.same_congr hvx hwx, Binary64.same_congr hvy hwy,
    Binary64.same_congr hvz hwz]

theorem same_trans (h : v'.same v) (h' : v.same w) : v'.same w :=
  same_congr rfl (values_of_same h') ▸ h

theorem less_congr (hv : v.values = v'.values) (hw : w.values = w'.values) :
    v.less w = v'.less w' := by
  obtain ⟨hvx, hvy, hvz⟩ := values_eq_iff.1 hv
  obtain ⟨hwx, hwy, hwz⟩ := values_eq_iff.1 hw
  rw [less, less, Binary64.same_congr hvx hwx, Binary64.less_congr hvx hwx,
    Binary64.same_congr hvy hwy, Binary64.less_congr hvy hwy, Binary64.less_congr hvz hwz]

theorem not_less_of_same (h : v.same w) : v.less w = false := by
  rw [less_congr (values_of_same h) rfl, less]
  simp [Binary64.less_self]

end Vec3

end SceneTidy
