import SceneTidy.Proofs.Geometry.FaceClasses
import SceneTidy.Proofs.Geometry.Renumbering

/-!
# The first face of each key

Of several items that are the same, the first one is the only one at a first place
(`exists_mem_freshPlaces`).  To keep the first of each class and then, of these, the first of each
coarser class comes to the same as to do the second alone (`firsts_firsts`), and faces that are the
same from another corner on are so in any order (`Face.sameKey_true_of_false`).  Main statement: the
distinct faces are those with a key that no face before has, every face has the key of exactly one
of them, which does not come after it, and the two kinds of keys go together
(`Face.exists_firstPlaces_distinct`).
-/

namespace SceneTidy

/-! ### Lists of items that are the same -/

section Items

variable {α : Type} {same : α → α → Bool}

theorem sameItems_comm (h : ∀ a b, same a b = same b a) (as bs : List α) :
    sameItems same as bs = sameItems same bs as := by
  induction as generalizing bs with
  | nil => cases bs <;> rfl
  | cons a as ih =>
    cases bs with
    | nil => rfl
    | cons b bs => rw [sameItems, sameItems, h, ih]

theorem sameItems_trans (h : ∀ a b c, same a b → same b c → same a c) {as bs cs : List α}
    (hab : sameItems same as bs) (hbc : sameItems same bs cs) : sameItems same as cs := by
  induction as generalizing bs cs with
  | nil =>
    cases bs with
    | nil => exact hbc
    | cons b bs => simp [sameItems] at hab
  | cons a as ih =>
    cases bs with
    | nil => simp [sameItems] at hab
    | cons b bs =>
      cases cs with
      | nil => simp [sameItems] at hbc
      | cons c cs =>
        simp only [sameItems, Bool.and_eq_true] at hab hbc ⊢
        exact ⟨h a b c hab.1 hbc.1, ih hab.2 hbc.2⟩

/-- The first item that is the same as some item stands at a first place. -/
theorem findIdx_mem_freshPlaces (htrans : ∀ a b c, same a b → same b c → same a c) {as : List α}
    {a : α} (h : ∃ b ∈ as, same a b) : as.findIdx (same a) ∈ freshPlaces same as := by
  have hlt : as.findIdx (same a) < as.length := List.findIdx_lt_length.2 h
  refine mem_freshPlaces_iff.2 ⟨_, List.getElem?_eq_getElem hlt, fun b hb => ?_⟩
  obtain ⟨j, hj, rfl⟩ := List.mem_take_iff_getElem.1 hb
  have hfound : same a as[as.findIdx (same a)] := List.findIdx_getElem (w := hlt)
  have hbefore : same a as[j] = false := List.not_of_lt_findIdx (by omega)
  rw [Bool.eq_false_iff]
  exact fun h => Bool.eq_false_iff.1 hbefore (htrans _ _ _ hfound h)

/-- An item is the same as exactly one at a first place, which does not come after it. -/
theorem exists_mem_freshPlaces (hcomm : ∀ a b, same a b = same b a)
    (htrans : ∀ a b c, same a b → same b c → same a c) {as : List α} {i : Nat} {a : α}
    (ha : as[i]? = some a) (hself : same a a) :
    ∃ k ∈ freshPlaces same as, k ≤ i ∧
      ∀ j ∈ freshPlaces same as, (∃ b ∈ as[j]?, same a b) ↔ j = k := by
  obtain ⟨hi, rfl⟩ := List.getElem?_eq_some_iff.1 ha
  have hmem : ∃ b ∈ as, same as[i] b := ⟨as[i], List.getElem_mem hi, hself⟩
  have hlt : as.findIdx (same as[i]) < as.length := List.findIdx_lt_length.2 hmem
  refine ⟨as.findIdx (same as[i]), findIdx_mem_freshPlaces htrans hmem, ?_, fun j hj => ?_⟩
  · by_contra hle
    exact Bool.eq_false_iff.1 (List.not_of_lt_findIdx (by omega)) hself
  · constructor
    · rintro ⟨b, hb, hsame⟩
      exact (findIdx_eq_of_mem_freshPlaces hcomm htrans hj hb hsame).symm
    · rintro rfl
      exact ⟨_, List.getElem?_eq_getElem hlt, List.findIdx_getElem (w := hlt)⟩

end Items

/-- **To keep the first of each class changes nothing about the first of each coarser class**, if
the items whose fine key was seen before are items whose coarse key was. -/
theorem firsts_firsts {α β γ : Type} {same : β → β → Bool} {same' : γ → γ → Bool} {key : α → β}
    {key' : α → γ} (htrans : ∀ a b c, same' a b → same' b c → same' a c) {as : List α}
    (hfine : ∀ a ∈ as, ∀ b ∈ as, same (key a) (key b) → same' (key' a) (key' b)) {seen : List β}
    {seen' : List γ}
    (hseen : ∀ a ∈ as, seen.any (same (key a)) → seen'.any (same' (key' a))) :
    firsts same' key' seen' (firsts same key seen as) = firsts same' key' seen' as := by
  induction as generalizing seen seen' with
  | nil => rfl
  | cons a as ih =>
    obtain ⟨hfineHead, hfineTail⟩ := List.forall_mem_cons.1 hfine
    obtain ⟨ha, has⟩ := List.forall_mem_cons.1 hseen
    have hfine' : ∀ b ∈ as, ∀ c ∈ as, same (key b) (key c) → same' (key' b) (key' c) :=
      fun b hb c hc => hfineTail b hb c (List.mem_cons_of_mem _ hc)
    have hhead : ∀ b ∈ as, same (key b) (key a) → same' (key' b) (key' a) := fun b hb =>
      hfineTail b hb a (List.mem_cons_self ..)
    rw [firsts, firsts]
    by_cases hold : seen.any (same (key a))
    · rw [if_pos hold, if_pos (ha hold)]
      exact ih hfine' has
    · rw [if_neg hold, firsts]
      by_cases hold' : seen'.any (same' (key' a))
      · -- an item that is as fine as the one at hand has a coarse key that was seen
        rw [if_pos hold', if_pos hold']
        refine ih hfine' fun b hb hany => ?_
        rw [List.any_cons, Bool.or_eq_true] at hany
        rcases hany with hba | hany
        · obtain ⟨k, hk, hak⟩ := List.any_eq_true.1 hold'
          exact List.any_eq_true.2 ⟨k, hk, htrans _ _ _ (hhead b hb hba) hak⟩
        · exact has b hb hany
      · rw [if_neg hold', if_neg hold']
        refine congrArg (a :: ·) (ih hfine' fun b hb hany => ?_)
        rw [List.any_cons, Bool.or_eq_true] at hany ⊢
        exact hany.imp (hhead b hb) (has b hb)

namespace Face

variable {f g h : Face} {w : Bool}

/-- Whether two faces have the same key. -/
def sameKey (w : Bool) (f g : Face) : Bool := Face.same (f.key w) (g.key w)

/-- The places of the faces whose key no face before them has.  Each face has the key of the face at
exactly one of these places, which does not come after it. -/
structure FirstPlaces (w : Bool) (fs : List Face) (places : List Nat) : Prop where
  ascending : places.Pairwise (· < ·)
  mem_iff : ∀ i, i ∈ places ↔ ∃ f ∈ fs[i]?, ∀ g ∈ fs.take i, sameKey w f g = false
  exists_one : ∀ i, ∀ f ∈ fs[i]?, ∃ k ∈ places, k ≤ i ∧
    ∀ j ∈ places, (∃ g ∈ fs[j]?, sameKey w f g) ↔ j = k

/-! ### Faces with the same key -/

theorem same_comm (f g : Face) : f.same g = g.same f := sameItems_comm Vec3.same_comm f g

theorem same_trans (hfg : f.same g) (hgh : g.same h) : f.same h := by
  have htrans : ∀ u v w : Vec3, u.same v → v.same w → u.same w := fun _ _ _ => Vec3.same_trans
  exact sameItems_trans htrans hfg hgh

theorem sameKey_comm (w : Bool) (f g : Face) : sameKey w f g = sameKey w g f := same_comm ..

theorem sameKey_trans (hfg : sameKey w f g) (hgh : sameKey w g h) : sameKey w f h :=
  same_trans hfg hgh

theorem sameKey_self (hf : ∀ p ∈ f, p.IsNumber) (w : Bool) : sameKey w f f := by
  cases w with
  | true => exact (same_sortedKey_iff hf hf).2 (.refl _)
  | false => exact (same_cycleKey_iff hf hf).2 (.refl _)

/-- A rotation is a permutation. -/
theorem sameKey_true_of_false (hf : ∀ p ∈ f, p.IsNumber) (hg : ∀ p ∈ g, p.IsNumber)
    (h : sameKey false f g) : sameKey true f g :=
  (same_sortedKey_iff hf hg).2 ((same_cycleKey_iff hf hg).1 h).perm

/-! ### Distinct faces -/

variable {fs : List Face}

theorem firstPlaces_freshPlaces (hnumber : ∀ f ∈ fs, ∀ p ∈ f, p.IsNumber) (w : Bool) :
    FirstPlaces w fs (freshPlaces (sameKey w) fs) where
  ascending := pairwise_freshPlaces _ _
  mem_iff _ := mem_freshPlaces_iff
  exists_one i f hf := by
    have hself := sameKey_self (hnumber f (List.mem_of_getElem? hf)) w
    exact exists_mem_freshPlaces (sameKey_comm w) (fun _ _ _ => sameKey_trans) hf hself

/-- The distinct faces are those at first places. -/
theorem distinct_eq_map (w : Bool) (fs : List Face) :
    distinct w fs = (freshPlaces (sameKey w) fs).map fun i => fs.getD i [] := by
  have htrans : ∀ f g h : Face, f.same g → g.same h → f.same h := fun _ _ _ => same_trans
  rw [distinct, firsts_eq_fresh (key w) htrans, map_freshPlaces]
  rfl

theorem pairwise_distinct (w : Bool) (fs : List Face) :
    (distinct w fs).Pairwise fun f g => sameKey w f g = false := by
  refine (pairwise_firsts Face.same (key w) [] fs).imp fun {f g} hgf => ?_
  rw [sameKey_comm]
  exact hgf

/-- The two kinds of keys go together. -/
theorem distinct_distinct (hnumber : ∀ f ∈ fs, ∀ p ∈ f, p.IsNumber) :
    distinct true (distinct false fs) = distinct true fs := by
  have htrans : ∀ f g h : Face, f.same g → g.same h → f.same h := fun _ _ _ => same_trans
  have hfine : ∀ f ∈ fs, ∀ g ∈ fs, Face.same (f.key false) (g.key false) →
      Face.same (f.key true) (g.key true) := fun f hf g hg =>
    sameKey_true_of_false (hnumber f hf) (hnumber g hg)
  refine firsts_firsts htrans hfine fun f _ hany => ?_
  simp at hany

/-- **The distinct faces are those whose key no face before them has**, so that no two of them have
the same key, and each face has the key of exactly one of them, which does not come after it.  Among
the faces that are distinct up to rotation, the same ones are distinct up to permutation as among
all faces. -/
theorem exists_firstPlaces_distinct (hne : ∀ f ∈ fs, f ≠ [])
    (hnumber : ∀ f ∈ fs, ∀ p ∈ f, p.IsNumber) :
    (∀ w, keys w fs = .ok (fs.map (key w)) ∧
      (∃ places, FirstPlaces w fs places ∧ distinct w fs = places.map fun i => fs.getD i []) ∧
      (distinct w fs).Pairwise fun f g => sameKey w f g = false) ∧
    distinct true (distinct false fs) = distinct true fs :=
  ⟨fun w => ⟨keys_eq hne w, ⟨_, firstPlaces_freshPlaces hnumber w, distinct_eq_map w fs⟩,
    pairwise_distinct w fs⟩, distinct_distinct hnumber⟩

/-- A triangle, the same one from its second corner on with a zero that has a sign, and the triangle
seen from its other side. -/
def leaves : List Face :=
  [[.zero, ⟨.infinity false, .zero, .zero⟩, ⟨.zero, .infinity false, .zero⟩],
    [⟨.infinity false, .zero, .zero⟩, ⟨.zero, .infinity false, .zero⟩,
      ⟨.ofDecimal true 0 0, .zero, .zero⟩],
    [⟨.zero, .infinity false, .zero⟩, ⟨.infinity false, .zero, .zero⟩, .zero]]

theorem exists_firstPlaces_leaves : (∀ f ∈ leaves, f ≠ []) ∧
    (∀ f ∈ leaves, ∀ p ∈ f, p.IsNumber) ∧
    (∀ w, keys w leaves = .ok (leaves.map (key w)) ∧
      (∃ places, FirstPlaces w leaves places ∧
        distinct w leaves = places.map fun i => leaves.getD i []) ∧
      (distinct w leaves).Pairwise fun f g => sameKey w f g = false) ∧
    distinct true (distinct false leaves) = distinct true leaves := by
  have hnumber : ∀ f ∈ leaves, ∀ p ∈ f, ∀ x ∈ p.numbers, x.isNaN = false := by decide +kernel
  exact ⟨by decide, hnumber, exists_firstPlaces_distinct (by decide) hnumber⟩

example : freshPlaces (sameKey false) leaves = [0, 2] := by decide +kernel

end Face

end SceneTidy
