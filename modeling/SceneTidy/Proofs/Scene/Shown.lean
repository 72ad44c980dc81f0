import SceneTidy.Proofs.Scene.Copy

/-!
# What copies show

Values that agree refer to the same nodes and hold the same strings.  So a copy shows what the other
scene shows, node by node.  Main statements: the nodes of a copy are those that it shows from its
root (`IsCopy.shownFrom_iff`), and it shows the same strings (`IsCopy.showsString_iff`).
-/

namespace SceneTidy

namespace FieldValue

variable {v w : FieldValue} {f : NodeId → NodeId}

/-- The strings of a value. -/
def strings : FieldValue → List String
  | one .string t => [t]
  | many .string ts => ts
  | _ => []

@[simp] theorem strings_relink (f : NodeId → NodeId) (v : FieldValue) :
    (v.relink f).strings = v.strings := by
  cases v <;> rfl

theorem eq_of_sameItems_string {as bs : List String}
    (h : sameItems (ItemKind.same .string) as bs = true) : as = bs := by
  induction as generalizing bs with
  | nil =>
    cases bs with
    | nil => rfl
    | cons b bs => cases h
  | cons a as ih =>
    cases bs with
    | nil => cases h
    | cons b bs =>
      rw [sameItems, Bool.and_eq_true] at h
      have hhead : a = b := by simpa [ItemKind.same] using h.1
      rw [hhead, ih h.2]

/-- Strings that are equal by value are equal. -/
theorem strings_of_same (h : v.same w) : v.strings = w.strings := by
  cases v with
  | one k a =>
    cases w with
    | one l b =>
      by_cases hk : l = k
      · subst hk
        cases l with
        | string =>
          have hab : a = b := by simpa [same, ItemKind.same] using h
          rw [hab]
        | _ => rfl
      · simp [same, hk] at h
    | _ => cases h
  | many k as =>
    cases w with
    | many l bs =>
      by_cases hk : l = k
      · subst hk
        cases l with
        | string =>
          have hab : sameItems (ItemKind.same .string) as bs = true := by simpa [same] using h
          exact eq_of_sameItems_string hab
        | _ => rfl
      · simp [same, hk] at h
    | _ => cases h
  | node t => cases w <;> first | rfl | cases h
  | nodes ts => cases w <;> first | rfl | cases h

theorem Agrees.strings_eq (h : v.Agrees w) : v.strings = w.strings := by
  rcases h with rfl | h
  · rfl
  · exact strings_of_same h

theorem Agrees.refs_eq (h : v.Agrees w) : v.refs = w.refs := by
  rcases h with rfl | h
  · rfl
  · exact refs_of_same h

end FieldValue

namespace Scene

variable {s t : Scene} {f : NodeId → NodeId} {a b : NodeId}

/-- A node that is shown holds a string in a field that files show. -/
def ShowsString (s : Scene) (text : String) : Prop :=
  ∃ a, s.ShownFrom s.root a ∧ ∃ n, s.node? a = some n ∧
    ∃ p ∈ n.slots, p.1.exposed = true ∧ text ∈ p.2.strings

namespace IsCopy

variable (h : s.IsCopy t f)

include h

/-- A node that is shown and its copy, field by field. -/
theorem exists_nodes (ha : s.ShownFrom s.root a) :
    ∃ n m, s.node? a = some n ∧ t.node? (f a) = some m ∧ m.kind = n.kind ∧
      ∀ d ∈ n.kind.fields, d.exposed = true → ((n.value d).relink f).Agrees (m.value d) := by
  obtain ⟨m, hm⟩ := Option.isSome_iff_exists.1 (h.bijOn.mapsTo ha)
  have hkind := h.kind a ha
  rw [kind?, kind?, hm, Option.map_some] at hkind
  obtain ⟨n, hn, hk⟩ := Option.map_eq_some_iff.1 hkind.symm
  refine ⟨n, m, hn, hm, hk.symm, fun d hd hx => ?_⟩
  obtain ⟨v, w, hv, hw, hvw⟩ := h.fields a n m ha hn hm d hd hx
  rwa [Node.value_of_get? hv, Node.value_of_get? hw]

/-- A copy shows what is shown, copied. -/
theorem shows_iff (ha : s.ShownFrom s.root a) :
    t.Shows (f a) b ↔ ∃ c, s.Shows a c ∧ f c = b := by
  obtain ⟨n, m, hn, hm, hk, hfields⟩ := h.exists_nodes ha
  have hrefs : ∀ d ∈ n.kind.fields, d.exposed = true →
      (m.value d).refs = (n.value d).refs.map f := fun d hd hx => by
    rw [← (hfields d hd hx).refs_eq, FieldValue.refs_relink]
  constructor
  · rintro ⟨m', hm', ⟨d, w⟩, hp, hx, hb⟩
    obtain rfl := Option.some.inj (hm.symm.trans hm')
    have hd : d ∈ n.kind.fields := hk ▸ Node.mem_fields_of_mem_slots hp
    rw [← Node.value_of_get? (Node.get?_of_mem_slots hp), hrefs d hd hx] at hb
    obtain ⟨c, hc, rfl⟩ := List.mem_map.1 hb
    exact ⟨c, ⟨n, hn, _, Node.mem_slots_value hd, hx, hc⟩, rfl⟩
  · rintro ⟨c, ⟨n', hn', ⟨d, v⟩, hp, hx, hc⟩, rfl⟩
    obtain rfl := Option.some.inj (hn.symm.trans hn')
    have hd := Node.mem_fields_of_mem_slots hp
    rw [← Node.value_of_get? (Node.get?_of_mem_slots hp)] at hc
    refine ⟨m, hm, _, Node.mem_slots_value (hk ▸ hd), hx, ?_⟩
    rw [hrefs d hd hx]
    exact List.mem_map_of_mem hc

/-- The nodes of a copy are those that it shows. -/
theorem shownFrom_iff : t.ShownFrom t.root b ↔ (t.node? b).isSome := by
  constructor
  · intro hb
    suffices hcopy : ∃ a, s.ShownFrom s.root a ∧ f a = b by
      obtain ⟨a, ha, rfl⟩ := hcopy
      exact h.bijOn.mapsTo ha
    induction hb with
    | refl => exact ⟨s.root, .refl, h.root⟩
    | tail _ hbc ih =>
      obtain ⟨a, ha, rfl⟩ := ih
      obtain ⟨c, hac, rfl⟩ := (h.shows_iff ha).1 hbc
      exact ⟨c, ha.tail hac, rfl⟩
  · intro hb
    obtain ⟨a, ha, rfl⟩ := h.bijOn.surjOn hb
    rw [← h.root]
    induction ha with
    | refl => exact .refl
    | @tail a c ha hac ih =>
      exact (ih (h.bijOn.mapsTo ha)).tail ((h.shows_iff ha).2 ⟨c, hac, rfl⟩)

/-- A copy shows the same strings. -/
theorem showsString_iff {text : String} : t.ShowsString text ↔ s.ShowsString text := by
  constructor
  · rintro ⟨b, hb, m, hm, ⟨d, w⟩, hp, hx, ht⟩
    obtain ⟨a, ha, rfl⟩ := h.bijOn.surjOn (h.shownFrom_iff.1 hb)
    obtain ⟨n, m', hn, hm', hk, hfields⟩ := h.exists_nodes ha
    obtain rfl := Option.some.inj (hm.symm.trans hm')
    have hd : d ∈ n.kind.fields := hk ▸ Node.mem_fields_of_mem_slots hp
    rw [← Node.value_of_get? (Node.get?_of_mem_slots hp), ← (hfields d hd hx).strings_eq,
      FieldValue.strings_relink] at ht
    exact ⟨a, ha, n, hn, _, Node.mem_slots_value hd, hx, ht⟩
  · rintro ⟨a, ha, n', hn', ⟨d, v⟩, hp, hx, ht⟩
    obtain ⟨n, m, hn, hm, hk, hfields⟩ := h.exists_nodes ha
    obtain rfl := Option.some.inj (hn.symm.trans hn')
    have hd := Node.mem_fields_of_mem_slots hp
    rw [← Node.value_of_get? (Node.get?_of_mem_slots hp), ← FieldValue.strings_relink f,
      (hfields d hd hx).strings_eq] at ht
    exact ⟨f a, h.shownFrom_iff.2 (h.bijOn.mapsTo ha), m, hm, _, Node.mem_slots_value (hk ▸ hd),
      hx, ht⟩

end IsCopy

end Scene

end SceneTidy
