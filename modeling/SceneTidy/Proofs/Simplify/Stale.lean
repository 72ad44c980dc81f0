import SceneTidy.Proofs.Simplify.Replacing

/-!
# Replaced nodes that are still referred to

A node met while it is being cleaned stands for itself, and may get a replacement later.  If it has
other nodes in its place at the end, then it is a group or a transform that has been met from below,
so that it lies on a cycle.  The invariant says so of all that the finished nodes refer to
(`CleanState.Stays`, `CleanState.Tracked`).  Main statement: a cleaned scene refers to a node that
has another replacement only where that node lies on a cycle (`Scene.exists_refersCleaned`), which
happens in a scene of two nodes below the root (`Scene.not_replacesAlike_wheel`).
-/

namespace SceneTidy

namespace CleanState

variable {s : Scene} {values : CleanValues} {id x y r : NodeId} {pending pending' : List NodeId}
  {st st₁ : CleanState} {n : Node}

/-! ### What may stay in a slot -/

/-- A node may stay where it is referred to: it is not there at all, or it stands for itself for
good, or it lies on a cycle and is of a kind that may make way for an only child. -/
inductive Stays (s : Scene) (pending : List NodeId) (st : CleanState) (r : NodeId) : Prop
  | gone (h : s.node? r = none)
  | fixed (h : st.replacement? r = some r)
      (hk : r ∈ pending → ∀ n, s.node? r = some n → n.kind.isPassed = false)
  | looped (h : (st.replacement? r).isSome) (hk : ∃ n, s.node? r = some n ∧ n.kind.isPassed = true)
      (hr : Relation.TransGen s.Refers r r)

/-- A node was met, and what lies below it has been cleaned, unless that is still being done; it is
not an appearance that made way at once. -/
def Visited (s : Scene) (st : CleanState) (id : NodeId) : Prop :=
  (st.replacement? id).isSome ∧ (s.kind? id ≠ some .appearance ∨ st.replacement? id = some id)

/-- Every replacement of one state is one of another. -/
def Recalls (st st₁ : CleanState) : Prop :=
  ∀ x r, st.replacement? x = some r → st₁.replacement? x = some r

theorem Grows.recalls (h : Grows [] st st₁) : Recalls st st₁ := fun x r hr =>
  h.replacement x List.not_mem_nil r hr

theorem Stays.carry (h : Stays s pending st r) (hrec : Recalls st st₁)
    (hpending : ∀ x, (st.replacement? x).isSome → x ∈ pending' → x ∈ pending) :
    Stays s pending' st₁ r := by
  cases h with
  | gone h => exact .gone h
  | fixed h hk =>
    exact .fixed (hrec r r h) fun hr => hk (hpending r (by rw [h]; rfl) hr)
  | looped h hk hr =>
    obtain ⟨q, hq⟩ := Option.isSome_iff_exists.1 h
    exact .looped (by rw [hrec r q hq]; rfl) hk hr

/-- What may stay may do so when a pending node is finished, if only a group or a transform gets
another replacement. -/
theorem Stays.close {q : NodeId} (h : Stays s (id :: pending) st r) (hrenamed : Renamed id q st st₁)
    (hn : s.node? id = some n) (hkeep : n.kind.isPassed = false → q = id) :
    Stays s pending st₁ r := by
  cases h with
  | gone h => exact .gone h
  | fixed h hk =>
    refine .fixed ?_ fun hr => hk (List.mem_cons_of_mem _ hr)
    by_cases hne : r = id
    · subst hne
      rw [hrenamed.replacement_self, hkeep (hk (List.mem_cons_self ..) n hn)]
    · rw [hrenamed.replacement_of_ne hne, h]
  | looped h hk hr =>
    refine .looped ?_ hk hr
    rw [hrenamed.replacement]
    split
    · rfl
    · exact h

/-- A node that is referred to for good has been visited, or is not there. -/
theorem Stays.visited (h : Stays s [] st r) : s.node? r = none ∨ Visited s st r := by
  cases h with
  | gone h => exact .inl h
  | fixed h _ => exact .inr ⟨by rw [h]; rfl, .inr h⟩
  | looped h hk _ =>
    obtain ⟨n, hn, hk⟩ := hk
    refine .inr ⟨h, .inl fun he => ?_⟩
    rw [Scene.kind?_of_node? hn] at he
    rw [Option.some.inj he] at hk
    cases hk

/-! ### The invariant -/

/-- What else holds while a scene is cleaned: replacements and the references of finished nodes may
stay, a first appearance stands for itself, and every appearance met has the first one of its
material for its replacement. -/
structure Tracked (s : Scene) (values : CleanValues) (pending : List NodeId) (st : CleanState) :
    Prop where
  loose : Loose s values pending st
  answers : ∀ x ∉ pending, ∀ r, st.replacement? x = some r → Stays s pending st r
  held : ∀ x ∉ pending, Visited s st x → ∀ y ∈ st.scene.refs x, Stays s pending st y
  noted : ∀ material a, st.first? material = some a → st.replacement? a = some a
  firsts : ∀ x r n material, st.replacement? x = some r → s.node? x = some n →
    materialOf n = some material → st.first? material = some r

theorem tracked_empty (s : Scene) (values : CleanValues) : Tracked s values [] ⟨s, .empty⟩ where
  loose := loose_empty s values
  answers _ _ _ h := by cases h
  held _ _ h := by cases h.1
  noted _ _ h := by cases h
  firsts _ _ _ _ h := by cases h

/-- The kind of an appearance with a material is none that is passed. -/
theorem not_isPassed_of_materialOf {material : NodeId} (h : materialOf n = some material) :
    n.kind.isPassed = false := by
  rw [(materialOf_eq_some.1 h).1]
  rfl

namespace Tracked

/-- The first appearance of a material may stay. -/
theorem stays_first {material a : NodeId} (h : Tracked s values pending st)
    (ha : st.first? material = some a) : Stays s pending st a := by
  refine .fixed (h.noted material a ha) fun _ k hk => ?_
  have hkind := h.loose.first material a ha
  rw [Scene.kind?_of_node? hk] at hkind
  rw [Option.some.inj hkind]
  rfl

/-- The replacement of a node that has been met may stay.  If the node is pending, then it stands
for itself and has been met from below. -/
theorem stays_replacement (h : Tracked s values pending st) (hr : st.replacement? id = some r)
    (hp : ∀ p ∈ pending, Relation.TransGen s.Refers p id) : Stays s pending st r := by
  by_cases hmem : id ∈ pending
  · obtain rfl := Option.some.inj (hr.symm.trans (h.loose.waits id hmem))
    by_cases hk : ∃ n, s.node? r = some n ∧ n.kind.isPassed = true
    · exact .looped (by rw [hr]; rfl) hk (hp r hmem)
    · exact .fixed hr fun _ n hn => by simpa using fun hpassed => hk ⟨n, hn, hpassed⟩
  · exact h.answers id hmem r hr

/-- A new node is pending once it has been met, if an appearance is the first of its material. -/
theorem meet (h : Tracked s values pending st) (hid : st.replacement? id = none)
    (hn : s.node? id = some n) (hloose : Loose s values (id :: pending) st₁)
    (hrep : ∀ x, st₁.replacement? x = if x = id then some id else st.replacement? x)
    (hscene : ∀ x ≠ id, st₁.scene.node? x = st.scene.node? x)
    (hfirst : ∀ material a, st₁.first? material = some a → a = id ∨ st.first? material = some a)
    (hgrows : ∀ material a, st.first? material = some a → st₁.first? material = some a)
    (hm : ∀ material, materialOf n = some material → st₁.first? material = some id) :
    Tracked s values (id :: pending) st₁ := by
  have hold : ∀ x, x ≠ id → st₁.replacement? x = st.replacement? x := fun x hx => by
    rw [hrep, if_neg hx]
  have hself : st₁.replacement? id = some id := by rw [hrep, if_pos rfl]
  have hrec : Recalls st st₁ := by
    intro x r hr
    rw [hold x, hr]
    rintro rfl
    rw [hid] at hr
    cases hr
  -- the new node had no replacement, so that nothing that may stay depends on it
  have hstays : ∀ y, Stays s pending st y → Stays s (id :: pending) st₁ y := by
    refine fun y hy => hy.carry hrec fun x hx hmem => ?_
    rcases List.mem_cons.1 hmem with rfl | hmem
    · rw [hid] at hx
      cases hx
    · exact hmem
  refine ⟨hloose, fun x hx r hr => ?_, fun x hx hv y hy => ?_, fun material a ha => ?_,
    fun x r k material hr hk hkm => ?_⟩
  · rw [List.mem_cons, not_or] at hx
    rw [hold x hx.1] at hr
    exact hstays r (h.answers x hx.2 r hr)
  · rw [List.mem_cons, not_or] at hx
    rw [Visited, hold x hx.1] at hv
    rw [Scene.refs, hscene x hx.1, ← Scene.refs] at hy
    exact hstays y (h.held x hx.2 hv y hy)
  · rcases hfirst material a ha with rfl | ha
    · exact hself
    · exact hrec a a (h.noted material a ha)
  · by_cases hx : x = id
    · subst hx
      obtain rfl := Option.some.inj (hn.symm.trans hk)
      obtain rfl := Option.some.inj (hself.symm.trans hr)
      exact hm material hkm
    · rw [hold x hx] at hr
      exact hgrows material r (h.firsts x r k material hr hk hkm)

/-- A pending node may be changed. -/
theorem set (h : Tracked s values (id :: pending) st) (field : String) (v : FieldValue) :
    Tracked s values (id :: pending) (st.mapScene (·.set id field v)) := by
  have hstays : ∀ y, Stays s (id :: pending) st y →
      Stays s (id :: pending) (st.mapScene (·.set id field v)) y := fun y hy =>
    hy.carry (fun _ _ hx => hx) fun _ _ hx => hx
  refine ⟨(h.loose.set field v).1, fun x hx r hr => hstays r (h.answers x hx r hr),
    fun x hx hv y hy => ?_, h.noted, h.firsts⟩
  have hnode : (st.mapScene (·.set id field v)).scene.node? x = st.scene.node? x :=
    (st.scene.node?_modify id _ x).trans (if_neg (List.ne_of_not_mem_cons hx).symm)
  rw [Scene.refs, hnode, ← Scene.refs] at hy
  exact hstays y (h.held x hx hv y hy)

/-- A pending node is finished when it has got a replacement that may stay, and refers to nodes that
may. -/
theorem close {q : NodeId} (h : Tracked s values (id :: pending) st)
    (hloose : Loose s values pending st₁) (hnew : id ∉ pending) (hrenamed : Renamed id q st st₁)
    (hn : s.node? id = some n) (hkeep : n.kind.isPassed = false → q = id)
    (hq : q = id ∨ Stays s (id :: pending) st q)
    (hrefs : ∀ y ∈ st.scene.refs id, Stays s (id :: pending) st y) :
    Tracked s values pending st₁ := by
  have hstays : ∀ y, Stays s (id :: pending) st y → Stays s pending st₁ y := fun y hy =>
    hy.close hrenamed hn hkeep
  refine ⟨hloose, fun x hx r hr => ?_, fun x hx hv y hy => ?_, fun material a ha => ?_,
    fun x r k material hr hk hkm => ?_⟩
  · by_cases hne : x = id
    · subst hne
      obtain rfl := Option.some.inj (hrenamed.replacement_self.symm.trans hr)
      rcases hq with rfl | hq
      · exact .fixed hr fun hmem => absurd hmem hnew
      · exact hstays q hq
    · rw [hrenamed.replacement_of_ne hne] at hr
      exact hstays r (h.answers x (by simp [hne, hx]) r hr)
  · rw [hrenamed.scene] at hy
    by_cases hne : x = id
    · exact hstays y (hrefs y (hne ▸ hy))
    · rw [Visited, hrenamed.replacement_of_ne hne] at hv
      exact hstays y (h.held x (by simp [hne, hx]) hv y hy)
  · rw [hrenamed.first] at ha
    by_cases hne : a = id
    · subst hne
      have hk := h.loose.first material a ha
      rw [Scene.kind?_of_node? hn] at hk
      rw [hrenamed.replacement_self, hkeep (by rw [Option.some.inj hk]; rfl)]
    · rw [hrenamed.replacement_of_ne hne, h.noted material a ha]
  · rw [hrenamed.first]
    by_cases hne : x = id
    · subst hne
      obtain rfl := Option.some.inj (hn.symm.trans hk)
      obtain rfl := Option.some.inj (hrenamed.replacement_self.symm.trans hr)
      rw [hkeep (not_isPassed_of_materialOf hkm)]
      exact h.firsts x x n material (h.loose.waits x (List.mem_cons_self ..)) hn hkm
    · rw [hrenamed.replacement_of_ne hne] at hr
      exact h.firsts x r k material hr hk hkm

end Tracked

/-! ### Cleaning what a field refers to -/

/-- What cleaning a node comes to; a new node is visited, unless it is an appearance of a material
that is known. -/
structure TrackedOutcome (s : Scene) (values : CleanValues) (pending : List NodeId)
    (st : CleanState) (id : NodeId) (out : NodeId × CleanState) : Prop where
  tracked : Tracked s values pending out.2
  stays : Stays s pending out.2 out.1
  visited : st.replacement? id = none → (∀ material, st.first? material = none) →
    s.node? id = none ∨ Visited s out.2 id

/-- What cleaning a field of a pending node comes to: it holds nodes that may stay, and no other
field has changed. -/
structure FieldTracked (s : Scene) (values : CleanValues) (pending : List NodeId)
    (st : CleanState) (id : NodeId) (m : Node) (l₁ : List (FieldDecl × FieldValue)) (d : FieldDecl)
    (l₂ : List (FieldDecl × FieldValue)) (st₁ : CleanState) : Prop where
  tracked : Tracked s values (id :: pending) st₁
  recalls : Recalls st st₁
  node : ∃ m' w, st₁.scene.node? id = some m' ∧ m'.kind = m.kind ∧
    m'.slots = l₁ ++ (d, w) :: l₂ ∧ ∀ y ∈ w.refs, Stays s (id :: pending) st₁ y

/-- A cleaner keeps the invariant and gives nodes that may stay, if it is to clean a node that lies
below all pending ones, and there are not too many nodes left to meet. -/
structure Tracks (s : Scene) (values : CleanValues) (bound : Nat) (clean : Cleaner) : Prop where
  loosely : CleansLoosely s values clean
  tracked : ∀ pending st id, Tracked s values pending st → s.unmet st.met < bound →
    (∀ p ∈ pending, Relation.TransGen s.Refers p id) →
      TrackedOutcome s values pending st id (clean id st)

namespace Tracks

variable {bound : Nat} {clean : Cleaner} (hc : Tracks s values bound clean)

include hc

theorem list {l : List NodeId} (hs : Tracked s values pending st)
    (hb : s.unmet st.met < bound)
    (hp : ∀ t ∈ l, ∀ p ∈ pending, Relation.TransGen s.Refers p t) :
    Tracked s values pending (cleanList clean l st).2 ∧
      Grows [] st (cleanList clean l st).2 ∧
      ∀ y ∈ (cleanList clean l st).1, Stays s pending (cleanList clean l st).2 y := by
  induction l generalizing st with
  | nil => exact ⟨hs, .refl _ st, fun y hy => absurd hy List.not_mem_nil⟩
  | cons t l ih =>
    obtain ⟨hp₁, hp₂⟩ := List.forall_mem_cons.1 hp
    have hg := (hc.loosely pending st t hs.loose).grows
    obtain ⟨hs₁, hstays, -⟩ := hc.tracked pending st t hs hb hp₁
    obtain ⟨hs₂, hg₂, hall⟩ := ih hs₁ (hg.unmet_lt hb) hp₂
    exact ⟨hs₂, hg.trans hg₂,
      List.forall_mem_cons.2 ⟨hstays.carry hg₂.recalls fun _ _ hx => hx, hall⟩⟩

omit hc in
/-- A field of a pending node gets nodes that may stay. -/
theorem put {d : FieldDecl} {v w : FieldValue} {l₁ l₂ : List (FieldDecl × FieldValue)} {m : Node}
    (hself : (st.replacement? id).isSome) (hm : st.scene.node? id = some m)
    (hslots : m.slots = l₁ ++ (d, v) :: l₂) (hs₁ : Tracked s values (id :: pending) st₁)
    (hg₁ : Grows [] st st₁) (hk : w.kind = v.kind)
    (hw : ∀ y ∈ w.refs, Stays s (id :: pending) st₁ y) :
    FieldTracked s values pending st id m l₁ d l₂ (st₁.mapScene (·.set id d.name w)) := by
  have hm₁ : st₁.scene.node? id = some m := (hg₁.node id List.not_mem_nil hself).trans hm
  refine ⟨hs₁.set d.name w, hg₁.recalls, m.set d.name w, w, ?_, rfl,
    Node.slots_set_of_eq hslots hk, fun y hy => (hw y hy).carry (fun _ _ hx => hx)
      fun _ _ hx => hx⟩
  refine (st₁.scene.node?_modify id _ id).trans ((if_pos rfl).trans ?_)
  rw [hm₁]
  rfl

theorem field {d : FieldDecl} {v : FieldValue} {l₁ l₂ : List (FieldDecl × FieldValue)} {m : Node}
    (hs : Tracked s values (id :: pending) st) (hb : s.unmet st.met < bound)
    (hp : ∀ t ∈ v.refs, ∀ p ∈ id :: pending, Relation.TransGen s.Refers p t)
    (hm : st.scene.node? id = some m) (hslots : m.slots = l₁ ++ (d, v) :: l₂) :
    FieldTracked s values pending st id m l₁ d l₂ (cleanField clean id st (d, v)) := by
  have hself : (st.replacement? id).isSome := by simp [hs.loose.waits id (List.mem_cons_self ..)]
  have hskip : v.refs = [] → FieldTracked s values pending st id m l₁ d l₂ st := fun hrefs =>
    ⟨hs, fun _ _ hx => hx, m, v, hm, rfl, hslots,
      fun y hy => absurd (hrefs ▸ hy) List.not_mem_nil⟩
  cases v with
  | one k x => exact hskip rfl
  | many k xs => exact hskip rfl
  | node target =>
    cases target with
    | none => exact hskip rfl
    | some t =>
      obtain ⟨hs₁, hstays, -⟩ :=
        hc.tracked (id :: pending) st t hs hb (hp t (List.mem_singleton_self t))
      refine put hself hm hslots hs₁ (hc.loosely (id :: pending) st t hs.loose).grows rfl ?_
      exact fun y hy => List.mem_singleton.1 hy ▸ hstays
  | nodes ts =>
    obtain ⟨hs₁, hg₁, hall⟩ := hc.list (l := ts) hs hb hp
    exact put hself hm hslots hs₁ hg₁ rfl hall

/-- All fields of a pending node, one after the other. -/
theorem fields {l₁ l₂ : List (FieldDecl × FieldValue)} {m : Node}
    (hs : Tracked s values (id :: pending) st) (hb : s.unmet st.met < bound)
    (hp : ∀ p ∈ l₂, ∀ t ∈ p.2.refs, ∀ q ∈ id :: pending, Relation.TransGen s.Refers q t)
    (hm : st.scene.node? id = some m) (hslots : m.slots = l₁ ++ l₂)
    (hdone : ∀ p ∈ l₁, ∀ y ∈ p.2.refs, Stays s (id :: pending) st y) :
    Tracked s values (id :: pending) (l₂.foldl (cleanField clean id) st) ∧
      ∃ m', (l₂.foldl (cleanField clean id) st).scene.node? id = some m' ∧ m'.kind = m.kind ∧
        ∀ y ∈ m'.refs, Stays s (id :: pending) (l₂.foldl (cleanField clean id) st) y := by
  induction l₂ generalizing l₁ st m with
  | nil =>
    refine ⟨hs, m, hm, rfl, fun y hy => ?_⟩
    rw [Node.refs_eq_flatMap_slots, hslots, List.append_nil] at hy
    obtain ⟨p, hpl, hy⟩ := List.mem_flatMap.1 hy
    exact hdone p hpl y hy
  | cons p l₂ ih =>
    obtain ⟨d, v⟩ := p
    obtain ⟨hp₁, hp₂⟩ := List.forall_mem_cons.1 hp
    obtain ⟨hs₁, hrec, m₁, u, hm₁, hk₁, hslots₁, hu⟩ := hc.field hs hb hp₁ hm hslots
    have hmet : s.unmet (cleanField clean id st (d, v)).met ≤ s.unmet st.met := by
      refine Scene.unmet_le_of_subset fun x hx => mem_met_iff.2 ?_
      obtain ⟨r, hr⟩ := Option.isSome_iff_exists.1 (mem_met_iff.1 hx)
      rw [hrec x r hr]
      rfl
    have hdone₁ : ∀ p ∈ l₁ ++ [(d, u)], ∀ y ∈ p.2.refs,
        Stays s (id :: pending) (cleanField clean id st (d, v)) y := by
      intro q hq y hy
      rcases List.mem_append.1 hq with hq | hq
      · exact (hdone q hq y hy).carry hrec fun _ _ hx => hx
      · obtain rfl := List.mem_singleton.1 hq
        exact hu y hy
    obtain ⟨hs₂, m₂, hm₂, hk₂, hall⟩ := ih hs₁ (Nat.lt_of_le_of_lt hmet hb) hp₂ hm₁
      (by rw [hslots₁, List.append_assoc]; rfl) hdone₁
    exact ⟨hs₂, m₂, hm₂, hk₂.trans hk₁, hall⟩

/-- **Cleaning below a pending node** finishes it. -/
theorem below (hs : Tracked s values (id :: pending) st) (hb : s.unmet st.met < bound)
    (hnew : id ∉ pending) (hp : ∀ p ∈ pending, Relation.TransGen s.Refers p id)
    (hn : s.node? id = some n) (hm : st.scene.node? id = some (n.prepared values)) :
    Tracked s values pending (cleanBelow clean id (n.prepared values) st).2 ∧
      Stays s pending (cleanBelow clean id (n.prepared values) st).2
        (cleanBelow clean id (n.prepared values) st).1 ∧
      Visited s (cleanBelow clean id (n.prepared values) st).2 id := by
  have hrefers : ∀ p ∈ (n.prepared values).slots, ∀ t ∈ p.2.refs, s.Refers id t := by
    intro p hp t ht
    rw [Scene.Refers, Scene.refs_of_node? hn]
    exact Node.mem_refs_prepared.1
      (Node.mem_refs_iff.2 ⟨p.1.name, p.2, Node.get?_of_mem_slots hp, ht⟩)
  have hlower : ∀ p ∈ (n.prepared values).slots, ∀ t ∈ p.2.refs, ∀ q ∈ id :: pending,
      Relation.TransGen s.Refers q t := by
    intro p hps t ht q hq
    have hid := hrefers p hps t ht
    rcases List.mem_cons.1 hq with rfl | hq
    · exact .single hid
    · exact (hp q hq).tail hid
  obtain ⟨hs₁, m, hm₁, hk, hall⟩ :=
    hc.fields hs hb hlower hm (List.nil_append _).symm fun p hp => absurd hp List.not_mem_nil
  obtain ⟨hloose, -, hrep⟩ := hc.loosely.below hs.loose hnew hn hm
  rw [cleanBelow] at hloose hrep ⊢
  generalize (n.prepared values).slots.foldl (cleanField clean id) st = st₁
    at hs₁ hm₁ hall hloose hrep ⊢
  obtain ⟨hout, hrenamed⟩ := renamed_unwrap hm₁
  have hkeep : n.kind.isPassed = false → m.onlyChild?.getD id = id := by
    intro hpassed
    cases hchild : m.onlyChild? with
    | none => rfl
    | some c =>
      have hkind := (Node.exists_of_onlyChild? hchild).1
      rw [hk, Node.kind_prepared, hpassed] at hkind
      cases hkind
  have hq : m.onlyChild?.getD id = id ∨ Stays s (id :: pending) st₁ (m.onlyChild?.getD id) := by
    cases hchild : m.onlyChild? with
    | none => exact .inl rfl
    | some c => exact .inr (hall c (Node.mem_refs_of_onlyChild? hchild))
  have hclosed := hs₁.close hloose hnew hrenamed hn hkeep hq fun y hy => by
    rw [Scene.refs_of_node? hm₁] at hy
    exact hall y hy
  refine ⟨hclosed, hclosed.answers id hnew _ hrep, ⟨by rw [hrep]; rfl, ?_⟩⟩
  by_cases happ : s.kind? id = some .appearance
  · refine .inr ?_
    rw [Scene.kind?_of_node? hn] at happ
    rw [hrenamed.replacement_self, hkeep (by rw [Option.some.inj happ]; rfl)]
  · exact .inl happ

end Tracks

/-! ### Cleaning a node -/

section New

variable (hs : Tracked s values pending st) (hr : st.replacement? id = none)
  (hn : s.node? id = some n)

include hs hr hn

/-- A new appearance makes way for the first one of its material. -/
theorem Tracked.share {material a : NodeId} (hm : materialOf n = some material)
    (ha : st.first? material = some a) :
    TrackedOutcome s values pending st id
      (a, (CleanState.opened values id n st).countShared.replace id a) := by
  have hout := hs.loose.share hr hn ha
  have hrep : ∀ x, ((CleanState.opened values id n st).countShared.replace id a).replacement? x =
      if x = id then some a else st.replacement? x := by
    intro x
    refine (replacement?_replace _ id a x).trans ?_
    split
    · rfl
    · next hne =>
      have hopened : (CleanState.opened values id n st).replacement? x =
          if x = id then some id else st.replacement? x := replacement?_opened n
      exact hopened.trans (if_neg hne)
  have hnoted := hs.noted material a ha
  have hne : a ≠ id := by
    rintro rfl
    rw [hr] at hnoted
    cases hnoted
  have hstays : ∀ y, Stays s pending st y → Stays s pending
      ((CleanState.opened values id n st).countShared.replace id a) y := fun y hy =>
    hy.carry hout.grows.recalls fun _ _ hx => hx
  have hself := hstays a (hs.stays_first ha)
  refine ⟨⟨hout.loose, fun x hx r hxr => ?_, fun x hx hv y hy => ?_, fun material' b hb => ?_,
    fun x r k material' hxr hk hkm => ?_⟩, hself, fun _ hno => ?_⟩
  · rw [hrep] at hxr
    split at hxr
    · exact Option.some.inj hxr ▸ hself
    · exact hstays r (hs.answers x hx r hxr)
  · by_cases hxid : x = id
    -- the appearance that makes way has not been visited
    · subst hxid
      rcases hv.2 with hkind | hself'
      · rw [Scene.kind?_of_node? hn, (materialOf_eq_some.1 hm).1] at hkind
        exact absurd rfl hkind
      · rw [hrep, if_pos rfl] at hself'
        exact absurd (Option.some.inj hself') hne
    · have hnode : ((CleanState.opened values id n st).countShared.replace id a).scene.node? x =
          st.scene.node? x := node?_opened_of_ne n hxid
      rw [Scene.refs, hnode, ← Scene.refs] at hy
      rw [Visited, hrep, if_neg hxid] at hv
      exact hstays y (hs.held x hx hv y hy)
  · have hb' := hs.noted material' b hb
    rw [hrep, if_neg, hb']
    rintro rfl
    rw [hr] at hb'
    cases hb'
  · rw [hrep] at hxr
    split at hxr
    · next he =>
      subst he
      obtain rfl := Option.some.inj (hn.symm.trans hk)
      obtain rfl := Option.some.inj (hm.symm.trans hkm)
      exact ha.trans hxr
    · exact hs.firsts x r k material' hxr hk hkm
  · rw [hno] at ha
    cases ha

/-- A new appearance is the first of its material. -/
theorem Tracked.note {material : NodeId} (hm : materialOf n = some material)
    (hloose : Loose s values (id :: pending) st₁) (hg : Grows [] (opened values id n st) st₁)
    (hscene : st₁.scene = (opened values id n st).scene)
    (hrep : st₁.memory.replacements = (opened values id n st).memory.replacements)
    (hfirst : ∀ x, st₁.first? x =
      if x = material then some id else (opened values id n st).first? x) :
    Tracked s values (id :: pending) st₁ := by
  refine hs.meet hr hn hloose (fun x => ?_) (fun x hx => ?_) (fun material' a ha => ?_) hg.first
    fun material' hm' => ?_
  · rw [replacement?, hrep]
    exact replacement?_opened n
  · rw [hscene]
    exact node?_opened_of_ne n hx
  · rw [hfirst] at ha
    split at ha
    · exact .inl (Option.some.inj ha).symm
    · exact .inr ha
  · obtain rfl := Option.some.inj (hm.symm.trans hm')
    rw [hfirst, if_pos rfl]

/-- A new node is kept when everything below it has been cleaned. -/
theorem Tracks.keep {bound : Nat} {clean : Cleaner} (hc : Tracks s values bound clean)
    (hb : s.unmet st.met < bound + 1) (hp : ∀ p ∈ pending, Relation.TransGen s.Refers p id)
    (hs₁ : Tracked s values (id :: pending) st₁) (hg₁ : Grows [] (opened values id n st) st₁) :
    TrackedOutcome s values pending st id (cleanBelow clean id (n.prepared values) st₁) := by
  have hopened : ((opened values id n st).replacement? id).isSome := by
    rw [replacement?_opened, if_pos rfl]
    rfl
  have hnew : id ∉ st.met := by
    rw [mem_met_iff, hr]
    exact Bool.false_ne_true
  have hbound : s.unmet (opened values id n st).met < bound :=
    Scene.unmet_cons_lt_of_lt_succ hn hnew hb
  obtain ⟨hs₂, hstays, hvisited⟩ := hc.below hs₁ (hg₁.unmet_lt hbound)
    (hs.loose.not_mem_pending hr) hp hn
    ((hg₁.node id List.not_mem_nil hopened).trans (hs.loose.node?_opened hr hn))
  exact ⟨hs₂, hstays, fun _ _ => .inr hvisited⟩

end New

/-- **Cleaning a node** keeps the invariant and gives a node that may stay. -/
theorem tracks_clean (s : Scene) (values : CleanValues) (bound : Nat) :
    Tracks s values bound (CleanState.clean values bound) := by
  refine ⟨cleansLoosely_clean s values bound, ?_⟩
  -- the induction is on the number of nodes left to meet
  induction bound with
  | zero => exact fun _ _ _ _ hb => absurd hb (Nat.not_lt_zero _)
  | succ bound ih =>
    have hc : Tracks s values bound (CleanState.clean values bound) :=
      ⟨cleansLoosely_clean s values bound, ih⟩
    intro pending st id hs hb hp
    have hlookup : st.memory.replacements.lookup id = st.replacement? id := rfl
    rw [CleanState.clean, hlookup]
    cases hr : st.replacement? id with
    | some r =>
      exact ⟨hs, hs.stays_replacement hr hp, fun hnone => absurd (hr.symm.trans hnone) (by simp)⟩
    | none =>
      have hsame := hs.loose.untouched id hr
      cases hn : s.node? id with
      | none =>
        rw [hn] at hsame
        simp only [hsame]
        exact ⟨hs, .gone hn, fun _ _ => .inl hn⟩
      | some n =>
        rw [hn] at hsame
        simp only [hsame]
        have hopen := hs.loose.opened hr hn
        have hkeep : ∀ st₁, Tracked s values (id :: pending) st₁ →
            Grows [] (opened values id n st) st₁ → TrackedOutcome s values pending st id
              (cleanBelow (CleanState.clean values bound) id (n.prepared values) st₁) :=
          fun st₁ => hc.keep hs hr hn hb hp
        have hmaterial : materialOf (n.straighten.applyValues values) = materialOf n :=
          Node.materialOf_prepared values n
        rw [hmaterial]
        cases hm : materialOf n with
        | none =>
          refine hkeep _ (hs.meet hr hn hopen (fun _ => replacement?_opened n)
            (fun _ hx => node?_opened_of_ne n hx) (fun _ _ ha => .inr ha) (fun _ _ ha => ha) ?_)
            (.refl _ _)
          intro material hmat
          rw [hm] at hmat
          cases hmat
        | some material =>
          have hk : s.kind? id = some .appearance := by
            rw [Scene.kind?_of_node? hn, (materialOf_eq_some.1 hm).1]
          rcases firstAppearance_spec ((st.replace id id).mapScene
            (·.modify id fun _ => n.straighten.applyValues values)) material id with
            ⟨a, ha, heq⟩ | ⟨hnone, st₁, heq, hscene, hrep, hfirst⟩
          · have hne : a ≠ id := by
              rintro rfl
              have hself := hs.noted material a ha
              rw [hr] at hself
              cases hself
            simp only [heq, if_neg hne]
            exact hs.share hr hn hm ha
          · obtain ⟨hs₁, hg⟩ := hopen.note hk hnone hscene hrep hfirst
            simp only [heq, if_true]
            exact hkeep st₁ (hs.note hr hn hm hs₁ hg hscene hrep hfirst) hg

end CleanState

namespace Scene

open CleanState

variable {s : Scene} {values : CleanValues}

/-- What is reachable at last has been visited. -/
theorem visited_of_reaches {st : CleanState} {start x : NodeId} (hs : Tracked s values [] st)
    (hstart : s.node? start = none ∨ Visited s st start) (hx : st.scene.Reaches start x) :
    s.node? x = none ∨ Visited s st x := by
  induction hx with
  | refl => exact hstart
  | @tail x y _ hxy ih =>
    rcases ih with hgone | hv
    · have hk := hs.loose.kind x
      rw [kind?, kind?, hgone, Option.map_none, Option.map_eq_none_iff] at hk
      rw [Refers, refs_of_none hk] at hxy
      exact absurd hxy List.not_mem_nil
    · exact (hs.held x List.not_mem_nil hv y hxy).visited

/-- What cleaning a scene comes to. -/
theorem trackedOutcome_clean (s : Scene) (values : CleanValues) :
    TrackedOutcome s values [] ⟨s, .empty⟩ s.root (s.cleanNode values .empty s.root) := by
  refine (tracks_clean s values (s.size + 1)).tracked [] ⟨s, .empty⟩ s.root
    (tracked_empty s values) ?_ fun p hp => absurd hp List.not_mem_nil
  have hnil : (CleanState.mk s .empty).met = [] := rfl
  rw [hnil, unmet_nil]
  exact Nat.lt_succ_self _

/-- What a cleaned scene refers to, given the replacements that were recorded: every node still
reachable refers to what it referred to before, or to the recorded replacement of that; and it
refers to a node with another replacement only if that is a group or a transform on a cycle. -/
structure RefersCleaned (s t : Scene) (values : CleanValues) (memory : CleanMemory) : Prop where
  swapped : ∀ x n, t.Reaches s.root x → s.node? x = some n → ∃ m, t.node? x = some m ∧
    Node.Swapped (fun c r => r = c ∨ memory.replacements.lookup c = some r) (n.prepared values) m
  onCycle : ∀ x y r, t.Reaches s.root x → t.Refers x y → memory.replacements.lookup y = some r →
    r ≠ y → (∃ n, s.node? y = some n ∧ n.kind.isPassed = true) ∧ Relation.TransGen s.Refers y y

/-- **A cleaned scene refers to a replaced node only where that lies on a cycle.** -/
theorem exists_refersCleaned (s : Scene) (values : CleanValues) :
    ∃ memory, (s.clean values .empty).result = .ok memory ∧
      s.RefersCleaned (s.clean values .empty).scene values memory := by
  have hout := trackedOutcome_clean s values
  have hs := hout.tracked
  have hstart := hout.visited rfl fun _ => rfl
  refine ⟨(s.cleanNode values .empty s.root).2.memory, rfl, ?_⟩
  have hscene : (s.clean values .empty).scene = (s.cleanNode values .empty s.root).2.scene := rfl
  rw [hscene]
  generalize (s.cleanNode values .empty s.root).2 = st at hs hstart ⊢
  have hvisited : ∀ x, st.scene.Reaches s.root x → s.node? x = none ∨ Visited s st x := fun x =>
    visited_of_reaches hs hstart
  refine ⟨fun x n hx hn => ?_, fun x y r hx hxy hr hne => ?_⟩
  · have hv := (hvisited x hx).resolve_left (by rw [hn]; exact Option.some_ne_none n)
    obtain ⟨k, m, hk, hm, hswap⟩ := hs.loose.done x hv.1 List.not_mem_nil
    obtain rfl := Option.some.inj (hn.symm.trans hk)
    exact ⟨m, hm, hswap.mono fun _ _ hcr => hcr.imp_right And.right⟩
  · have hr' : st.replacement? y = some r := hr
    rcases hvisited x hx with hgone | hv
    · have hk := hs.loose.kind x
      rw [kind?, kind?, hgone, Option.map_none, Option.map_eq_none_iff] at hk
      rw [Refers, refs_of_none hk] at hxy
      exact absurd hxy List.not_mem_nil
    · cases hs.held x List.not_mem_nil hv y hxy with
      | gone hgone =>
        obtain ⟨k, m, hk, -, -⟩ := hs.loose.done y (by rw [hr']; rfl) List.not_mem_nil
        rw [hgone] at hk
        cases hk
      | fixed hself =>
        rw [hr'] at hself
        exact absurd (Option.some.inj hself) hne
      | looped _ hk hcycle => exact ⟨hk, hcycle⟩

/-- No node that is referred to from a reachable one has another one for its recorded replacement.
-/
def ReplacesAlike (t : Scene) (memory : CleanMemory) : Prop :=
  ∀ x y r, t.Reaches t.root x → t.Refers x y → memory.replacements.lookup y = some r → r = y

/-- A group and a transform that moves what is in it, each the child of the other. -/
def wheel : Scene :=
  ⟨#[(Node.create .scene none).setChildren [1], (Node.create .group none).setChildren [2],
    ((Node.create .transform none).set "translation"
      (.one .vec3f ⟨.one, .zero, .zero⟩)).setChildren [1]], 0⟩

/-- The transform takes the place of the group, but still refers to it. -/
theorem not_replacesAlike_wheel : ∃ memory, (wheel.clean .standard .empty).result = .ok memory ∧
    ¬ (wheel.clean .standard .empty).scene.ReplacesAlike memory := by
  refine ⟨_, rfl, fun h => ?_⟩
  have hroot : (wheel.clean .standard .empty).scene.root = 0 := by decide +kernel
  have htop : 2 ∈ (wheel.clean .standard .empty).scene.refs 0 := by decide +kernel
  have hback : 1 ∈ (wheel.clean .standard .empty).scene.refs 2 := by decide +kernel
  have hother := h 2 1 2 (by rw [hroot]; exact .single htop) hback (by decide +kernel)
  exact absurd hother (by decide)

end Scene

end SceneTidy
