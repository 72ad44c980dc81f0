import SceneTidy.Proofs.Scene.Sharing
import SceneTidy.Proofs.Simplify.CleanedNode

/-!
# Cleaning keeps the drawing

In a scene without cycles the pass never meets a node that it is still cleaning, so what it
remembers of a node that it has finished stays as it is (`Grows`).  A finished node has been kept,
with the replacements of the nodes that it referred to (`Kept`), or has made way for the first
appearance of its material (`Shared`); that is the invariant of the pass (`Sound`), and `clean_spec`
says that cleaning a node keeps it.  Main statement: what is still reachable refers to nodes that
draw what the nodes referred to before drew (`Scene.keepsDrawing_clean`).
-/

namespace SceneTidy

namespace CleanState

variable {s : Scene} {values : CleanValues} {start id x y : NodeId} {pending except : List NodeId}
  {st st₁ st₂ : CleanState}

/-! ### What is remembered -/

/-- The replacement remembered for a node. -/
def replacement? (st : CleanState) (id : NodeId) : Option NodeId :=
  st.memory.replacements.lookup id

/-- The first appearance remembered for a material. -/
def first? (st : CleanState) (material : NodeId) : Option NodeId :=
  st.memory.appearances.lookup material

/-- The node that stands for a node: its replacement, or itself as long as there is none. -/
def standIn (st : CleanState) (id : NodeId) : NodeId := (st.replacement? id).getD id

/-- The nodes met. -/
def met (st : CleanState) : List NodeId := st.memory.replacements.map Prod.fst

/-- A node was met, or is not there at all. -/
def Met (s : Scene) (st : CleanState) (id : NodeId) : Prop :=
  (st.replacement? id).isSome ∨ s.node? id = none

theorem mem_met_iff : id ∈ st.met ↔ (st.replacement? id).isSome := by
  rw [← not_iff_not, Option.not_isSome_iff_eq_none, replacement?, lookup_none_iff, met]

theorem replacement?_replace (st : CleanState) (id r x : NodeId) :
    (st.replace id r).replacement? x = if x = id then some r else st.replacement? x := by
  show List.lookup x ((id, r) :: st.memory.replacements) = _
  rw [List.lookup_cons]
  split
  · next h => rw [if_pos (by simpa using h)]
  · next h => rw [if_neg (by simpa using h)]; rfl

theorem standIn_of_replacement? {r : NodeId} (h : st.replacement? id = some r) :
    st.standIn id = r := by
  rw [standIn, h]
  rfl

theorem standIn_of_none (h : st.replacement? id = none) : st.standIn id = id := by
  rw [standIn, h]
  rfl

/-! ### What stays remembered -/

/-- All that was remembered stays, but for the replacements of some nodes; and nodes that were met
stay as they are, but for those. -/
structure Grows (except : List NodeId) (st st' : CleanState) : Prop where
  replacement : ∀ x ∉ except, ∀ r, st.replacement? x = some r → st'.replacement? x = some r
  node : ∀ x ∉ except, (st.replacement? x).isSome → st'.scene.node? x = st.scene.node? x
  first : ∀ material a, st.first? material = some a → st'.first? material = some a
  met : ∀ x, (st.replacement? x).isSome → (st'.replacement? x).isSome

namespace Grows

theorem refl (except : List NodeId) (st : CleanState) : Grows except st st :=
  ⟨fun _ _ _ h => h, fun _ _ _ => rfl, fun _ _ h => h, fun _ h => h⟩

theorem trans (h₁ : Grows except st st₁) (h₂ : Grows except st₁ st₂) : Grows except st st₂ where
  replacement x hx r hr := h₂.replacement x hx r (h₁.replacement x hx r hr)
  node x hx hr := (h₂.node x hx (h₁.met x hr)).trans (h₁.node x hx hr)
  first material a ha := h₂.first material a (h₁.first material a ha)
  met x hx := h₂.met x (h₁.met x hx)

theorem weaken (h : Grows [] st st₁) (except : List NodeId) : Grows except st st₁ :=
  ⟨fun x _ => h.replacement x List.not_mem_nil, fun x _ => h.node x List.not_mem_nil, h.first,
    h.met⟩

/-- A node that had not been met need not be excepted. -/
theorem of_new (h : Grows [id] st st₁) (hid : st.replacement? id = none) : Grows [] st st₁ where
  replacement x _ r hr := by
    refine h.replacement x (fun hx => ?_) r hr
    obtain rfl := List.mem_singleton.1 hx
    rw [hid] at hr
    cases hr
  node x _ hr := by
    refine h.node x (fun hx => ?_) hr
    obtain rfl := List.mem_singleton.1 hx
    rw [hid] at hr
    cases hr
  first := h.first
  met := h.met

theorem metOrGone (h : Grows except st st₁) (hx : Met s st x) : Met s st₁ x :=
  hx.imp_left (h.met x)

/-- A node that was met, or is not there, keeps its stand-in. -/
theorem standIn_eq (h : Grows except st st₁)
    (hknown : ∀ x, (st₁.replacement? x).isSome → (s.node? x).isSome) (hx : x ∉ except)
    (hmet : Met s st x) : st₁.standIn x = st.standIn x := by
  cases hr : st.replacement? x with
  | some r => rw [standIn_of_replacement? hr, standIn_of_replacement? (h.replacement x hx r hr)]
  | none =>
    have hgone : s.node? x = none := hmet.resolve_left (by rw [hr]; exact Bool.false_ne_true)
    have hnew : st₁.replacement? x = none := by
      rw [← Option.not_isSome_iff_eq_none]
      intro hsome
      have := hknown x hsome
      rw [hgone] at this
      cases this
    rw [standIn_of_none hr, standIn_of_none hnew]

end Grows

/-! ### The invariant -/

/-- A finished node that was kept: its node has been prepared and refers to the stand-ins of what it
referred to, and its replacement is the stand-in of its only child if it had to make way. -/
structure Kept (s : Scene) (values : CleanValues) (pending : List NodeId) (st : CleanState)
    (id : NodeId) (n : Node) : Prop where
  node : s.node? id = some n
  now : ∃ m, st.scene.node? id = some m ∧ Node.Relinks st.standIn (n.prepared values) m
  below : ∀ y ∈ n.refs, y ∉ pending ∧ Met s st y
  replacement : st.replacement? id =
    some (((n.prepared values).onlyChild?.map st.standIn).getD id)

/-- A finished node that made way for the first appearance of its material. -/
def Shared (s : Scene) (st : CleanState) (id : NodeId) : Prop :=
  ∃ n material a, s.node? id = some n ∧ materialOf n = some material ∧
    st.first? material = some a ∧ st.replacement? id = some a

/-- What holds while a scene is cleaned; the pending nodes have been met but are not finished. -/
structure Sound (s : Scene) (values : CleanValues) (start : NodeId) (pending : List NodeId)
    (st : CleanState) : Prop where
  reached : ∀ x, (st.replacement? x).isSome → s.Reaches start x
  known : ∀ x, (st.replacement? x).isSome → (s.node? x).isSome
  kind : ∀ x, st.scene.kind? x = s.kind? x
  untouched : ∀ x, st.replacement? x = none → st.scene.node? x = s.node? x
  settled : ∀ x, (st.replacement? x).isSome → x ∉ pending →
    (∃ n, Kept s values pending st x n) ∨ Shared s st x
  first : ∀ material a, st.first? material = some a →
    (∃ n, s.node? a = some n ∧ materialOf n = some material) ∧
      (a ∈ pending ∨ ∃ n, Kept s values pending st a n)
  root : st.scene.root = s.root

theorem sound_empty (s : Scene) (values : CleanValues) (start : NodeId) :
    Sound s values start [] ⟨s, .empty⟩ where
  reached _ h := by cases h
  known _ h := by cases h
  kind _ := rfl
  untouched _ _ := rfl
  settled _ h := by cases h
  first _ _ h := by cases h
  root := rfl

/-- A kept node stays so. -/
theorem Kept.grows {n : Node} (h : Kept s values pending st id n) (hg : Grows except st st₁)
    (hknown : ∀ x, (st₁.replacement? x).isSome → (s.node? x).isSome) (hid : id ∉ except)
    (hexcept : ∀ x ∈ except, x ∈ pending) : Kept s values pending st₁ id n := by
  have hbelow : ∀ y ∈ n.refs, st₁.standIn y = st.standIn y := fun y hy =>
    hg.standIn_eq hknown (fun he => (h.below y hy).1 (hexcept y he)) (h.below y hy).2
  obtain ⟨m, hm, hlinks⟩ := h.now
  refine ⟨h.node, ⟨m, ?_, ?_⟩, fun y hy => ⟨(h.below y hy).1, hg.metOrGone (h.below y hy).2⟩, ?_⟩
  · rw [hg.node id hid (by rw [h.replacement]; rfl), hm]
  · exact hlinks.congr fun y hy => (hbelow y (Node.mem_refs_prepared.1 hy)).symm
  · rw [hg.replacement id hid _ h.replacement]
    cases hc : (n.prepared values).onlyChild? with
    | none => rfl
    | some c =>
      have hmem : c ∈ n.refs := Node.mem_refs_prepared.1 (Node.mem_refs_of_onlyChild? hc)
      rw [Option.map_some, Option.map_some, hbelow c hmem]

/-- Kept nodes stay so, also when other nodes are pending, if those had not been met before. -/
theorem Kept.carry {pending' : List NodeId} (hg : Grows except st st₁)
    (hknown : ∀ x, (st₁.replacement? x).isSome → (s.node? x).isSome)
    (hexcept : ∀ x ∈ except, x ∈ pending)
    (hpending : ∀ x, Met s st x → x ∉ pending → x ∉ pending') (hid : id ∉ except) :
    (∃ n, Kept s values pending st id n) → ∃ n, Kept s values pending' st₁ id n := by
  rintro ⟨n, hn⟩
  obtain ⟨hnode, hnow, hbelow, hreplacement⟩ := hn.grows hg hknown hid hexcept
  exact ⟨n, hnode, hnow, fun y hy =>
    ⟨hpending y (hn.below y hy).2 (hn.below y hy).1, (hbelow y hy).2⟩, hreplacement⟩

theorem Shared.grows (h : Shared s st id) (hg : Grows except st st₁) (hid : id ∉ except) :
    Shared s st₁ id := by
  obtain ⟨n, material, a, hn, hm, ha, hr⟩ := h
  exact ⟨n, material, a, hn, hm, hg.first material a ha, hg.replacement id hid a hr⟩

/-! ### Beginning and finishing a node -/

/-- The state in which a node has been met and prepared. -/
def opened (values : CleanValues) (id : NodeId) (n : Node) (st : CleanState) : CleanState :=
  (st.replace id id).mapScene (·.modify id fun _ => n.prepared values)

theorem replacement?_opened (n : Node) :
    (opened values id n st).replacement? x = if x = id then some id else st.replacement? x :=
  st.replacement?_replace id id x

theorem node?_opened_of_ne (n : Node) (h : x ≠ id) :
    (opened values id n st).scene.node? x = st.scene.node? x :=
  (st.scene.node?_modify id _ x).trans (if_neg h.symm)

theorem node?_opened_self {n : Node} (h : (st.scene.node? id).isSome) :
    (opened values id n st).scene.node? id = some (n.prepared values) := by
  obtain ⟨m, hm⟩ := Option.isSome_iff_exists.1 h
  refine (st.scene.node?_modify id _ id).trans ((if_pos rfl).trans ?_)
  rw [hm]
  rfl

theorem grows_opened (values : CleanValues) (n : Node) (hid : st.replacement? id = none) :
    Grows [] st (opened values id n st) := by
  have hne : ∀ x, (st.replacement? x).isSome → x ≠ id := by
    rintro x hx rfl
    rw [hid] at hx
    cases hx
  refine ⟨fun x _ r hr => ?_, fun x _ hx => node?_opened_of_ne n (hne x hx), fun _ _ h => h,
    fun x hx => ?_⟩
  · rw [replacement?_opened, if_neg (hne x (by rw [hr]; rfl)), hr]
  · rw [replacement?_opened, if_neg (hne x hx)]
    exact hx

/-- A new node is pending once it has been met. -/
theorem Sound.opened {n : Node} (h : Sound s values start pending st)
    (hid : st.replacement? id = none) (hn : s.node? id = some n) (hreach : s.Reaches start id) :
    Sound s values start (id :: pending) (opened values id n st) := by
  have hg := grows_opened values n hid
  have hsome : ∀ x, ((CleanState.opened values id n st).replacement? x).isSome →
      x = id ∨ (st.replacement? x).isSome := by
    intro x hx
    rw [replacement?_opened] at hx
    split at hx
    · exact .inl ‹_›
    · exact .inr hx
  have hknown : ∀ x, ((CleanState.opened values id n st).replacement? x).isSome →
      (s.node? x).isSome := by
    intro x hx
    rcases hsome x hx with rfl | hx
    · rw [hn]
      rfl
    · exact h.known x hx
  -- the new node had not been met, so that no finished one refers to it
  have hnew : ∀ x, Met s st x → x ∉ pending → x ∉ id :: pending := by
    rintro x hmet hp hmem
    rcases List.mem_cons.1 hmem with rfl | hmem
    · rw [Met, hid, hn] at hmet
      simp at hmet
    · exact hp hmem
  have hkept : ∀ x, (∃ n, Kept s values pending st x n) →
      ∃ m, Kept s values (id :: pending) (CleanState.opened values id n st) x m := fun x =>
    Kept.carry hg hknown (fun y hy => absurd hy List.not_mem_nil) hnew List.not_mem_nil
  refine ⟨fun x hx => ?_, hknown, fun x => ?_, fun x hx => ?_, fun x hx hp => ?_,
    fun material a ha => ?_, h.root⟩
  · rcases hsome x hx with rfl | hx
    · exact hreach
    · exact h.reached x hx
  · by_cases hx : x = id
    · subst hx
      have hsome : (st.scene.node? x).isSome := by rw [h.untouched x hid, hn]; rfl
      rw [Scene.kind?, node?_opened_self hsome, Scene.kind?, hn, Option.map_some, Option.map_some,
        Node.kind_prepared]
    · rw [Scene.kind?, node?_opened_of_ne n hx]
      exact h.kind x
  · rw [replacement?_opened] at hx
    split at hx
    · cases hx
    · next hne => rw [node?_opened_of_ne n hne, h.untouched x hx]
  · rw [List.mem_cons, not_or] at hp
    rcases h.settled x ((hsome x hx).resolve_left hp.1) hp.2 with hk | hs
    · exact .inl (hkept x hk)
    · exact .inr (hs.grows hg List.not_mem_nil)
  · obtain ⟨happ, hplace⟩ := h.first material a ha
    exact ⟨happ, hplace.imp (List.mem_cons_of_mem _) (hkept a)⟩

/-- A pending node may be changed, if it keeps its kind. -/
theorem Sound.set (h : Sound s values start (id :: pending) st)
    (hid : (st.replacement? id).isSome) (field : String) (v : FieldValue) :
    Sound s values start (id :: pending) (st.mapScene (·.set id field v)) := by
  have hnode : ∀ x, x ≠ id → (st.mapScene (·.set id field v)).scene.node? x = st.scene.node? x :=
    fun x hx => (st.scene.node?_modify id _ x).trans (if_neg hx.symm)
  have hg : Grows [id] st (st.mapScene (·.set id field v)) :=
    ⟨fun _ _ _ h => h, fun x hx _ => hnode x (List.ne_of_not_mem_cons hx), fun _ _ h => h,
      fun _ h => h⟩
  have hkept : ∀ x, x ≠ id → (∃ n, Kept s values (id :: pending) st x n) →
      ∃ n, Kept s values (id :: pending) (st.mapScene (·.set id field v)) x n := fun x hx =>
    Kept.carry hg h.known (by simp) (fun _ _ hp => hp)
      (by simpa using hx)
  refine ⟨h.reached, h.known, fun x => (Scene.kind?_set ..).trans (h.kind x), fun x hx => ?_,
    fun x hx hp => ?_, fun material a ha => ?_, h.root⟩
  · refine (hnode x ?_).trans (h.untouched x hx)
    rintro rfl
    have hx' : st.replacement? x = none := hx
    rw [hx'] at hid
    cases hid
  · have hne : x ≠ id := List.ne_of_not_mem_cons hp
    rcases h.settled x hx hp with hk | hs
    · exact .inl (hkept x hne hk)
    · exact .inr (hs.grows hg (by simpa using hne))
  · obtain ⟨happ, hplace⟩ := h.first material a ha
    refine ⟨happ, ?_⟩
    by_cases hne : a = id
    · exact .inl (hne ▸ List.mem_cons_self ..)
    · exact hplace.imp_right (hkept a hne)

/-- Another replacement is remembered for one node. -/
structure Renamed (id r : NodeId) (st st' : CleanState) : Prop where
  scene : st'.scene = st.scene
  replacement : ∀ x, st'.replacement? x = if x = id then some r else st.replacement? x
  first : ∀ material, st'.first? material = st.first? material

namespace Renamed

variable {r : NodeId} (h : Renamed id r st st₁)

include h

theorem replacement_self : st₁.replacement? id = some r := by
  rw [h.replacement, if_pos rfl]

theorem replacement_of_ne (hx : x ≠ id) : st₁.replacement? x = st.replacement? x := by
  rw [h.replacement, if_neg hx]

theorem grows : Grows [id] st st₁ where
  replacement x hx q hq := by
    rw [h.replacement_of_ne (List.ne_of_not_mem_cons hx), hq]
  node x _ _ := by rw [h.scene]
  first material a ha := by rw [h.first, ha]
  met x hx := by
    by_cases hne : x = id
    · rw [hne, h.replacement_self]
      rfl
    · rwa [h.replacement_of_ne hne]

theorem known {n : Node} (hs : Sound s values start (id :: pending) st) (hn : s.node? id = some n) :
    ∀ x, (st₁.replacement? x).isSome → (s.node? x).isSome := by
  intro x hx
  by_cases hne : x = id
  · rw [hne, hn]
    rfl
  · rw [h.replacement_of_ne hne] at hx
    exact hs.known x hx

/-- A pending node is finished when it has been kept or has made way. -/
theorem settle {n : Node} (hs : Sound s values start (id :: pending) st)
    (hid : (st.replacement? id).isSome) (hn : s.node? id = some n)
    (hdone : (∃ n, Kept s values pending st₁ id n) ∨
      Shared s st₁ id ∧ ∀ material, st.first? material ≠ some id) :
    Sound s values start pending st₁ := by
  have hknown := h.known hs hn
  have hkept : ∀ x, x ≠ id → (∃ n, Kept s values (id :: pending) st x n) →
      ∃ n, Kept s values pending st₁ x n := fun x hx =>
    Kept.carry h.grows hknown (by simp)
      (fun _ _ hp hmem => hp (List.mem_cons_of_mem _ hmem)) (by simpa using hx)
  refine ⟨fun x hx => ?_, hknown, fun x => by rw [h.scene, hs.kind], fun x hx => ?_,
    fun x hx hp => ?_, fun material a ha => ?_, by rw [h.scene, hs.root]⟩
  · by_cases hne : x = id
    · rw [hne]
      exact hs.reached id hid
    · rw [h.replacement_of_ne hne] at hx
      exact hs.reached x hx
  · rw [h.scene]
    refine hs.untouched x ?_
    rw [← h.replacement_of_ne, hx]
    rintro rfl
    rw [h.replacement_self] at hx
    cases hx
  · by_cases hne : x = id
    · subst hne
      exact hdone.imp_right And.left
    · rw [h.replacement_of_ne hne] at hx
      rcases hs.settled x hx (by simpa [hne] using hp) with hk | hsh
      · exact .inl (hkept x hne hk)
      · exact .inr (hsh.grows h.grows (by simpa using hne))
  · rw [h.first] at ha
    obtain ⟨happ, hplace⟩ := hs.first material a ha
    refine ⟨happ, ?_⟩
    by_cases hne : a = id
    · subst hne
      exact .inr (hdone.resolve_right fun hsh => hsh.2 material ha)
    · exact hplace.imp (fun hmem => List.mem_of_ne_of_mem hne hmem) (hkept a hne)

/-- A pending node whose references have been replaced is kept. -/
theorem kept {n m : Node} (hs : Sound s values start (id :: pending) st)
    (hn : s.node? id = some n) (hm : st.scene.node? id = some m)
    (hlinks : Node.Relinks st.standIn (n.prepared values) m)
    (hbelow : ∀ y ∈ n.refs, y ∉ id :: pending ∧ Met s st y)
    (hr : r = ((n.prepared values).onlyChild?.map st.standIn).getD id) :
    Kept s values pending st₁ id n := by
  have hstand : ∀ y ∈ n.refs, st₁.standIn y = st.standIn y := fun y hy =>
    h.grows.standIn_eq (h.known hs hn) (by simpa using List.ne_of_not_mem_cons (hbelow y hy).1)
      (hbelow y hy).2
  refine ⟨hn, ⟨m, by rw [h.scene, hm], hlinks.congr fun y hy =>
    (hstand y (Node.mem_refs_prepared.1 hy)).symm⟩, fun y hy => ⟨fun hp =>
    (hbelow y hy).1 (List.mem_cons_of_mem _ hp), h.grows.metOrGone (hbelow y hy).2⟩, ?_⟩
  rw [h.replacement_self, hr]
  cases hc : (n.prepared values).onlyChild? with
  | none => rfl
  | some c =>
    have hmem : c ∈ n.refs := Node.mem_refs_prepared.1 (Node.mem_refs_of_onlyChild? hc)
    rw [Option.map_some, Option.map_some, hstand c hmem]

end Renamed

/-- A new appearance may make way for the first one of its material. -/
theorem Sound.share {n : Node} {material a : NodeId} (h : Sound s values start pending st)
    (hid : st.replacement? id = none) (hn : s.node? id = some n) (hreach : s.Reaches start id)
    (hm : materialOf n = some material) (ha : st.first? material = some a) (hp : id ∉ pending)
    (hr : Renamed id a (CleanState.opened values id n st) st₁) :
    Sound s values start pending st₁ := by
  have hopen := h.opened hid hn hreach
  refine hr.settle hopen ?_ hn (.inr ⟨?_, fun material' hfirst => ?_⟩)
  · rw [replacement?_opened, if_pos rfl]
    rfl
  · exact ⟨n, material, a, hn, hm, (hr.first material).trans ha, hr.replacement_self⟩
  · rcases (h.first material' id hfirst).2 with hmem | ⟨k, hk⟩
    · exact hp hmem
    · have hrep := hk.replacement
      rw [hid] at hrep
      cases hrep

/-! ### Cleaning what a field refers to -/

/-- What cleaning a node comes to. -/
structure Outcome (s : Scene) (values : CleanValues) (start : NodeId) (pending : List NodeId)
    (st : CleanState) (id : NodeId) (out : NodeId × CleanState) : Prop where
  sound : Sound s values start pending out.2
  grows : Grows [] st out.2
  standIn : out.1 = out.2.standIn id
  met : Met s out.2 id
  kept : st.replacement? id = none → (∀ material, st.first? material = none) →
    s.node? id = none ∨ ∃ n, Kept s values pending out.2 id n

/-- A cleaner does its work for nodes from which no pending node is reached, if there are not too
many nodes left to meet. -/
def Cleans (s : Scene) (values : CleanValues) (start : NodeId) (bound : Nat) (clean : Cleaner) :
    Prop :=
  ∀ pending st id, Sound s values start pending st → s.unmet st.met < bound → s.Reaches start id →
    (∀ p ∈ pending, ¬ s.Reaches id p) → Outcome s values start pending st id (clean id st)

variable {bound : Nat} {clean : Cleaner} {n : Node}

theorem Grows.unmet_lt (h : Grows except st st₁) (hb : s.unmet st.met < bound) :
    s.unmet st₁.met < bound := by
  refine Nat.lt_of_le_of_lt (Scene.unmet_le_of_subset fun x hx => ?_) hb
  exact mem_met_iff.2 (h.met x (mem_met_iff.1 hx))

theorem cleanList_spec (hc : Cleans s values start bound clean) {l : List NodeId}
    (hs : Sound s values start pending st) (hb : s.unmet st.met < bound)
    (hreach : ∀ t ∈ l, s.Reaches start t) (hp : ∀ t ∈ l, ∀ p ∈ pending, ¬ s.Reaches t p) :
    Sound s values start pending (cleanList clean l st).2 ∧
      Grows [] st (cleanList clean l st).2 ∧
      (cleanList clean l st).1 = l.map (cleanList clean l st).2.standIn ∧
      ∀ t ∈ l, Met s (cleanList clean l st).2 t := by
  induction l generalizing st with
  | nil => exact ⟨hs, .refl _ _, rfl, fun t ht => absurd ht List.not_mem_nil⟩
  | cons t l ih =>
    obtain ⟨hreach₁, hreach₂⟩ := List.forall_mem_cons.1 hreach
    obtain ⟨hp₁, hp₂⟩ := List.forall_mem_cons.1 hp
    have hout := hc pending st t hs hb hreach₁ hp₁
    obtain ⟨hsound, hgrows, hmap, hmet⟩ := ih hout.sound (hout.grows.unmet_lt hb) hreach₂ hp₂
    refine ⟨hsound, hout.grows.trans hgrows, ?_,
      List.forall_mem_cons.2 ⟨hgrows.metOrGone hout.met, hmet⟩⟩
    have hhead : (cleanList clean (t :: l) st).2.standIn t = (clean t st).1 :=
      (hgrows.standIn_eq hsound.known List.not_mem_nil hout.met).trans hout.standIn.symm
    rw [List.map_cons, hhead]
    exact congrArg _ hmap

/-- How far the fields of a node have been cleaned: those done refer to stand-ins, and the rest are
as they were when the node was prepared. -/
structure Progress (s : Scene) (values : CleanValues) (start : NodeId) (pending : List NodeId)
    (id : NodeId) (n : Node) (st : CleanState) (done rest : List (FieldDecl × FieldValue))
    (st' : CleanState) : Prop where
  sound : Sound s values start (id :: pending) st'
  grows : Grows [id] st st'
  opened : st'.replacement? id = some id
  node : ∃ m, st'.scene.node? id = some m ∧ m.kind = n.kind ∧
    (∀ p ∈ done, m.get? p.1.name = some (p.2.relink st'.standIn)) ∧
    ∀ p ∈ rest, m.get? p.1.name = some p.2
  met : ∀ p ∈ done, ∀ t ∈ p.2.refs, Met s st' t

namespace Progress

variable {done rest : List (FieldDecl × FieldValue)} {p : FieldDecl × FieldValue}

/-- A field without references is done. -/
theorem skip (h : Progress s values start pending id n st done (p :: rest) st₁)
    (hp : p.2.refs = []) :
    Progress s values start pending id n st (done ++ [p]) rest st₁ := by
  obtain ⟨m, hm, hkind, hdone, hrest⟩ := h.node
  obtain ⟨hrest₁, hrest₂⟩ := List.forall_mem_cons.1 hrest
  refine ⟨h.sound, h.grows, h.opened, ⟨m, hm, hkind, fun q hq => ?_, hrest₂⟩, fun q hq t ht => ?_⟩
  · rcases List.mem_append.1 hq with hq | hq
    · exact hdone q hq
    · obtain rfl := List.mem_singleton.1 hq
      rw [FieldValue.relink_of_refs_nil hp, hrest₁]
  · rcases List.mem_append.1 hq with hq | hq
    · exact h.met q hq t ht
    · obtain rfl := List.mem_singleton.1 hq
      rw [hp] at ht
      exact absurd ht List.not_mem_nil

/-- A field is done when its references have been cleaned and replaced. -/
theorem put (h : Progress s values start pending id n st done (p :: rest) st₁)
    (hnames : ((done ++ p :: rest).map (·.1.name)).Nodup)
    (hs : Sound s values start (id :: pending) st₂) (hg : Grows [] st₁ st₂)
    (hmet : ∀ t ∈ p.2.refs, Met s st₂ t) :
    Progress s values start pending id n st (done ++ [p]) rest
      (st₂.mapScene (·.set id p.1.name (p.2.relink st₂.standIn))) := by
  obtain ⟨m, hm, hkind, hdone, hrest⟩ := h.node
  obtain ⟨hrest₁, hrest₂⟩ := List.forall_mem_cons.1 hrest
  have hopened : st₂.replacement? id = some id := hg.replacement id List.not_mem_nil id h.opened
  have hsome : (st₂.replacement? id).isSome := by rw [hopened]; rfl
  have hnode : st₂.scene.node? id = some m :=
    (hg.node id List.not_mem_nil (by rw [h.opened]; rfl)).trans hm
  -- the names of the fields are distinct
  have hother : ∀ q ∈ done ++ rest, p.1.name ≠ q.1.name := by
    intro q hq he
    rw [List.map_append, List.map_cons] at hnames
    have hnot := (List.nodup_cons.1 (List.nodup_middle.1 hnames)).1
    rw [← List.map_append, he] at hnot
    exact hnot (List.mem_map.2 ⟨q, hq, rfl⟩)
  refine ⟨hs.set hsome _ _, ?_, hopened, ⟨m.set p.1.name (p.2.relink st₂.standIn), ?_, hkind,
    fun q hq => ?_, fun q hq => ?_⟩, fun q hq t ht => ?_⟩
  · refine h.grows.trans ((hg.weaken [id]).trans ⟨fun _ _ _ hr => hr, fun x hx _ => ?_,
      fun _ _ ha => ha, fun _ hx => hx⟩)
    exact (st₂.scene.node?_modify id _ x).trans (if_neg (List.ne_of_not_mem_cons hx).symm)
  · refine (st₂.scene.node?_modify id _ id).trans ((if_pos rfl).trans ?_)
    rw [hnode]
    rfl
  · rcases List.mem_append.1 hq with hq' | hq'
    · rw [m.get?_set_of_ne (hother q (List.mem_append_left _ hq')), hdone q hq']
      refine congrArg some (FieldValue.relink_congr fun t ht => ?_)
      exact (hg.standIn_eq hs.known List.not_mem_nil (h.met q hq' t ht)).symm
    · obtain rfl := List.mem_singleton.1 hq'
      exact Node.get?_set_self hrest₁ (FieldValue.kind_relink ..)
  · rw [m.get?_set_of_ne (hother q (List.mem_append_right _ hq)), hrest₂ q hq]
  · rcases List.mem_append.1 hq with hq | hq
    · exact hg.metOrGone (h.met q hq t ht)
    · obtain rfl := List.mem_singleton.1 hq
      exact hmet t ht

/-- **Cleaning one more field of a node.** -/
theorem cleanField (hc : Cleans s values start bound clean)
    (h : Progress s values start pending id n st done (p :: rest) st₁)
    (hnames : ((done ++ p :: rest).map (·.1.name)).Nodup) (hb : s.unmet st.met < bound)
    (hreach : ∀ t ∈ p.2.refs, s.Reaches start t)
    (hp : ∀ t ∈ p.2.refs, ∀ q ∈ id :: pending, ¬ s.Reaches t q) :
    Progress s values start pending id n st (done ++ [p]) rest
      (CleanState.cleanField clean id st₁ p) := by
  have hb₁ := h.grows.unmet_lt hb
  obtain ⟨d, v⟩ := p
  cases v with
  | one k x => exact h.skip rfl
  | many k xs => exact h.skip rfl
  | node target =>
    cases target with
    | none => exact h.skip rfl
    | some t =>
      have hmem : t ∈ FieldValue.refs (.node (some t)) := List.mem_singleton_self t
      have hout := hc (id :: pending) st₁ t h.sound hb₁ (hreach t hmem) (hp t hmem)
      have hput := h.put hnames hout.sound hout.grows fun t' ht' => by
        obtain rfl := List.mem_singleton.1 ht'
        exact hout.met
      have hvalue : (FieldValue.node (some t)).relink (clean t st₁).2.standIn =
          .node (some (clean t st₁).1) := by
        rw [hout.standIn]
        rfl
      rw [hvalue] at hput
      exact hput
  | nodes ts =>
    obtain ⟨hsound, hgrows, hmap, hmet⟩ := cleanList_spec (l := ts) hc h.sound hb₁ hreach hp
    have hput := h.put hnames hsound hgrows hmet
    have hvalue : (FieldValue.nodes ts).relink (cleanList clean ts st₁).2.standIn =
        .nodes (cleanList clean ts st₁).1 := by
      rw [hmap]
      rfl
    rw [hvalue] at hput
    exact hput

end Progress

/-! ### Cleaning a node -/

/-- All fields of a node, one after the other. -/
theorem Progress.foldl (hc : Cleans s values start bound clean)
    {done rest : List (FieldDecl × FieldValue)}
    (h : Progress s values start pending id n st done rest st₁)
    (hnames : ((done ++ rest).map (·.1.name)).Nodup) (hb : s.unmet st.met < bound)
    (hreach : ∀ p ∈ rest, ∀ t ∈ p.2.refs, s.Reaches start t)
    (hp : ∀ p ∈ rest, ∀ t ∈ p.2.refs, ∀ q ∈ id :: pending, ¬ s.Reaches t q) :
    Progress s values start pending id n st (done ++ rest) []
      (rest.foldl (CleanState.cleanField clean id) st₁) := by
  induction rest generalizing done st₁ with
  | nil => rwa [List.append_nil]
  | cons p rest ih =>
    obtain ⟨hreach₁, hreach₂⟩ := List.forall_mem_cons.1 hreach
    obtain ⟨hp₁, hp₂⟩ := List.forall_mem_cons.1 hp
    have hstep := h.cleanField hc hnames hb hreach₁ hp₁
    have hnames' : ((done ++ [p] ++ rest).map (·.1.name)).Nodup := by
      rwa [List.append_assoc, List.singleton_append]
    have hlast := ih hstep hnames' hreach₂ hp₂
    rwa [List.append_assoc, List.singleton_append] at hlast

/-- When all fields have been cleaned, the node refers to stand-ins. -/
theorem Progress.relinks {base : Node}
    (h : Progress s values start pending id base st base.slots [] st₁) :
    ∃ m, st₁.scene.node? id = some m ∧ Node.Relinks st₁.standIn base m := by
  obtain ⟨m, hm, hkind, hdone, -⟩ := h.node
  refine ⟨m, hm, hkind, fun field => ?_⟩
  cases hv : base.get? field with
  | some v =>
    obtain ⟨d, hd, rfl⟩ := Node.exists_mem_slots_of_get? hv
    exact hdone (d, v) hd
  | none =>
    rw [Option.map_none, ← Option.not_isSome_iff_eq_none]
    intro hsome
    obtain ⟨w, hw⟩ := Option.isSome_iff_exists.1 hsome
    obtain ⟨d, hd, rfl⟩ := Node.exists_mem_slots_of_get? hw
    obtain ⟨v, hv'⟩ := Node.exists_mem_slots (hkind ▸ Node.mem_fields_of_mem_slots hd)
    rw [Node.get?_of_mem_slots hv'] at hv
    cases hv

theorem renamed_unwrap {m : Node} (hm : st.scene.node? id = some m) :
    (unwrap id st).1 = m.onlyChild?.getD id ∧
      Renamed id (m.onlyChild?.getD id) st (unwrap id st).2 := by
  unfold unwrap
  rw [hm, Option.bind_some]
  cases m.onlyChild? with
  | none => exact ⟨rfl, rfl, st.replacement?_replace id id, fun _ => rfl⟩
  | some c => exact ⟨rfl, rfl, st.countUnwrapped.replacement?_replace id c, fun _ => rfl⟩

/-- **Cleaning below a pending node** finishes it. -/
theorem cleanBelow_spec (hc : Cleans s values start bound clean) (hn : s.node? id = some n)
    (hs : Sound s values start (id :: pending) st) (hid : st.replacement? id = some id)
    (hnode : st.scene.node? id = some (n.prepared values)) (hb : s.unmet st.met < bound)
    (hp : ∀ t, s.Refers id t → ∀ q ∈ id :: pending, ¬ s.Reaches t q) :
    Sound s values start pending (cleanBelow clean id (n.prepared values) st).2 ∧
      Grows [id] st (cleanBelow clean id (n.prepared values) st).2 ∧
      (cleanBelow clean id (n.prepared values) st).1 =
        (cleanBelow clean id (n.prepared values) st).2.standIn id ∧
      Kept s values pending (cleanBelow clean id (n.prepared values) st).2 id n := by
  have hrefers : ∀ t, t ∈ n.refs → s.Refers id t := fun t ht => by
    rwa [Scene.Refers, Scene.refs_of_node? hn]
  have hslots : ∀ p ∈ (n.prepared values).slots, ∀ t ∈ p.2.refs, s.Refers id t := fun p hp t ht =>
    hrefers t (Node.mem_refs_prepared.1
      (Node.mem_refs_iff.2 ⟨p.1.name, p.2, Node.get?_of_mem_slots hp, ht⟩))
  have hreach : s.Reaches start id := hs.reached id (by rw [hid]; rfl)
  have hbegin : Progress s values start pending id (n.prepared values) st []
      (n.prepared values).slots st :=
    ⟨hs, .refl _ _, hid, ⟨_, hnode, rfl, fun p hp => absurd hp List.not_mem_nil,
      fun p hp => Node.get?_of_mem_slots hp⟩, fun p hp => absurd hp List.not_mem_nil⟩
  have hend := hbegin.foldl hc (n.prepared values).nodup_slots_names hb
    (fun p hp' t ht => hreach.tail (hslots p hp' t ht))
    (fun p hp' t ht => hp t (hslots p hp' t ht))
  rw [List.nil_append] at hend
  obtain ⟨m, hm, hlinks⟩ := hend.relinks
  rw [cleanBelow]
  generalize (n.prepared values).slots.foldl (cleanField clean id) st = st₁ at hend hm hlinks ⊢
  obtain ⟨hout, hrenamed⟩ := renamed_unwrap hm
  rw [hlinks.onlyChild?] at hout hrenamed
  have hbelow : ∀ y ∈ n.refs, y ∉ id :: pending ∧ Met s st₁ y := by
    intro y hy
    refine ⟨fun hmem => hp y (hrefers y hy) y hmem .refl, ?_⟩
    obtain ⟨field, v, hv, hy⟩ := Node.mem_refs_iff.1 (Node.mem_refs_prepared.2 hy)
    obtain ⟨d, hd, -⟩ := Node.exists_mem_slots_of_get? hv
    exact hend.met (d, v) hd y hy
  have hkept := hrenamed.kept hend.sound hn hm hlinks hbelow rfl
  refine ⟨hrenamed.settle hend.sound (by rw [hend.opened]; rfl) hn (.inl ⟨n, hkept⟩),
    hend.grows.trans hrenamed.grows, ?_, hkept⟩
  rw [hout, standIn_of_replacement? hrenamed.replacement_self]

/-- The first appearance of a material is the one remembered, or the one at hand, which is noted. -/
theorem firstAppearance_spec (st : CleanState) (material id : NodeId) :
    (∃ a, st.first? material = some a ∧ st.firstAppearance material id = (a, st)) ∨
      st.first? material = none ∧ ∃ st', st.firstAppearance material id = (id, st') ∧
        st'.scene = st.scene ∧ st'.memory.replacements = st.memory.replacements ∧
        ∀ x, st'.first? x = if x = material then some id else st.first? x := by
  unfold firstAppearance first?
  cases hl : st.memory.appearances.lookup material with
  | some a => exact .inl ⟨a, rfl, rfl⟩
  | none =>
    refine .inr ⟨rfl, _, rfl, rfl, rfl, fun x => ?_⟩
    rw [List.lookup_cons]
    split
    · next h => rw [if_pos (by simpa using h)]
    · next h => rw [if_neg (by simpa using h)]

/-- A pending appearance may be noted as the first of its material. -/
theorem Sound.note {material : NodeId} (h : Sound s values start (id :: pending) st)
    (hn : s.node? id = some n) (hm : materialOf n = some material)
    (hnone : st.first? material = none) (hscene : st₁.scene = st.scene)
    (hrep : st₁.memory.replacements = st.memory.replacements)
    (hfirst : ∀ x, st₁.first? x = if x = material then some id else st.first? x) :
    Sound s values start (id :: pending) st₁ ∧ Grows [] st st₁ := by
  have hrep' : ∀ x, st₁.replacement? x = st.replacement? x := fun x => by
    rw [replacement?, hrep, ← replacement?]
  have hg : Grows [] st st₁ := by
    refine ⟨fun x _ r hr => by rw [hrep', hr], fun x _ _ => by rw [hscene], fun x a ha => ?_,
      fun x hx => by rwa [hrep']⟩
    rw [hfirst, if_neg, ha]
    rintro rfl
    rw [hnone] at ha
    cases ha
  have hknown : ∀ x, (st₁.replacement? x).isSome → (s.node? x).isSome := fun x hx =>
    h.known x (by rwa [hrep'] at hx)
  have hkept : ∀ x, (∃ n, Kept s values (id :: pending) st x n) →
      ∃ n, Kept s values (id :: pending) st₁ x n := fun x =>
    Kept.carry hg hknown (fun y hy => absurd hy List.not_mem_nil) (fun _ _ hp => hp)
      List.not_mem_nil
  refine ⟨⟨fun x hx => h.reached x (by rwa [hrep'] at hx), hknown,
    fun x => by rw [hscene, h.kind], fun x hx => ?_, fun x hx hp => ?_, fun x a ha => ?_,
    by rw [hscene, h.root]⟩, hg⟩
  · rw [hscene]
    exact h.untouched x (by rwa [hrep'] at hx)
  · rw [hrep'] at hx
    exact (h.settled x hx hp).imp (hkept x) fun hs => hs.grows hg List.not_mem_nil
  · rw [hfirst] at ha
    split at ha
    · next hx =>
      obtain rfl := Option.some.inj ha
      exact ⟨⟨n, hn, hx ▸ hm⟩, .inl (List.mem_cons_self ..)⟩
    · obtain ⟨happ, hplace⟩ := h.first x a ha
      exact ⟨happ, hplace.imp_right (hkept a)⟩

section New

variable (hs : Sound s values start pending st) (hr : st.replacement? id = none)
  (hn : s.node? id = some n) (hreach : s.Reaches start id)

include hs hr hn

/-- A new node is kept when everything below it has been cleaned. -/
theorem outcome_cleanBelow (hc : Cleans s values start bound clean)
    (hb : s.unmet st.met < bound + 1)
    (hbelow : ∀ t, s.Refers id t → ∀ q ∈ id :: pending, ¬ s.Reaches t q)
    (hs₁ : Sound s values start (id :: pending) st₁) (hg : Grows [] (opened values id n st) st₁) :
    Outcome s values start pending st id (cleanBelow clean id (n.prepared values) st₁) := by
  have hself : (opened values id n st).replacement? id = some id := by
    rw [replacement?_opened, if_pos rfl]
  have hnode : (opened values id n st).scene.node? id = some (n.prepared values) :=
    node?_opened_self (by rw [hs.untouched id hr, hn]; rfl)
  have hnew : id ∉ st.met := by
    rw [mem_met_iff, hr]
    exact Bool.false_ne_true
  have hbound : s.unmet (opened values id n st).met < bound :=
    Scene.unmet_cons_lt_of_lt_succ hn hnew hb
  obtain ⟨hsound, hgrows, hout, hkept⟩ := cleanBelow_spec hc hn hs₁
    (hg.replacement id List.not_mem_nil id hself)
    ((hg.node id List.not_mem_nil (by rw [hself]; rfl)).trans hnode) (hg.unmet_lt hbound) hbelow
  have hall := (((grows_opened values n hr).trans hg).weaken [id]).trans hgrows
  exact ⟨hsound, hall.of_new hr, hout, .inl (by rw [hkept.replacement]; rfl),
    fun _ _ => .inr ⟨n, hkept⟩⟩

include hreach

/-- A new appearance makes way for the first one of its material. -/
theorem outcome_share {material a : NodeId} (hm : materialOf n = some material)
    (ha : st.first? material = some a) (hp : id ∉ pending) :
    Outcome s values start pending st id
      (a, (opened values id n st).countShared.replace id a) := by
  have hrenamed : Renamed id a (opened values id n st)
      ((opened values id n st).countShared.replace id a) :=
    ⟨rfl, replacement?_replace _ id a, fun _ => rfl⟩
  have hsome := hrenamed.replacement_self
  refine ⟨hs.share hr hn hreach hm ha hp hrenamed,
    (((grows_opened values n hr).weaken [id]).trans hrenamed.grows).of_new hr,
    (standIn_of_replacement? hsome).symm, .inl (Option.isSome_iff_exists.2 ⟨a, hsome⟩),
    fun _ hno => ?_⟩
  rw [hno] at ha
  cases ha

end New

/-- **Cleaning a node** replaces it and everything below it for good. -/
theorem clean_spec (hac : s.Acyclic start) (bound : Nat) :
    Cleans s values start bound (CleanState.clean values bound) := by
  -- the induction is on the number of nodes left to meet
  induction bound with
  | zero => exact fun _ _ _ _ hb => absurd hb (Nat.not_lt_zero _)
  | succ bound ih =>
    intro pending st id hs hb hreach hp
    have hlookup : st.memory.replacements.lookup id = st.replacement? id := rfl
    rw [CleanState.clean, hlookup]
    cases hr : st.replacement? id with
    | some r =>
      exact ⟨hs, .refl _ _, (standIn_of_replacement? hr).symm, .inl (by rw [hr]; rfl),
        fun hnone => absurd (hr.symm.trans hnone) (by simp)⟩
    | none =>
      have hsame := hs.untouched id hr
      cases hn : s.node? id with
      | none =>
        rw [hn] at hsame
        simp only [hsame]
        exact ⟨hs, .refl _ _, (standIn_of_none hr).symm, .inr hn, fun _ _ => .inl hn⟩
      | some n =>
        rw [hn] at hsame
        simp only [hsame]
        have hopen := hs.opened hr hn hreach
        have hkeep : ∀ st₁, Sound s values start (id :: pending) st₁ →
            Grows [] (opened values id n st) st₁ → Outcome s values start pending st id
              (cleanBelow (CleanState.clean values bound) id (n.prepared values) st₁) :=
          fun st₁ => outcome_cleanBelow hs hr hn ih hb fun t ht => hac.not_reaches hreach hp ht
        have hmaterial : materialOf (n.straighten.applyValues values) = materialOf n :=
          Node.materialOf_prepared values n
        rw [hmaterial]
        cases hm : materialOf n with
        | none => exact hkeep _ hopen (.refl _ _)
        | some material =>
          rcases firstAppearance_spec ((st.replace id id).mapScene
            (·.modify id fun _ => n.straighten.applyValues values)) material id with
            ⟨a, ha, heq⟩ | ⟨hnone, st₁, heq, hscene, hrep, hfirst⟩
          · simp only [heq]
            split
            · exact hkeep _ hopen (.refl _ _)
            · exact outcome_share hs hr hn hreach hm ha fun hmem => hp id hmem .refl
          · obtain ⟨hs₁, hg⟩ := hopen.note hn hm hnone hscene hrep hfirst
            simp only [heq, if_true]
            exact hkeep st₁ hs₁ hg

/-! ### The whole pass -/

theorem materialOf_eq_some {material : NodeId} : materialOf n = some material ↔
    n.kind = .appearance ∧ n.target "material" = some material := by
  unfold materialOf
  split
  · next h => exact ⟨fun hm => ⟨h, hm⟩, And.right⟩
  · next h => exact ⟨nofun, fun hm => absurd hm.1 h⟩

/-- Where one stops before the cleaning, one stops after it. -/
theorem Sound.draws_self (h : Sound s values start pending st)
    (hstop : ∀ n, s.node? x = some n → n.kind.isPassed = false) :
    st.scene.Draws x [⟨[], x⟩] := by
  refine .stop fun m hm => ?_
  have hk := h.kind x
  rw [Scene.kind?, Scene.kind?, hm] at hk
  obtain ⟨n, hn, hnk⟩ := Option.map_eq_some_iff.1 hk.symm
  rw [← hnk]
  exact hstop n hn

theorem Sound.drawsAlike_self (h : Sound s values start pending st)
    (hstop : ∀ n, s.node? x = some n → n.kind.isPassed = false) :
    s.DrawsAlike st.scene x x :=
  ⟨_, _, .stop hstop, h.draws_self hstop, .cons ⟨rfl, .inl rfl⟩ .nil⟩

theorem Kept.standIn_of_not_isPassed (h : Kept s values pending st x n)
    (hk : n.kind.isPassed = false) : st.standIn x = x := by
  rw [standIn_of_replacement? h.replacement]
  cases hc : (n.prepared values).onlyChild? with
  | none => rfl
  | some c =>
    have hpassed := (Node.exists_of_onlyChild? hc).1
    rw [Node.kind_prepared, hk] at hpassed
    cases hpassed

/-- A group or transform that was kept draws what it drew if its children do. -/
theorem Kept.drawsAlike (h : Kept s values pending st x n) (hk : n.kind.isPassed = true)
    (hchild : ∀ c ∈ n.children, s.DrawsAlike st.scene c (st.standIn c)) :
    s.DrawsAlike st.scene x (st.standIn x) := by
  obtain ⟨m, hm, hlinks⟩ := h.now
  choose! f g hf using hchild
  have hbefore : s.Draws x ((n.children.flatMap f).map n.outside) :=
    .pass h.node hk f fun c hc => (hf c hc).1
  have honly := Node.onlyChild?_prepared values hk
  cases hc : n.onlyChild? with
  -- an only child draws what the node drew, as seen from outside
  | some c =>
    obtain ⟨-, hchildren, houtside⟩ := Node.exists_of_onlyChild? hc
    have hstand : st.standIn x = st.standIn c := by
      rw [standIn_of_replacement? h.replacement, honly, hc]
      rfl
    have hmem : c ∈ n.children := by
      rw [hchildren]
      exact List.mem_singleton_self c
    have hlist : (n.children.flatMap f).map n.outside = f c := by
      rw [hchildren, List.flatMap_singleton, funext houtside]
      exact List.map_id' _
    rw [hlist] at hbefore
    exact ⟨f c, g c, hbefore, hstand ▸ (hf c hmem).2.1, (hf c hmem).2.2⟩
  | none =>
    have hstand : st.standIn x = x := by
      rw [standIn_of_replacement? h.replacement, honly, hc]
      rfl
    have hchildren : m.children = n.children.map st.standIn := by
      rw [hlinks.children, Node.children_prepared hk]
    have hkind : m.kind.isPassed = true := by rw [hlinks.kind_eq, Node.kind_prepared, hk]
    have hafter := Scene.Draws.pass_map hm hkind hchildren fun c hc => (hf c hc).2.1
    rw [funext fun d => Node.outside_of_relinks hk hlinks d] at hafter
    exact ⟨_, _, hbefore, hstand.symm ▸ hafter,
      Scene.forall₂_alike_outside n fun c hc => (hf c hc).2.2⟩

section Finished

variable (h : Sound s values start [] st) (hac : s.Acyclic start)

include h hac

/-- What stands for a node has been kept, and need not make way itself. -/
theorem exists_kept_standIn (hx : s.Reaches start x) (hmet : Met s st x) :
    s.node? (st.standIn x) = none ∨
      ∃ n, Kept s values [] st (st.standIn x) n ∧ (n.prepared values).onlyChild? = none := by
  refine hac.induction (P := fun x => Met s st x → s.node? (st.standIn x) = none ∨
    ∃ n, Kept s values [] st (st.standIn x) n ∧ (n.prepared values).onlyChild? = none)
    (fun x _ ih hmet => ?_) hx hmet
  cases hr : st.replacement? x with
  | none =>
    rw [standIn_of_none hr]
    exact .inl (hmet.resolve_left (by rw [hr]; exact Bool.false_ne_true))
  | some r =>
    rcases h.settled x (by rw [hr]; rfl) List.not_mem_nil with
      ⟨n, hn⟩ | ⟨n, material, a, hn, hm, ha, hxa⟩
    -- the child that stands for a node may itself have made way for one below it
    · cases hc : (n.prepared values).onlyChild? with
      | none =>
        have hself : st.standIn x = x := by
          rw [standIn_of_replacement? hn.replacement, hc]
          rfl
        exact .inr ⟨n, hself.symm ▸ hn, hc⟩
      | some c =>
        have hmem : c ∈ n.refs := Node.mem_refs_prepared.1 (Node.mem_refs_of_onlyChild? hc)
        have hstand : st.standIn x = st.standIn c := by
          rw [standIn_of_replacement? hn.replacement, hc]
          rfl
        rw [hstand]
        exact ih c (by rwa [Scene.Refers, Scene.refs_of_node? hn.node]) (hn.below c hmem).2
    · obtain ⟨⟨k, hk, hkm⟩, hplace⟩ := h.first material a ha
      obtain ⟨k', hk'⟩ := hplace.resolve_left List.not_mem_nil
      obtain rfl := Option.some.inj (hk.symm.trans hk'.node)
      rw [standIn_of_replacement? hxa]
      refine .inr ⟨k, hk', Node.onlyChild?_of_not_isPassed ?_⟩
      rw [Node.kind_prepared, (materialOf_eq_some.1 hkm).1]
      rfl

/-- What is reachable at last has been kept. -/
theorem kept_of_reaches (hstart : s.node? start = none ∨ ∃ n, Kept s values [] st start n)
    (hx : st.scene.Reaches start x) : s.node? x = none ∨ ∃ n, Kept s values [] st x n := by
  induction hx with
  | refl => exact hstart
  | @tail x y _ hxy ih =>
    rcases ih with hgone | ⟨n, hn⟩
    · have hnone : st.scene.node? x = none := by
        have hk := h.kind x
        rw [Scene.kind?, Scene.kind?, hgone] at hk
        exact Option.map_eq_none_iff.1 hk
      rw [Scene.Refers, Scene.refs_of_none hnone] at hxy
      exact absurd hxy List.not_mem_nil
    · obtain ⟨m, hm, hlinks⟩ := hn.now
      rw [Scene.Refers, Scene.refs_of_node? hm] at hxy
      obtain ⟨c, hc, rfl⟩ := hlinks.exists_of_mem_refs hxy
      have hmem := Node.mem_refs_prepared.1 hc
      have hreach : s.Reaches start x := h.reached x (by rw [hn.replacement]; rfl)
      have hrefers : s.Refers x c := by rwa [Scene.Refers, Scene.refs_of_node? hn.node]
      exact (exists_kept_standIn h hac (hreach.tail hrefers) (hn.below c hmem).2).imp_right
        (Exists.imp fun _ => And.left)

/-- What stands for a node draws what the node drew. -/
theorem drawsAlike_standIn (hx : s.Reaches start x) (hmet : Met s st x) :
    s.DrawsAlike st.scene x (st.standIn x) := by
  refine hac.induction (P := fun x => Met s st x → s.DrawsAlike st.scene x (st.standIn x))
    (fun x _ ih hmet => ?_) hx hmet
  cases hr : st.replacement? x with
  | none =>
    have hgone : s.node? x = none := hmet.resolve_left (by rw [hr]; exact Bool.false_ne_true)
    rw [standIn_of_none hr]
    exact h.drawsAlike_self fun n hn => absurd (hgone.symm.trans hn) (by simp)
  | some r =>
    rcases h.settled x (by rw [hr]; rfl) List.not_mem_nil with
      ⟨n, hn⟩ | ⟨n, material, a, hn, hm, ha, hxa⟩
    · cases hk : n.kind.isPassed with
      | false =>
        rw [hn.standIn_of_not_isPassed hk]
        refine h.drawsAlike_self fun k hk' => ?_
        obtain rfl := Option.some.inj (hn.node.symm.trans hk')
        exact hk
      | true =>
        refine hn.drawsAlike hk fun c hc => ?_
        have hmem : c ∈ n.refs := (n.targets_sublist_refs _).subset hc
        exact ih c (by rwa [Scene.Refers, Scene.refs_of_node? hn.node]) (hn.below c hmem).2
    · rw [standIn_of_replacement? hxa]
      obtain ⟨⟨k, hk, hkm⟩, -⟩ := h.first material a ha
      obtain ⟨hkind, htarget⟩ := materialOf_eq_some.1 hm
      obtain ⟨hkind', htarget'⟩ := materialOf_eq_some.1 hkm
      refine ⟨_, _, .stop fun m hm => ?_, h.draws_self fun m hm => ?_, .cons ⟨rfl, .inr
        ⟨n, k, material, hn, hk, hkind, hkind', htarget, htarget'⟩⟩ .nil⟩
      · obtain rfl := Option.some.inj (hn.symm.trans hm)
        rw [hkind]
        rfl
      · obtain rfl := Option.some.inj (hk.symm.trans hm)
        rw [hkind']
        rfl

end Finished

end CleanState

namespace Scene

open CleanState in
/-- What cleaning a scene comes to, if there are no cycles. -/
theorem outcome_clean {s : Scene} (h : s.Acyclic s.root) (values : CleanValues) :
    Outcome s values s.root [] ⟨s, .empty⟩ s.root (s.cleanNode values .empty s.root) := by
  refine clean_spec h (s.size + 1) [] ⟨s, .empty⟩ s.root (sound_empty s values s.root) ?_ .refl
    fun p hp => absurd hp List.not_mem_nil
  have hnil : (CleanState.mk s .empty).met = [] := rfl
  rw [hnil, unmet_nil]
  exact Nat.lt_succ_self _

open CleanState in
/-- **Cleaning keeps what is drawn.** -/
theorem keepsDrawing_clean {s : Scene} (h : s.Acyclic s.root) (values : CleanValues) :
    s.KeepsDrawing (s.clean values .empty).scene := by
  have hout := outcome_clean h values
  refine ⟨hout.sound.root, fun id hid n hn => ?_⟩
  obtain ⟨k, hk⟩ := (kept_of_reaches hout.sound h (hout.kept rfl fun _ => rfl) hid).resolve_left
    (by rw [hn]; exact Option.some_ne_none n)
  obtain rfl := Option.some.inj (hk.node.symm.trans hn)
  obtain ⟨m, hm, hlinks⟩ := hk.now
  refine ⟨m, hm, hlinks.kind_eq.trans (Node.kind_prepared ..), fun field v hv => ?_⟩
  have hrefs := Node.map_refs_get?_prepared values k field
  rw [hv] at hrefs
  obtain ⟨u, hu, huv⟩ := Option.map_eq_some_iff.1 hrefs
  refine ⟨u.relink _, by rw [hlinks.get?_eq, hu, Option.map_some], ?_⟩
  rw [FieldValue.refs_relink, huv, List.forall₂_map_right_iff, List.forall₂_same]
  intro t ht
  have hmem : t ∈ k.refs := Node.mem_refs_iff.2 ⟨field, v, hv, ht⟩
  have hreach : s.Reaches s.root id := hout.sound.reached id (by rw [hk.replacement]; rfl)
  refine drawsAlike_standIn hout.sound h (hreach.tail ?_) (hk.below t hmem).2
  rwa [Refers, refs_of_node? hk.node]

/-- A scene that holds a shape twice, the second time in a transform that moves nothing, and another
shape whose appearance has the same material. -/
def twins : Scene :=
  ⟨#[(Node.create .scene none).setChildren [3, 1, 2], (Node.create .transform none).setChildren [3],
    (Node.create .shape none).set "appearance" (.node (some 4)),
    (Node.create .shape none).set "appearance" (.node (some 5)),
    (Node.create .appearance none).set "material" (.node (some 6)),
    (Node.create .appearance none).set "material" (.node (some 6)),
    Node.create .material none], 0⟩

theorem acyclic_twins : twins.Acyclic twins.root := by
  refine acyclic_of_lt fun a b hab => ?_
  have hsize : a < 7 := node?_isSome_iff.1 (node?_isSome_of_mem_refs hab)
  have hall : ∀ a < 7, ∀ b ∈ twins.refs a, a < b := by decide +kernel
  exact hall a hsize b hab

theorem keepsDrawing_clean_twins :
    twins.Acyclic twins.root ∧ twins.KeepsDrawing (twins.clean .standard .empty).scene :=
  ⟨acyclic_twins, keepsDrawing_clean acyclic_twins .standard⟩

-- the transform goes, and the appearance met first is shared
example : (twins.clean .standard .empty).scene.children 0 = [3, 3, 2] ∧
    (twins.clean .standard .empty).scene.refs 2 = [5] := by
  decide +kernel

end Scene

end SceneTidy
