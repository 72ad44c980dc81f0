import SceneTidy.Proofs.Simplify.Stale

/-!
# The normal form of cleaning

A scene is in normal form when no reference leads to a group or an identity transform with a single
child, no two appearances have the same material, and every rotation by no angle, every material and
every face set holds what cleaning gives to it (`Scene.IsNormal`).  Cleaning a scene without cycles
reaches this form (`Scene.isNormal_clean`), and leaves a scene in this form as it is, cycles or not
(`Scene.IsNormal.isClean`).  Main statement: one pass is enough
(`Scene.isNormal_and_isClean_clean`).
-/

namespace SceneTidy

namespace Node

variable {n m : Node} {field : String} {v w : FieldValue} {values : CleanValues}
  {f : NodeId → NodeId}

/-! ### Values that are there already -/

/-- Giving a field the value that it has changes nothing. -/
theorem set_self (h : n.get? field = some v) : n.set field v = n := by
  obtain ⟨l₁, d, l₂, hs, -, hset⟩ := exists_slots_of_get? h
  exact eq_of_slots_eq rfl rfl ((hset v rfl).trans hs.symm)

/-- A value that a field was not given was there before. -/
theorem get?_of_get?_set {other : String} (h : (n.set other w).get? field = some v) (hne : v ≠ w) :
    n.get? field = some v := by
  obtain ⟨d, hd, rfl⟩ := exists_mem_slots_of_get? h
  rw [slots_set, List.mem_map] at hd
  obtain ⟨p, hp, he⟩ := hd
  split at he
  · exact absurd (Prod.mk.inj he).2.symm hne
  · exact get?_of_mem_slots (he ▸ hp)

/-- A field holds what it was given, if it was declared for such values. -/
theorem get?_set_of_declared {k : NodeKind} {l : FieldKind} (hn : n.kind = k) (hv : v.kind = l)
    (h : ∃ d ∈ k.fields, d.name = field ∧ d.kind = l) : (n.set field v).get? field = some v := by
  obtain ⟨d, hd, rfl, hk⟩ := h
  exact get?_set_of_kind (hn ▸ hd) (hv.trans hk.symm)

theorem Relinks.target (h : Relinks f n m) (field : String) :
    m.target field = (n.target field).map f := by
  rw [Node.target, Node.target, h.get?_eq]
  cases n.get? field with
  | none => rfl
  | some v => cases v <;> rfl

/-! ### Wrappers -/

/-- A group with a single child, or a transform with a single child that moves nothing. -/
def IsWrapper (n : Node) : Prop :=
  n.children.length = 1 ∧ (n.kind = .group ∨ n.kind = .transform ∧ n.placement.isIdentity = true)

/-- Wrappers are the nodes that make way for their only child. -/
theorem onlyChild?_eq_none_iff : n.onlyChild? = none ↔ ¬ n.IsWrapper := by
  unfold onlyChild? IsWrapper
  split
  · next c hc =>
    rw [hc]
    split
    · next h => simp [h]
    · next h => simp [h]
  · next h =>
    refine ⟨fun _ hw => ?_, fun _ => rfl⟩
    obtain ⟨c, hc⟩ := List.length_eq_one_iff.1 hw.1
    exact h c hc

/-! ### The values that cleaning gives -/

/-- The fields of a node hold what cleaning gives to them. -/
structure HasValues (values : CleanValues) (n : Node) : Prop where
  rotation : ∀ field r, n.get? field = some (.one .rotation r) → r.angle.same .zero = true →
    r = Rotation.identity
  material : n.kind = .material →
    n.get? "ambientIntensity" = some (.one .float values.ambientIntensity) ∧
    n.get? "shininess" = some (.one .float values.shininess) ∧
    n.get? "specularColor" = some (.one .color values.specularColor)
  faceSet : n.kind = .indexedFaceSet → ∀ solid, values.forceSolid = some solid →
    n.get? "solid" = some (.one .bool solid)

/-- A rotation of a prepared node comes of straightening. -/
theorem get?_straighten_of_prepared {r : Rotation}
    (h : (n.prepared values).get? field = some (.one .rotation r)) :
    n.straighten.get? field = some (.one .rotation r) := by
  unfold prepared applyValues at h
  split at h
  · exact get?_of_get?_set (get?_of_get?_set (get?_of_get?_set h nofun) nofun) nofun
  · split at h
    · exact get?_of_get?_set h nofun
    · exact h
  · exact h

/-- Preparing a node gives it the values. -/
theorem hasValues_prepared (values : CleanValues) (n : Node) :
    (n.prepared values).HasValues values where
  rotation field r h hr := by
    have hs := get?_straighten_of_prepared h
    rw [get?_straighten] at hs
    obtain ⟨v, -, hv⟩ := Option.map_eq_some_iff.1 hs
    unfold straightenValue at hv
    split at hv
    · next q =>
      have hq : (if q.angle.same .zero then Rotation.identity else q) = r := by simpa using hv
      split at hq
      · exact hq.symm
      · next hangle => exact absurd (hq ▸ hr) hangle
    · next hno =>
      subst hv
      exact absurd rfl (hno r)
  material hk := by
    rw [kind_prepared] at hk
    have hkind : n.straighten.kind = .material := hk
    unfold prepared applyValues
    rw [hkind]
    refine ⟨?_, ?_, get?_set_of_declared (l := .one .color) hkind rfl (by decide +kernel)⟩
    · rw [get?_set_of_ne _ (by decide), get?_set_of_ne _ (by decide)]
      exact get?_set_of_declared (l := .one .float) hkind rfl (by decide +kernel)
    · rw [get?_set_of_ne _ (by decide)]
      exact get?_set_of_declared (l := .one .float) hkind rfl (by decide +kernel)
  faceSet hk solid hsolid := by
    rw [kind_prepared] at hk
    have hkind : n.straighten.kind = .indexedFaceSet := hk
    unfold prepared applyValues
    rw [hkind, hsolid]
    exact get?_set_of_declared (l := .one .bool) hkind rfl (by decide +kernel)

namespace HasValues

/-- A node that has the values is left as it is. -/
theorem prepared_eq (h : n.HasValues values) : n.prepared values = n := by
  have hstraight : n.straighten = n := by
    refine eq_of_get?_eq rfl rfl fun d _ => ?_
    rw [get?_straighten]
    cases hv : n.get? d.name with
    | none => rfl
    | some v =>
      refine congrArg some ?_
      unfold straightenValue
      split
      · next r =>
        split
        · next hr => rw [h.rotation d.name r hv hr]
        · rfl
      · rfl
  rw [prepared, hstraight]
  unfold applyValues
  split
  · next hk =>
    obtain ⟨hambient, hshininess, hspecular⟩ := h.material hk
    rw [set_self hambient, set_self hshininess, set_self hspecular]
  · next hk =>
    split
    · next solid hsolid => exact set_self (h.faceSet hk solid hsolid)
    · rfl
  · rfl

/-- Other references change nothing of that. -/
theorem relinks (h : n.HasValues values) (hl : Relinks f n m) : m.HasValues values := by
  have hone : ∀ field k (x : k.Value), m.get? field = some (.one k x) ↔
      n.get? field = some (.one k x) := by
    intro field k x
    rw [hl.get?_eq]
    cases n.get? field with
    | none => simp
    | some v => cases v <;> simp [FieldValue.relink]
  refine ⟨fun field r hr => h.rotation field r ((hone ..).1 hr), fun hk => ?_,
    fun hk solid hsolid => (hone ..).2 (h.faceSet (hl.kind_eq ▸ hk) solid hsolid)⟩
  obtain ⟨hambient, hshininess, hspecular⟩ := h.material (hl.kind_eq ▸ hk)
  exact ⟨(hone ..).2 hambient, (hone ..).2 hshininess, (hone ..).2 hspecular⟩

end HasValues

end Node

namespace Scene

variable {s t : Scene} {values : CleanValues}

/-! ### Normal form -/

/-- The normal form that cleaning with certain values reaches. -/
structure IsNormal (t : Scene) (values : CleanValues) : Prop where
  wrapper : ∀ x y n, t.Reaches t.root x → t.Refers x y → t.node? y = some n → ¬ n.IsWrapper
  appearance : ∀ a b, t.Reaches t.root a → t.Reaches t.root b → t.SharesMaterial a b → a = b
  values : ∀ x n, t.Reaches t.root x → t.node? x = some n → n.HasValues values

/-- Every reachable appearance has a material, or none, where a material belongs. -/
def HasMaterials (s : Scene) : Prop :=
  ∀ a n m, s.Reaches s.root a → s.node? a = some n → n.kind = .appearance →
    n.target "material" = some m → s.kind? m = some .material

/-- A change that changes nothing. -/
theorem modify_self {id : NodeId} {f : Node → Node} (h : ∀ n, s.node? id = some n → f n = n) :
    s.modify id f = s := by
  have hnodes : s.nodes.modify id f = s.nodes := by
    refine Array.ext_getElem? fun x => ?_
    have hx := s.node?_modify id f x
    show (s.modify id f).node? x = s.node? x
    rw [hx]
    split
    · next he =>
      subst he
      cases hn : s.node? id with
      | none => rfl
      | some n => rw [Option.map_some, h n hn]
    · rfl
  rw [modify, hnodes]

end Scene

namespace CleanState

variable {s t : Scene} {values : CleanValues} {start id x y a b : NodeId} {st : CleanState}
  {n m : Node}

/-! ### The form is reached -/

section Reached

variable (h : Sound s values start [] st) (hac : s.Acyclic start)

include h

/-- A node that is no group, transform or appearance stands for itself. -/
theorem Sound.standIn_of_kind {k : NodeKind} (hx : s.kind? x = some k) (hk : k.isPassed = false)
    (happ : k ≠ .appearance) : st.standIn x = x := by
  cases hr : st.replacement? x with
  | none => exact standIn_of_none hr
  | some r =>
    rcases h.settled x (by rw [hr]; rfl) List.not_mem_nil with ⟨n, hn⟩ | ⟨n, M, a, hn, hm, -, -⟩
    · rw [Scene.kind?_of_node? hn.node] at hx
      exact hn.standIn_of_not_isPassed (Option.some.inj hx ▸ hk)
    · rw [Scene.kind?_of_node? hn, (materialOf_eq_some.1 hm).1] at hx
      exact absurd (Option.some.inj hx).symm happ

include hac

variable (hstart : s.node? start = none ∨ ∃ n, Kept s values [] st start n)

include hstart

/-- A node that is reachable at last has been prepared, and refers to what stands for other nodes.
-/
theorem exists_kept_of_node? (hx : st.scene.Reaches start x) (hm : st.scene.node? x = some m) :
    ∃ n, Kept s values [] st x n ∧ Node.Relinks st.standIn (n.prepared values) m := by
  rcases kept_of_reaches h hac hstart hx with hgone | ⟨n, hn⟩
  · have hk := h.kind x
    rw [Scene.kind?, Scene.kind?, hgone, hm] at hk
    cases hk
  · obtain ⟨m', hm', hlinks⟩ := hn.now
    obtain rfl := Option.some.inj (hm.symm.trans hm')
    exact ⟨n, hn, hlinks⟩

/-- No reference leads to a node that has to make way. -/
theorem onlyChild?_of_refers (hx : st.scene.Reaches start x) (hxy : st.scene.Refers x y)
    (hm : st.scene.node? y = some m) : m.onlyChild? = none := by
  obtain ⟨k, hk⟩ := Option.isSome_iff_exists.1 (Scene.node?_isSome_of_mem_refs hxy)
  obtain ⟨n, hn, hlinks⟩ := exists_kept_of_node? h hac hstart hx hk
  rw [Scene.Refers, Scene.refs_of_node? hk] at hxy
  obtain ⟨c, hc, rfl⟩ := hlinks.exists_of_mem_refs hxy
  have hmem : c ∈ n.refs := Node.mem_refs_prepared.1 hc
  have hrefers : s.Refers x c := by rwa [Scene.Refers, Scene.refs_of_node? hn.node]
  have hreach : s.Reaches start x := h.reached x (by rw [hn.replacement]; rfl)
  rcases exists_kept_standIn h hac (hreach.tail hrefers) (hn.below c hmem).2 with
    hgone | ⟨l, hl, honly⟩
  · have hkind := h.kind (st.standIn c)
    rw [Scene.kind?, Scene.kind?, hgone, hm] at hkind
    cases hkind
  · obtain ⟨m', hm', hlinks'⟩ := hl.now
    obtain rfl := Option.some.inj (hm.symm.trans hm')
    rw [hlinks'.onlyChild?, honly]
    rfl

/-- An appearance that is reachable at last has been the first of its material. -/
theorem first?_of_materialOf (ht : Tracked s values [] st)
    (hmaterials : ∀ a n m, s.Reaches start a → s.node? a = some n → n.kind = .appearance →
      n.target "material" = some m → s.kind? m = some .material)
    {material : NodeId} (ha : st.scene.Reaches start a) (hm : st.scene.node? a = some m)
    (hmat : materialOf m = some material) : st.first? material = some a := by
  obtain ⟨n, hn, hlinks⟩ := exists_kept_of_node? h hac hstart ha hm
  obtain ⟨hk, htarget⟩ := materialOf_eq_some.1 hmat
  have hkn : n.kind = .appearance := by rw [← hk, hlinks.kind_eq, Node.kind_prepared]
  have hprepared : (n.prepared values).target "material" = n.target "material" := by
    rw [Node.prepared_eq_straighten (by rw [hkn]; decide) (by rw [hkn]; decide),
      Node.target_straighten]
  rw [hlinks.target, hprepared] at htarget
  obtain ⟨M, hM, hstand⟩ := Option.map_eq_some_iff.1 htarget
  have hreach : s.Reaches start a := h.reached a (by rw [hn.replacement]; rfl)
  -- the material stands for itself, so that it is the one that the appearance had
  rw [h.standIn_of_kind (hmaterials a n M hreach hn.node hkn hM) rfl (by decide)] at hstand
  have hself : st.replacement? a = some a := by
    have hstand := hn.standIn_of_not_isPassed (by rw [hkn]; rfl)
    rw [standIn_of_replacement? hn.replacement] at hstand
    rw [hn.replacement, hstand]
  exact ht.firsts a a n material hself hn.node (materialOf_eq_some.2 ⟨hkn, hstand ▸ hM⟩)

end Reached

/-! ### The form is left alone -/

/-- The state of a pass that has changed nothing. -/
structure Idle (t : Scene) (st : CleanState) : Prop where
  scene : st.scene = t
  replacement : ∀ x r, st.replacement? x = some r → r = x
  first : ∀ material a, st.first? material = some a →
    t.Reaches t.root a ∧ ∃ n, t.node? a = some n ∧ materialOf n = some material
  unwrapped : st.memory.unwrapped = 0
  shared : st.memory.shared = 0

theorem idle_empty (t : Scene) : Idle t ⟨t, .empty⟩ where
  scene := rfl
  replacement _ _ h := by cases h
  first _ _ h := by cases h
  unwrapped := rfl
  shared := rfl

theorem Idle.replace (h : Idle t st) (id : NodeId) : Idle t (st.replace id id) := by
  refine ⟨h.scene, fun x r hr => ?_, h.first, h.unwrapped, h.shared⟩
  rw [replacement?_replace] at hr
  split at hr
  · next he => rw [he, Option.some.inj hr]
  · exact h.replacement x r hr

theorem Idle.mapScene (h : Idle t st) {f : Scene → Scene} (hf : f t = t) :
    Idle t (st.mapScene f) :=
  ⟨by rw [← hf, ← h.scene]; rfl, h.replacement, h.first, h.unwrapped, h.shared⟩

/-- An appearance may be noted that is the first of its material. -/
theorem Idle.firstAppearance (h : Idle t st) (hid : t.Reaches t.root id) (hn : t.node? id = some n)
    {material : NodeId} (hm : materialOf n = some material)
    (hfirst : ∀ a, st.first? material = some a → a = id) :
    ∃ st₁, st.firstAppearance material id = (id, st₁) ∧ Idle t st₁ := by
  unfold CleanState.firstAppearance
  cases hl : st.memory.appearances.lookup material with
  | some a =>
    obtain rfl := hfirst a hl
    exact ⟨st, rfl, h⟩
  | none =>
    refine ⟨_, rfl, h.scene, h.replacement, fun x a ha => ?_, h.unwrapped, h.shared⟩
    have hx : List.lookup x ((material, id) :: st.memory.appearances) = some a := ha
    rw [List.lookup_cons] at hx
    split at hx
    · next hxm =>
      obtain rfl : x = material := by simpa using hxm
      obtain rfl := Option.some.inj hx
      exact ⟨hid, n, hn, hm⟩
    · exact h.first x a hx

/-- A node that is reachable and need not make way. -/
def Firm (t : Scene) (id : NodeId) : Prop :=
  t.Reaches t.root id ∧ ∀ n, t.node? id = some n → ¬ n.IsWrapper

/-- A cleaner changes nothing and leaves firm nodes where they are. -/
def Idles (t : Scene) (clean : Cleaner) : Prop :=
  ∀ st id, Idle t st → Firm t id → Idle t (clean id st).2 ∧ (clean id st).1 = id

namespace Idles

variable {clean : Cleaner} (hc : Idles t clean)

include hc

theorem list {l : List NodeId} (h : Idle t st) (hl : ∀ x ∈ l, Firm t x) :
    Idle t (cleanList clean l st).2 ∧ (cleanList clean l st).1 = l := by
  induction l generalizing st with
  | nil => exact ⟨h, rfl⟩
  | cons x l ih =>
    obtain ⟨hx, hl⟩ := List.forall_mem_cons.1 hl
    obtain ⟨h₁, hsame⟩ := hc st x h hx
    obtain ⟨h₂, hlist⟩ := ih h₁ hl
    refine ⟨h₂, ?_⟩
    show (clean x st).1 :: (cleanList clean l (clean x st).2).1 = x :: l
    rw [hsame, hlist]

/-- A field that refers to firm nodes gets the value that it has. -/
theorem field (h : Idle t st) (hn : t.node? id = some n) {p : FieldDecl × FieldValue}
    (hp : n.get? p.1.name = some p.2) (hfirm : ∀ x ∈ p.2.refs, Firm t x) :
    Idle t (cleanField clean id st p) := by
  have hset : t.set id p.1.name p.2 = t := Scene.modify_self fun m hm => by
    obtain rfl := Option.some.inj (hn.symm.trans hm)
    exact Node.set_self hp
  obtain ⟨d, v⟩ := p
  cases v with
  | one k x => exact h
  | many k xs => exact h
  | node target =>
    cases target with
    | none => exact h
    | some x =>
      obtain ⟨h₁, hsame⟩ := hc st x h (hfirm x (List.mem_singleton_self x))
      show Idle t ((clean x st).2.mapScene (·.set id d.name (.node (some (clean x st).1))))
      rw [hsame]
      exact h₁.mapScene hset
  | nodes ts =>
    obtain ⟨h₁, hsame⟩ := hc.list (l := ts) h hfirm
    show Idle t ((cleanList clean ts st).2.mapScene
      (·.set id d.name (.nodes (cleanList clean ts st).1)))
    rw [hsame]
    exact h₁.mapScene hset

theorem fields (h : Idle t st) (hn : t.node? id = some n) {l : List (FieldDecl × FieldValue)}
    (hl : ∀ p ∈ l, n.get? p.1.name = some p.2) (hfirm : ∀ p ∈ l, ∀ x ∈ p.2.refs, Firm t x) :
    Idle t (l.foldl (cleanField clean id) st) := by
  induction l generalizing st with
  | nil => exact h
  | cons p l ih =>
    obtain ⟨hp, hl⟩ := List.forall_mem_cons.1 hl
    obtain ⟨hfirm₁, hfirm₂⟩ := List.forall_mem_cons.1 hfirm
    exact ih (hc.field h hn hp hfirm₁) hl hfirm₂

/-- What lies below a firm node is left alone, and the node as well. -/
theorem below (h : Idle t st) (hn : t.node? id = some n) (hid : ¬ n.IsWrapper)
    (hfirm : ∀ x ∈ n.refs, Firm t x) :
    Idle t (cleanBelow clean id n st).2 ∧ (cleanBelow clean id n st).1 = id := by
  have hslots : ∀ p ∈ n.slots, n.get? p.1.name = some p.2 := fun p hp => Node.get?_of_mem_slots hp
  have h₁ := hc.fields h hn hslots fun p hp x hx =>
    hfirm x (Node.mem_refs_iff.2 ⟨p.1.name, p.2, hslots p hp, hx⟩)
  rw [cleanBelow, unwrap, h₁.scene, hn, Option.bind_some, Node.onlyChild?_eq_none_iff.2 hid]
  exact ⟨h₁.replace id, rfl⟩

end Idles

/-- **A scene in normal form is left alone**, node by node. -/
theorem idles_clean (h : t.IsNormal values) (bound : Nat) :
    Idles t (CleanState.clean values bound) := by
  induction bound with
  | zero => exact fun st id hs _ => ⟨hs, rfl⟩
  | succ bound ih =>
    intro st id hs ⟨hreach, hid⟩
    have hlookup : st.memory.replacements.lookup id = st.replacement? id := rfl
    rw [CleanState.clean, hlookup]
    cases hr : st.replacement? id with
    | some r => exact ⟨hs, hs.replacement id r hr⟩
    | none =>
      rw [hs.scene]
      cases hn : t.node? id with
      | none => exact ⟨hs, rfl⟩
      | some n =>
        have hprepared : n.straighten.applyValues values = n :=
          (h.values id n hreach hn).prepared_eq
        have hfirm : ∀ x ∈ n.refs, Firm t x := by
          intro x hx
          have hrefers : t.Refers id x := by rwa [Scene.Refers, Scene.refs_of_node? hn]
          exact ⟨hreach.tail hrefers, fun m hm => h.wrapper id x m hreach hrefers hm⟩
        have hopen : Idle t ((st.replace id id).mapScene (·.modify id fun _ => n)) :=
          (hs.replace id).mapScene (Scene.modify_self fun m hm =>
            Option.some.inj (hn.symm.trans hm))
        simp only [hprepared]
        cases hm : materialOf n with
        | none => exact ih.below hopen hn (hid n hn) hfirm
        | some material =>
          -- the first appearance of the material is this one
          obtain ⟨st₁, heq, h₁⟩ := hopen.firstAppearance hreach hn hm fun a ha => by
            obtain ⟨hra, k, hk, hkm⟩ := hopen.first material a ha
            obtain ⟨hkind, htarget⟩ := materialOf_eq_some.1 hm
            obtain ⟨hkind', htarget'⟩ := materialOf_eq_some.1 hkm
            exact h.appearance a id hra hreach
              ⟨k, n, material, hk, hn, hkind', hkind, htarget', htarget⟩
          simp only [heq, if_true]
          exact ih.below h₁ hn (hid n hn) hfirm

end CleanState

namespace Scene

open CleanState

variable {s t : Scene} {values : CleanValues}

/-- **Cleaning reaches the normal form**, if there are no cycles. -/
theorem isNormal_clean (hac : s.Acyclic s.root) (hmaterials : s.HasMaterials)
    (values : CleanValues) : (s.clean values .empty).scene.IsNormal values := by
  have hs := (outcome_clean hac values).sound
  have hstart := (outcome_clean hac values).kept rfl fun _ => rfl
  have htracked := (trackedOutcome_clean s values).tracked
  have hscene : (s.clean values .empty).scene = (s.cleanNode values .empty s.root).2.scene := rfl
  rw [hscene]
  generalize (s.cleanNode values .empty s.root).2 = st at hs hstart htracked ⊢
  refine ⟨fun x y m hx hxy hm => ?_, fun a b ha hb hab => ?_, fun x m hx hm => ?_⟩
  · rw [hs.root] at hx
    exact Node.onlyChild?_eq_none_iff.1 (onlyChild?_of_refers hs hac hstart hx hxy hm)
  · rw [hs.root] at ha hb
    obtain ⟨n, m, material, hn, hm, hnk, hmk, hnt, hmt⟩ := hab
    have hfirst := first?_of_materialOf hs hac hstart htracked hmaterials ha hn
      (materialOf_eq_some.2 ⟨hnk, hnt⟩)
    rw [first?_of_materialOf hs hac hstart htracked hmaterials hb hm
      (materialOf_eq_some.2 ⟨hmk, hmt⟩)] at hfirst
    exact (Option.some.inj hfirst).symm
  · rw [hs.root] at hx
    obtain ⟨n, -, hlinks⟩ := exists_kept_of_node? hs hac hstart hx hm
    exact (Node.hasValues_prepared values n).relinks hlinks

/-- Cleaning changes nothing, and finds nothing to do. -/
def IsClean (t : Scene) (values : CleanValues) : Prop :=
  (t.clean values .empty).scene = t ∧
    ∃ memory, (t.clean values .empty).result = .ok memory ∧ memory.unwrapped = 0 ∧
      memory.shared = 0

/-- **A scene in normal form is clean**, if its root need not make way. -/
theorem IsNormal.isClean (h : t.IsNormal values)
    (hroot : ∀ n, t.node? t.root = some n → ¬ n.IsWrapper) : t.IsClean values := by
  obtain ⟨hidle, -⟩ := idles_clean h (t.size + 1) ⟨t, .empty⟩ t.root (idle_empty t) ⟨.refl, hroot⟩
  exact ⟨hidle.scene, _, rfl, hidle.unwrapped, hidle.shared⟩

/-- **One pass of cleaning is enough** for a scene without cycles. -/
theorem isNormal_and_isClean_clean (hac : s.Acyclic s.root) (hroot : s.kind? s.root = some .scene)
    (hmaterials : s.HasMaterials) (values : CleanValues) :
    (s.clean values .empty).scene.IsNormal values ∧
      (s.clean values .empty).scene.IsClean values := by
  have hnormal := isNormal_clean hac hmaterials values
  refine ⟨hnormal, hnormal.isClean fun n hn hwrapper => ?_⟩
  have hs := (outcome_clean hac values).sound
  have hkind : (s.clean values .empty).scene.kind? (s.clean values .empty).scene.root =
      some .scene := by
    rw [← hroot]
    exact (hs.kind _).trans (congrArg s.kind? hs.root)
  rw [kind?_of_node? hn] at hkind
  rcases hwrapper.2 with hk | ⟨hk, -⟩ <;> simp [hk] at hkind

theorem hasMaterials_twins : twins.HasMaterials := by
  have hall : ∀ a < 7, (twins.node? a).all fun n => (n.target "material").all fun m =>
      twins.kind? m = some .material := by decide +kernel
  intro a n m _ hn _ hm
  have ha := hall a (node?_isSome_iff.1 (by rw [hn]; rfl))
  rw [hn] at ha
  simpa [hm] using ha

theorem isNormal_and_isClean_clean_twins :
    (twins.Acyclic twins.root ∧ twins.kind? twins.root = some .scene ∧ twins.HasMaterials) ∧
      (twins.clean .standard .empty).scene.IsNormal .standard ∧
      (twins.clean .standard .empty).scene.IsClean .standard :=
  ⟨⟨acyclic_twins, rfl, hasMaterials_twins⟩,
    isNormal_and_isClean_clean acyclic_twins rfl hasMaterials_twins .standard⟩

end Scene

end SceneTidy
