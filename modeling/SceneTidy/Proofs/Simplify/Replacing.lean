import SceneTidy.Proofs.Simplify.Cleaning

/-!
# Cleaning in scenes with cycles

Where references form cycles a node may be met while it is still being cleaned, and then stands for
itself.  So a node that is finished refers to nodes of which each is the one referred to before or
the replacement of that (`CleanState.Settles`), and a replacement is a node that was referred to
before or an appearance; that is the invariant of the pass (`CleanState.Loose`).  Main statement: it
holds of the whole scene at the end (`Scene.loose_clean`).
-/

namespace SceneTidy

/-- The lists correspond entry by entry, so that each entry of the second comes of one of the
first. -/
theorem exists_mem_of_forall₂ {α β : Type} {R : α → β → Prop} {l : List α} {l' : List β}
    (h : List.Forall₂ R l l') : ∀ b ∈ l', ∃ a ∈ l, R a b := by
  induction h with
  | nil => exact fun b hb => absurd hb List.not_mem_nil
  | @cons a b l l' hab _ ih =>
    refine List.forall_mem_cons.2 ⟨⟨a, List.mem_cons_self .., hab⟩, fun b hb => ?_⟩
    obtain ⟨a, ha, hab⟩ := ih b hb
    exact ⟨a, List.mem_cons_of_mem _ ha, hab⟩

/-- A value whose references have been swapped for others, each for one that it is related to. -/
inductive FieldValue.Swapped (R : NodeId → NodeId → Prop) : FieldValue → FieldValue → Prop
  | plain {v} (h : v.refs = []) : Swapped R v v
  | node {t r} (h : R t r) : Swapped R (.node (some t)) (.node (some r))
  | nodes {ts rs} (h : List.Forall₂ R ts rs) : Swapped R (.nodes ts) (.nodes rs)

/-- A node whose references have been swapped for others. -/
structure Node.Swapped (R : NodeId → NodeId → Prop) (n m : Node) : Prop where
  kind : m.kind = n.kind
  slots : List.Forall₂ (fun p q => p.1 = q.1 ∧ p.2.Swapped R q.2) n.slots m.slots

variable {R S : NodeId → NodeId → Prop}

namespace FieldValue.Swapped

variable {v w : FieldValue}

theorem refl (h : ∀ a, R a a) (v : FieldValue) : v.Swapped R v := by
  cases v with
  | one k x => exact .plain rfl
  | many k xs => exact .plain rfl
  | node t =>
    cases t with
    | none => exact .plain rfl
    | some t => exact .node (h t)
  | nodes ts => exact .nodes (List.forall₂_same.2 fun t _ => h t)

theorem mono (h : ∀ a b, R a b → S a b) (hv : v.Swapped R w) : v.Swapped S w := by
  cases hv with
  | plain hv => exact .plain hv
  | node hr => exact .node (h _ _ hr)
  | nodes hr => exact .nodes (hr.imp h)

theorem refs (hv : v.Swapped R w) : List.Forall₂ R v.refs w.refs := by
  cases hv with
  | plain hv =>
    rw [hv]
    exact .nil
  | node hr => exact .cons hr .nil
  | nodes hr => exact hr

theorem kind_eq (hv : v.Swapped R w) : w.kind = v.kind := by
  cases hv <;> rfl

end FieldValue.Swapped

namespace Node.Swapped

variable {n m : Node}

theorem refl (h : ∀ a, R a a) (n : Node) : n.Swapped R n :=
  ⟨rfl, List.forall₂_same.2 fun _ _ => ⟨rfl, .refl h _⟩⟩

theorem mono (h : ∀ a b, R a b → S a b) (hn : n.Swapped R m) : n.Swapped S m :=
  ⟨hn.kind, hn.slots.imp fun _ _ hpq => ⟨hpq.1, hpq.2.mono h⟩⟩

theorem refs (hn : n.Swapped R m) : ∀ y ∈ m.refs, ∃ c ∈ n.refs, R c y := by
  have hall : List.Forall₂ R n.refs m.refs := by
    rw [refs_eq_flatMap_slots, refs_eq_flatMap_slots]
    exact List.rel_flatMap hn.slots fun _ _ hpq => hpq.2.refs
  exact exists_mem_of_forall₂ hall

/-- The values of a field correspond, if there is one. -/
theorem get? (hn : n.Swapped R m) (field : String) :
    Option.Rel (FieldValue.Swapped R) (n.get? field) (m.get? field) := by
  have hall : ∀ {l l' : List (FieldDecl × FieldValue)},
      List.Forall₂ (fun p q => p.1 = q.1 ∧ p.2.Swapped R q.2) l l' →
        Option.Rel (FieldValue.Swapped R) ((l.find? (·.1.name = field)).map Prod.snd)
          ((l'.find? (·.1.name = field)).map Prod.snd) := by
    intro l l' h
    induction h with
    | nil => exact .none
    | @cons p q l l' hpq _ ih =>
      obtain ⟨d, v⟩ := p
      obtain ⟨e, w⟩ := q
      obtain ⟨rfl, hvw⟩ := hpq
      by_cases hd : d.name = field
      · simpa [hd] using Option.Rel.some hvw
      · simpa [hd] using ih
  exact hall hn.slots

theorem targets (hn : n.Swapped R m) (field : String) :
    List.Forall₂ R (n.targets field) (m.targets field) := by
  have h := hn.get? field
  unfold Node.targets
  generalize n.get? field = v at h ⊢
  generalize m.get? field = w at h ⊢
  cases h with
  | none => exact .nil
  | @some v w hvw =>
    cases hvw with
    | nodes hr => exact hr
    | node => exact .nil
    | plain h =>
      cases v with
      | nodes ts =>
        obtain rfl : ts = [] := h
        exact .nil
      | _ => exact .nil

/-- Items are left alone. -/
theorem item (hn : n.Swapped R m) (field : String) (k : ItemKind) :
    m.item field k = n.item field k := by
  have h := hn.get? field
  unfold Node.item
  generalize n.get? field = v at h ⊢
  generalize m.get? field = w at h ⊢
  cases h with
  | none => rfl
  | some hvw => cases hvw <;> rfl

end Node.Swapped

namespace CleanState

variable {s : Scene} {values : CleanValues} {id x y : NodeId}
  {pending pending' except : List NodeId} {st st₁ st₂ : CleanState} {n : Node}

/-! ### The invariant -/

/-- A node is put in the place of another: it is that one, or its replacement for good. -/
def Settles (pending : List NodeId) (st : CleanState) (c r : NodeId) : Prop :=
  r = c ∨ c ∉ pending ∧ st.replacement? c = some r

/-- A node that may replace others: one that was referred to, or an appearance. -/
def Offered (s : Scene) (r : NodeId) : Prop :=
  (∃ a, s.Refers a r) ∨ s.kind? r = some .appearance

/-- A finished node has been prepared, and its references have been settled. -/
def Done (s : Scene) (values : CleanValues) (pending : List NodeId) (st : CleanState)
    (id : NodeId) : Prop :=
  ∃ n m, s.node? id = some n ∧ st.scene.node? id = some m ∧
    Node.Swapped (Settles pending st) (n.prepared values) m

/-- What holds while a scene is cleaned, be there cycles or not; the pending nodes have been met but
are not finished. -/
structure Loose (s : Scene) (values : CleanValues) (pending : List NodeId) (st : CleanState) :
    Prop where
  root : st.scene.root = s.root
  kind : ∀ x, st.scene.kind? x = s.kind? x
  untouched : ∀ x, st.replacement? x = none → st.scene.node? x = s.node? x
  waits : ∀ x ∈ pending, st.replacement? x = some x
  first : ∀ material a, st.first? material = some a → s.kind? a = some .appearance
  offered : ∀ x r, st.replacement? x = some r → r = x ∨ Offered s r
  done : ∀ x, (st.replacement? x).isSome → x ∉ pending → Done s values pending st x

theorem loose_empty (s : Scene) (values : CleanValues) : Loose s values [] ⟨s, .empty⟩ where
  root := rfl
  kind _ := rfl
  untouched _ _ := rfl
  waits _ h := absurd h List.not_mem_nil
  first _ _ h := by cases h
  offered _ _ h := by cases h
  done _ h := by cases h

/-- What has been settled stays so, if only replacements of pending nodes change. -/
theorem Settles.carry (h : Settles pending st x y) (hg : Grows except st st₁)
    (hexcept : ∀ a ∈ except, a ∈ pending)
    (hpending : ∀ a, (st.replacement? a).isSome → a ∉ pending → a ∉ pending') :
    Settles pending' st₁ x y := by
  rcases h with rfl | ⟨hx, hr⟩
  · exact .inl rfl
  · exact .inr ⟨hpending x (by simp [hr]) hx,
      hg.replacement x (fun he => hx (hexcept x he)) y hr⟩

theorem Done.carry (h : Done s values pending st id) (hg : Grows except st st₁)
    (hid : id ∉ except) (hmet : (st.replacement? id).isSome)
    (hexcept : ∀ a ∈ except, a ∈ pending)
    (hpending : ∀ a, (st.replacement? a).isSome → a ∉ pending → a ∉ pending') :
    Done s values pending' st₁ id := by
  obtain ⟨n, m, hn, hm, hswap⟩ := h
  exact ⟨n, m, hn, (hg.node id hid hmet).trans hm,
    hswap.mono fun _ _ hcr => hcr.carry hg hexcept hpending⟩

namespace Loose

theorem settles_of_some (h : Loose s values pending st) {r : NodeId}
    (hr : st.replacement? id = some r) : Settles pending st id r := by
  by_cases hp : id ∈ pending
  · exact .inl (Option.some.inj (hr.symm.trans (h.waits id hp)))
  · exact .inr ⟨hp, hr⟩

/-- A new node is pending once it has been met. -/
theorem opened (h : Loose s values pending st) (hid : st.replacement? id = none)
    (hn : s.node? id = some n) : Loose s values (id :: pending) (opened values id n st) := by
  have hg := grows_opened values n hid
  have hsome : ∀ x r, (CleanState.opened values id n st).replacement? x = some r →
      x = id ∧ r = id ∨ st.replacement? x = some r := by
    intro x r hx
    rw [replacement?_opened] at hx
    split at hx
    · exact .inl ⟨‹_›, (Option.some.inj hx).symm⟩
    · exact .inr hx
  have hself : (CleanState.opened values id n st).scene.node? id = some (n.prepared values) :=
    node?_opened_self (by simp [h.untouched id hid, hn])
  refine ⟨h.root, fun x => ?_, fun x hx => ?_, fun x hx => ?_, h.first, fun x r hr => ?_,
    fun x hx hp => ?_⟩
  · by_cases hx : x = id
    · rw [hx, Scene.kind?, hself, Scene.kind?, hn, Option.map_some, Option.map_some,
        Node.kind_prepared]
    · rw [Scene.kind?, node?_opened_of_ne n hx]
      exact h.kind x
  · rw [replacement?_opened] at hx
    split at hx
    · cases hx
    · next hne => rw [node?_opened_of_ne n hne, h.untouched x hx]
  · rw [replacement?_opened]
    split
    · next he => rw [he]
    · next hne => exact h.waits x ((List.mem_cons.1 hx).resolve_left hne)
  · rcases hsome x r hr with ⟨rfl, rfl⟩ | hr
    · exact .inl rfl
    · exact h.offered x r hr
  · rw [List.mem_cons, not_or] at hp
    obtain ⟨r, hr⟩ := Option.isSome_iff_exists.1 hx
    have hmet : (st.replacement? x).isSome := by
      rw [(hsome x r hr).resolve_left fun he => hp.1 he.1]
      rfl
    refine (h.done x hmet hp.2).carry hg List.not_mem_nil hmet
      (fun a ha => absurd ha List.not_mem_nil) fun a ha hap hmem => ?_
    -- the new node had no replacement, so that no finished one goes by it
    rcases List.mem_cons.1 hmem with rfl | hmem
    · rw [hid] at ha
      cases ha
    · exact hap hmem

/-- A pending node may be changed, if it keeps its kind. -/
theorem set (h : Loose s values (id :: pending) st) (field : String) (v : FieldValue) :
    Loose s values (id :: pending) (st.mapScene (·.set id field v)) ∧
      Grows [id] st (st.mapScene (·.set id field v)) := by
  have hnode : ∀ x, x ≠ id → (st.mapScene (·.set id field v)).scene.node? x = st.scene.node? x :=
    fun x hx => (st.scene.node?_modify id _ x).trans (if_neg hx.symm)
  have hg : Grows [id] st (st.mapScene (·.set id field v)) :=
    ⟨fun _ _ _ h => h, fun x hx _ => hnode x (List.ne_of_not_mem_cons hx), fun _ _ h => h,
      fun _ h => h⟩
  refine ⟨⟨h.root, fun x => (Scene.kind?_set ..).trans (h.kind x), fun x hx => ?_, h.waits, h.first,
    h.offered, fun x hx hp => ?_⟩, hg⟩
  · refine (hnode x ?_).trans (h.untouched x hx)
    rintro rfl
    have hself := h.waits x (List.mem_cons_self ..)
    have hx' : st.replacement? x = none := hx
    rw [hself] at hx'
    cases hx'
  · exact (h.done x hx hp).carry hg (by simpa using List.ne_of_not_mem_cons hp) hx (by simp)
      fun _ _ hp => hp

/-- A pending node is finished when it has got a replacement that it may have. -/
theorem settle {r : NodeId} {m : Node} (h : Loose s values (id :: pending) st)
    (hnew : id ∉ pending) (hr : r = id ∨ Offered s r) (hrenamed : Renamed id r st st₁)
    (hn : s.node? id = some n) (hm : st.scene.node? id = some m)
    (hswap : Node.Swapped (Settles (id :: pending) st) (n.prepared values) m) :
    Loose s values pending st₁ := by
  have hcarry : ∀ a, (st.replacement? a).isSome → a ∉ id :: pending → a ∉ pending :=
    fun a _ ha hmem => ha (List.mem_cons_of_mem _ hmem)
  refine ⟨by rw [hrenamed.scene, h.root], fun x => by rw [hrenamed.scene, h.kind],
    fun x hx => ?_, fun x hx => ?_, fun material a ha => ?_, fun x q hq => ?_, fun x hx hp => ?_⟩
  · rw [hrenamed.replacement] at hx
    split at hx
    · cases hx
    · rw [hrenamed.scene, h.untouched x hx]
  · have hne : x ≠ id := fun he => hnew (he ▸ hx)
    rw [hrenamed.replacement_of_ne hne, h.waits x (List.mem_cons_of_mem _ hx)]
  · exact h.first material a (by rwa [hrenamed.first] at ha)
  · rw [hrenamed.replacement] at hq
    split at hq
    · next he =>
      obtain rfl := Option.some.inj hq
      exact he ▸ hr
    · exact h.offered x q hq
  · by_cases hx' : x = id
    · subst hx'
      exact ⟨n, m, hn, by rw [hrenamed.scene, hm],
        hswap.mono fun _ _ hcr => hcr.carry hrenamed.grows (by simp) hcarry⟩
    · rw [hrenamed.replacement_of_ne hx'] at hx
      exact (h.done x hx (by simp [hx', hp])).carry hrenamed.grows (by simpa using hx') hx
        (by simp) hcarry

/-- An appearance may be noted as the first of its material. -/
theorem note {material : NodeId} (h : Loose s values pending st)
    (hk : s.kind? id = some .appearance) (hnone : st.first? material = none)
    (hscene : st₁.scene = st.scene)
    (hrep : st₁.memory.replacements = st.memory.replacements)
    (hfirst : ∀ x, st₁.first? x = if x = material then some id else st.first? x) :
    Loose s values pending st₁ ∧ Grows [] st st₁ := by
  have hrep' : ∀ x, st₁.replacement? x = st.replacement? x := fun x => by
    rw [replacement?, hrep, ← replacement?]
  have hg : Grows [] st st₁ := by
    refine ⟨fun x _ r hr => by rw [hrep', hr], fun x _ _ => by rw [hscene], fun x a ha => ?_,
      fun x hx => by rwa [hrep']⟩
    rw [hfirst, if_neg, ha]
    rintro rfl
    rw [hnone] at ha
    cases ha
  refine ⟨⟨by rw [hscene, h.root], fun x => by rw [hscene, h.kind], fun x hx => ?_, fun x hx => ?_,
    fun x a ha => ?_, fun x r hr => h.offered x r (by rwa [hrep'] at hr), fun x hx hp => ?_⟩, hg⟩
  · rw [hscene]
    exact h.untouched x (by rwa [hrep'] at hx)
  · rw [hrep', h.waits x hx]
  · rw [hfirst] at ha
    split at ha
    · obtain rfl := Option.some.inj ha
      exact hk
    · exact h.first x a ha
  · rw [hrep'] at hx
    exact (h.done x hx hp).carry hg List.not_mem_nil hx (fun a ha => absurd ha List.not_mem_nil)
      fun _ _ hp => hp

end Loose

/-! ### Cleaning what a field refers to -/

/-- What cleaning a node comes to. -/
structure LooseOutcome (s : Scene) (values : CleanValues) (pending : List NodeId)
    (st : CleanState) (id : NodeId) (out : NodeId × CleanState) : Prop where
  loose : Loose s values pending out.2
  grows : Grows [] st out.2
  settles : Settles pending out.2 id out.1

/-- What cleaning a field of a pending node comes to: no other of its fields has changed. -/
structure FieldOutcome (s : Scene) (values : CleanValues) (pending : List NodeId)
    (st : CleanState) (id : NodeId) (m : Node) (l₁ : List (FieldDecl × FieldValue)) (d : FieldDecl)
    (v : FieldValue) (l₂ : List (FieldDecl × FieldValue)) (st₁ : CleanState) : Prop where
  loose : Loose s values (id :: pending) st₁
  grows : Grows [id] st st₁
  node : ∃ m' w, st₁.scene.node? id = some m' ∧ m'.kind = m.kind ∧
    m'.slots = l₁ ++ (d, w) :: l₂ ∧ v.Swapped (Settles (id :: pending) st₁) w

/-- A cleaner keeps the invariant, whatever is pending. -/
def CleansLoosely (s : Scene) (values : CleanValues) (clean : Cleaner) : Prop :=
  ∀ pending st id, Loose s values pending st → LooseOutcome s values pending st id (clean id st)

namespace CleansLoosely

variable {clean : Cleaner} (hc : CleansLoosely s values clean)

include hc

theorem list {l : List NodeId} (hs : Loose s values pending st) :
    Loose s values pending (cleanList clean l st).2 ∧ Grows [] st (cleanList clean l st).2 ∧
      List.Forall₂ (Settles pending (cleanList clean l st).2) l (cleanList clean l st).1 := by
  induction l generalizing st with
  | nil => exact ⟨hs, .refl _ _, .nil⟩
  | cons t l ih =>
    have hout := hc pending st t hs
    obtain ⟨hs₁, hg₁, hall⟩ := ih hout.loose
    refine ⟨hs₁, hout.grows.trans hg₁, .cons ?_ hall⟩
    exact hout.settles.carry hg₁ (fun a ha => absurd ha List.not_mem_nil) fun _ _ hp => hp

omit hc in
/-- A field of a pending node gets what its references have been settled as. -/
theorem put {d : FieldDecl} {v w : FieldValue} {l₁ l₂ : List (FieldDecl × FieldValue)} {m : Node}
    (hself : (st.replacement? id).isSome) (hm : st.scene.node? id = some m)
    (hslots : m.slots = l₁ ++ (d, v) :: l₂) (hs₁ : Loose s values (id :: pending) st₁)
    (hg₁ : Grows [] st st₁) (hswap : v.Swapped (Settles (id :: pending) st₁) w) :
    FieldOutcome s values pending st id m l₁ d v l₂ (st₁.mapScene (·.set id d.name w)) := by
  obtain ⟨hs₂, hg₂⟩ := hs₁.set d.name w
  have hm₁ : st₁.scene.node? id = some m := (hg₁.node id List.not_mem_nil hself).trans hm
  refine ⟨hs₂, (hg₁.weaken [id]).trans hg₂, m.set d.name w, w, ?_, rfl,
    Node.slots_set_of_eq hslots hswap.kind_eq, hswap⟩
  refine (st₁.scene.node?_modify id _ id).trans ((if_pos rfl).trans ?_)
  rw [hm₁]
  rfl

theorem field {d : FieldDecl} {v : FieldValue} {l₁ l₂ : List (FieldDecl × FieldValue)} {m : Node}
    (hs : Loose s values (id :: pending) st) (hm : st.scene.node? id = some m)
    (hslots : m.slots = l₁ ++ (d, v) :: l₂) :
    FieldOutcome s values pending st id m l₁ d v l₂ (cleanField clean id st (d, v)) := by
  have hself : (st.replacement? id).isSome := by simp [hs.waits id (List.mem_cons_self ..)]
  have hskip : v.refs = [] → FieldOutcome s values pending st id m l₁ d v l₂ st := fun hrefs =>
    ⟨hs, .refl _ st, m, v, hm, rfl, hslots, .plain hrefs⟩
  cases v with
  | one k x => exact hskip rfl
  | many k xs => exact hskip rfl
  | node target =>
    cases target with
    | none => exact hskip rfl
    | some t =>
      have hout := hc (id :: pending) st t hs
      exact put hself hm hslots hout.loose hout.grows (.node hout.settles)
  | nodes ts =>
    obtain ⟨hs₁, hg₁, hall⟩ := hc.list (l := ts) hs
    exact put hself hm hslots hs₁ hg₁ (.nodes hall)

/-- All fields of a pending node, one after the other. -/
theorem fields {l₁ l₁' l₂ : List (FieldDecl × FieldValue)} {m : Node}
    (hs : Loose s values (id :: pending) st) (hm : st.scene.node? id = some m)
    (hslots : m.slots = l₁' ++ l₂)
    (hdone : List.Forall₂
      (fun p q => p.1 = q.1 ∧ p.2.Swapped (Settles (id :: pending) st) q.2) l₁ l₁') :
    Loose s values (id :: pending) (l₂.foldl (cleanField clean id) st) ∧
      Grows [id] st (l₂.foldl (cleanField clean id) st) ∧
      ∃ m', (l₂.foldl (cleanField clean id) st).scene.node? id = some m' ∧ m'.kind = m.kind ∧
        List.Forall₂ (fun p q => p.1 = q.1 ∧
          p.2.Swapped (Settles (id :: pending) (l₂.foldl (cleanField clean id) st)) q.2)
          (l₁ ++ l₂) m'.slots := by
  induction l₂ generalizing l₁ l₁' st m with
  | nil =>
    rw [List.append_nil] at hslots ⊢
    exact ⟨hs, .refl _ st, m, hm, rfl, hslots ▸ hdone⟩
  | cons p l₂ ih =>
    obtain ⟨d, v⟩ := p
    obtain ⟨hs₁, hg₁, m₁, w, hm₁, hk₁, hslots₁, hswap⟩ := hc.field hs hm hslots
    have hdone₁ : List.Forall₂ (fun p q => p.1 = q.1 ∧
        p.2.Swapped (Settles (id :: pending) (cleanField clean id st (d, v))) q.2)
        (l₁ ++ [(d, v)]) (l₁' ++ [(d, w)]) := by
      refine List.rel_append (hdone.imp fun p q hpq => ⟨hpq.1, hpq.2.mono fun _ _ hcr => ?_⟩)
        (.cons ⟨rfl, hswap⟩ .nil)
      exact hcr.carry hg₁ (by simp) fun _ _ hp => hp
    obtain ⟨hs₂, hg₂, m₂, hm₂, hk₂, hall⟩ :=
      ih hs₁ hm₁ (by rw [hslots₁, List.append_assoc]; rfl) hdone₁
    rw [List.append_assoc] at hall
    exact ⟨hs₂, hg₁.trans hg₂, m₂, hm₂, hk₂.trans hk₁, hall⟩

/-- A new node gets its replacement when everything below it has been cleaned. -/
theorem below (hs : Loose s values (id :: pending) st) (hnew : id ∉ pending)
    (hn : s.node? id = some n) (hm : st.scene.node? id = some (n.prepared values)) :
    Loose s values pending (cleanBelow clean id (n.prepared values) st).2 ∧
      Grows [id] st (cleanBelow clean id (n.prepared values) st).2 ∧
      (cleanBelow clean id (n.prepared values) st).2.replacement? id =
        some (cleanBelow clean id (n.prepared values) st).1 := by
  obtain ⟨hs₁, hg₁, m, hm₁, hk, hslots⟩ := hc.fields hs hm (List.nil_append _).symm .nil
  rw [List.nil_append] at hslots
  rw [cleanBelow]
  generalize (n.prepared values).slots.foldl (cleanField clean id) st = st₁
    at hs₁ hg₁ hm₁ hslots ⊢
  have hswap : Node.Swapped (Settles (id :: pending) st₁) (n.prepared values) m := ⟨hk, hslots⟩
  obtain ⟨hout, hrenamed⟩ := renamed_unwrap hm₁
  have hoffered : m.onlyChild?.getD id = id ∨ Offered s (m.onlyChild?.getD id) := by
    cases hchild : m.onlyChild? with
    | none => exact .inl rfl
    | some c =>
      refine .inr ?_
      obtain ⟨a, ha, hac⟩ := hswap.refs c (Node.mem_refs_of_onlyChild? hchild)
      have hrefers : s.Refers id a := by
        rw [Scene.Refers, Scene.refs_of_node? hn]
        exact Node.mem_refs_prepared.1 ha
      rcases hac with rfl | ⟨-, hr⟩
      · exact .inl ⟨id, hrefers⟩
      · rcases hs₁.offered a c hr with rfl | hc
        · exact .inl ⟨id, hrefers⟩
        · exact hc
  refine ⟨hs₁.settle hnew hoffered hrenamed hn hm₁ hswap, hg₁.trans hrenamed.grows, ?_⟩
  rw [hout, hrenamed.replacement_self]

end CleansLoosely

section New

variable (hs : Loose s values pending st) (hr : st.replacement? id = none)
  (hn : s.node? id = some n)

include hs hr

theorem Loose.not_mem_pending : id ∉ pending := fun hp => by
  rw [hs.waits id hp] at hr
  cases hr

include hn

theorem Loose.node?_opened :
    (CleanState.opened values id n st).scene.node? id = some (n.prepared values) :=
  node?_opened_self (by rw [hs.untouched id hr, hn]; rfl)

/-- A new node is kept when everything below it has been cleaned. -/
theorem CleansLoosely.keep {clean : Cleaner} (hc : CleansLoosely s values clean)
    (hs₁ : Loose s values (id :: pending) st₁) (hg₁ : Grows [] (opened values id n st) st₁) :
    LooseOutcome s values pending st id (cleanBelow clean id (n.prepared values) st₁) := by
  have hopened : ((opened values id n st).replacement? id).isSome := by
    rw [replacement?_opened, if_pos rfl]
    rfl
  have hm₁ := (hg₁.node id List.not_mem_nil hopened).trans (hs.node?_opened hr hn)
  obtain ⟨hs₂, hg₂, hrep⟩ := hc.below hs₁ (hs.not_mem_pending hr) hn hm₁
  exact ⟨hs₂, ((((grows_opened values n hr).trans hg₁).weaken [id]).trans hg₂).of_new hr,
    .inr ⟨hs.not_mem_pending hr, hrep⟩⟩

/-- A new appearance makes way for the first one of its material. -/
theorem Loose.share {material a : NodeId} (ha : st.first? material = some a) :
    LooseOutcome s values pending st id
      (a, (CleanState.opened values id n st).countShared.replace id a) := by
  have hrenamed : Renamed id a (CleanState.opened values id n st)
      ((CleanState.opened values id n st).countShared.replace id a) :=
    ⟨rfl, replacement?_replace _ id a, fun _ => rfl⟩
  refine ⟨(hs.opened hr hn).settle (hs.not_mem_pending hr) (.inr (.inr (hs.first material a ha)))
    hrenamed hn (hs.node?_opened hr hn) (.refl (fun _ => .inl rfl) _), ?_,
    .inr ⟨hs.not_mem_pending hr, hrenamed.replacement_self⟩⟩
  exact (((grows_opened values n hr).weaken [id]).trans hrenamed.grows).of_new hr

end New

/-- **Cleaning a node** keeps the invariant, whatever is pending. -/
theorem cleansLoosely_clean (s : Scene) (values : CleanValues) (bound : Nat) :
    CleansLoosely s values (CleanState.clean values bound) := by
  induction bound with
  | zero => exact fun _ st _ hs => ⟨hs, .refl _ st, .inl rfl⟩
  | succ bound ih =>
    intro pending st id hs
    have hlookup : st.memory.replacements.lookup id = st.replacement? id := rfl
    rw [CleanState.clean, hlookup]
    cases hr : st.replacement? id with
    | some r => exact ⟨hs, .refl _ st, hs.settles_of_some hr⟩
    | none =>
      have hsame := hs.untouched id hr
      cases hn : s.node? id with
      | none =>
        rw [hn] at hsame
        simp only [hsame]
        exact ⟨hs, .refl _ st, .inl rfl⟩
      | some n =>
        rw [hn] at hsame
        simp only [hsame]
        have hopen := hs.opened hr hn
        have hmaterial : materialOf (n.straighten.applyValues values) = materialOf n :=
          Node.materialOf_prepared values n
        rw [hmaterial]
        cases hm : materialOf n with
        | none => exact ih.keep hs hr hn hopen (.refl _ _)
        | some material =>
          have hk : s.kind? id = some .appearance := by
            rw [Scene.kind?_of_node? hn, (materialOf_eq_some.1 hm).1]
          rcases firstAppearance_spec ((st.replace id id).mapScene
            (·.modify id fun _ => n.straighten.applyValues values)) material id with
            ⟨a, ha, heq⟩ | ⟨hnone, st₁, heq, hscene, hrep, hfirst⟩
          · simp only [heq]
            split
            · exact ih.keep hs hr hn hopen (.refl _ _)
            · exact hs.share hr hn ha
          · obtain ⟨hs₁, hg⟩ := hopen.note hk hnone hscene hrep hfirst
            simp only [heq, if_true]
            exact ih.keep hs hr hn hs₁ hg

end CleanState

namespace Scene

open CleanState

/-- **What cleaning a scene comes to**, be there cycles or not. -/
theorem loose_clean (s : Scene) (values : CleanValues) :
    ∃ st : CleanState, (s.clean values .empty).scene = st.scene ∧
      (s.clean values .empty).result = .ok st.memory ∧ Loose s values [] st :=
  ⟨_, rfl, rfl, (cleansLoosely_clean s values (s.size + 1) [] ⟨s, .empty⟩ s.root
    (loose_empty s values)).loose⟩

end Scene

end SceneTidy
