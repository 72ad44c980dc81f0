import SceneTidy.Proofs.Scene.Copy
import SceneTidy.Proofs.Scene.Sharing
import SceneTidy.Proofs.Vrml.Growth
import SceneTidy.Vrml.Writing

/-!
# Written scenes read back

The outline of a scene is planted while it is made: after each step the planted store has one node
for each node met, at its place, and a finished node holds the fields of the node it stands for
(`Advance`).  A node met again is shared, since each of its references was paid for (`Accounts`), so
its name is known.  Main statement: the text of a scene is read as a copy of what the scene shows
(`readVrml_write`).
-/

namespace SceneTidy

/-- A scene that can be written: its root is a scene root, and every node that it shows by way of
others is there and has a place in files.  So no node that is shown refers to the root. -/
structure Scene.Writable (s : Scene) : Prop where
  root : s.kind? s.root = some .scene
  shown : ∀ a b, s.ShownFrom s.root a → s.Shows a b →
    ∃ k, s.kind? b = some k ∧ k.isRegistered = true

/-- A node that a file lists: it is shown from the root, and not the root itself. -/
def Scene.Listed (s : Scene) (a : NodeId) : Prop := s.ShownFrom s.root a ∧ a ≠ s.root

namespace Vrml

variable {s : Scene} {met met' : List NodeId} {bed bed' : Bed} {a : NodeId}

theorem exists_node_of_listed (hs : s.Writable) (ha : s.Listed a) :
    ∃ n, s.node? a = some n ∧ n.kind.isRegistered = true := by
  obtain ⟨hr, hne⟩ := ha
  cases hr with
  | refl => exact absurd rfl hne
  | tail hr hab =>
    obtain ⟨k, hk, hreg⟩ := hs.shown _ _ hr hab
    obtain ⟨n, hn, rfl⟩ := Option.map_eq_some_iff.1 hk
    exact ⟨n, hn, hreg⟩

theorem listed_of_shows (hs : s.Writable) {b : NodeId} (ha : s.ShownFrom s.root a)
    (hab : s.Shows a b) : s.Listed b := by
  refine ⟨ha.tail hab, ?_⟩
  rintro rfl
  obtain ⟨k, hk, hreg⟩ := hs.shown _ _ ha hab
  rw [hs.root] at hk
  obtain rfl := Option.some.inj hk
  exact absurd hreg (by decide)

/-! ### The accounts -/

/-- No node was met, waits to be met or is referred to in nodes not met more often than it is
referred to at all. -/
def Accounts (s : Scene) (met pending : List NodeId) : Prop :=
  ∀ x, met.count x + pending.count x + (s.later (s.root :: met)).count x ≤
    (s.references s.root).count x

theorem Accounts.skip {pending : List NodeId} (h : Accounts s met (a :: pending)) :
    Accounts s met pending := by
  intro x
  have := h x
  have hle : pending.count x ≤ (a :: pending).count x := List.count_le_count_cons
  omega

/-- A node that is met again is referred to twice. -/
theorem Accounts.two_le {pending : List NodeId} (h : Accounts s met (a :: pending)) (ha : a ∈ met) :
    2 ≤ (s.references s.root).count a := by
  have := h a
  have hpos : 0 < met.count a := List.count_pos_iff.2 ha
  rw [List.count_cons_self] at this
  omega

/-- The references of a node that is met for the first time wait in its stead. -/
theorem Accounts.meet {pending l : List NodeId} {n : Node} (h : Accounts s met (a :: pending))
    (hne : a ≠ s.root) (ha : a ∉ met) (hn : s.node? a = some n)
    (hl : ∀ x, l.count x ≤ n.refs.count x) : Accounts s (a :: met) (l ++ pending) := by
  have hwalk : a ∈ s.walk s.root := by
    refine Scene.mem_walk_of_mem_references (List.count_pos_iff.1 ?_) (by simp [hn])
    have := h a
    rw [List.count_cons_self] at this
    omega
  intro x
  have hall := h x
  have hnew : a ∉ s.root :: met := by simp [hne, ha]
  have hlater := Scene.count_later x hwalk hnew
  have hswap : s.later (a :: s.root :: met) = s.later (s.root :: a :: met) :=
    Scene.later_congr fun b => by simp [or_left_comm]
  have hrefs := hl x
  rw [hswap, Scene.refs_of_node? hn] at hlater
  have hcons : ∀ l : List NodeId, (a :: l).count x = [a].count x + l.count x := fun l => by
    rw [← List.singleton_append, List.count_append]
  rw [hcons] at hall
  rw [hcons, List.count_append]
  omega

/-! ### The planted store -/

/-- The planted store has a root and one node for each node met, and knows the names of the shared
ones among them. -/
structure Grown (s : Scene) (met : List NodeId) (bed : Bed) : Prop where
  nodup : met.Nodup
  size : bed.scene.size = met.length + 1
  names : ∀ a ∈ met, ∀ name, s.sharedNames.lookup a = some name →
    bed.names.lookup name = some (place met a)

/-- The node planted for a node is finished: it holds the written fields, with the places of the
nodes that these refer to. -/
def Planted (s : Scene) (met : List NodeId) (t : Scene) (a : NodeId) : Prop :=
  ∃ n name, s.node? a = some n ∧
    t.node? (place met a) = some ((Node.create n.kind name).setAll
      (n.written.map fun p => (p.1, p.2.relink (place met)))) ∧
    ∀ p ∈ n.written, ∀ r ∈ p.2.refs, r ∈ met

/-- The outline went on from some nodes met to more, and the new ones are planted. -/
structure Advance (s : Scene) (met : List NodeId) (met' : List NodeId) (bed' : Bed) : Prop where
  extends' : met <:+ met'
  grown : Grown s met' bed'
  new : ∀ a ∈ met', a ∉ met → s.Listed a ∧ Planted s met' bed'.scene a

theorem Grown.set (h : Grown s met bed) (id : NodeId) (field : String) (v : FieldValue) :
    Grown s met (bed.set id field v) := ⟨h.nodup, by rw [Bed.size_set, h.size], h.names⟩

/-- A node met for the first time gets the next place. -/
theorem Grown.grow (h : Grown s met bed) (ha : a ∉ met) (kind : NodeKind) :
    Grown s (a :: met) (bed.grow kind (s.sharedNames.lookup a)) where
  nodup := List.nodup_cons.2 ⟨ha, h.nodup⟩
  size := by rw [Bed.size_grow, h.size, List.length_cons]
  names b hb name hname := by
    by_cases hba : b = a
    · subst hba
      rw [place_cons_self, ← h.size, hname]
      simp [Bed.grow, Scene.next]
    · have hb' : b ∈ met := (List.mem_cons.1 hb).resolve_left hba
      rw [place_cons_of_ne hba, ← h.names b hb' name hname]
      cases hla : s.sharedNames.lookup a with
      | none => rfl
      | some other =>
        have hne : name ≠ other := by
          rintro rfl
          exact hba (Scene.sharedNames_injective hname hla)
        show List.lookup name ((other, _) :: bed.names) = _
        rw [List.lookup_cons, beq_false_of_ne hne]

theorem relink_place (hnd : met'.Nodup) (hext : met <:+ met') {v : FieldValue}
    (hv : ∀ r ∈ v.refs, r ∈ met) : v.relink (place met') = v.relink (place met) := by
  obtain ⟨new, rfl⟩ := hext
  exact FieldValue.relink_congr fun r hr => place_append hnd (hv r hr)

theorem Planted.mono {t u : Scene} (h : Planted s met t a) (ha : a ∈ met) (hnd : met'.Nodup)
    (hext : met <:+ met') (hu : u.node? (place met a) = t.node? (place met a)) :
    Planted s met' u a := by
  obtain ⟨n, name, hn, hp, hrefs⟩ := h
  refine ⟨n, name, hn, ?_, fun p hp r hr => hext.subset (hrefs p hp r hr)⟩
  have hlinks : (n.written.map fun p => (p.1, p.2.relink (place met'))) =
      n.written.map fun p => (p.1, p.2.relink (place met)) :=
    List.map_congr_left fun p hp => by rw [relink_place hnd hext (hrefs p hp)]
  obtain ⟨new, rfl⟩ := hext
  rw [place_append hnd ha, hu, hp, hlinks]

theorem Advance.refl (h : Grown s met bed) : Advance s met met bed :=
  ⟨List.suffix_rfl, h, fun _ ha hn => absurd ha hn⟩

/-- Steps follow one another if the later one leaves alone what the earlier one planted. -/
theorem Advance.trans {met₁ : List NodeId} {bed₁ : Bed} (h : Advance s met met₁ bed₁)
    (h' : Advance s met₁ met' bed')
    (hkeep : ∀ p, met.length < p → p < bed₁.scene.size →
      bed'.scene.node? p = bed₁.scene.node? p) : Advance s met met' bed' := by
  refine ⟨h.extends'.trans h'.extends', h'.grown, fun a ha hn => ?_⟩
  by_cases ha₁ : a ∈ met₁
  · obtain ⟨hl, hp⟩ := h.new a ha₁ hn
    refine ⟨hl, hp.mono ha₁ h'.grown.nodup h'.extends' (hkeep _ ?_ ?_)⟩
    · obtain ⟨new, hnew⟩ := h.extends'
      rw [← hnew] at ha₁ ⊢
      exact lt_place_append ((List.mem_append.1 ha₁).resolve_right hn)
    · rw [h.grown.size]
      exact Nat.lt_succ_of_le (place_le met₁ a)
  · exact h'.new a ha ha₁

/-! ### One step of the outline -/

/-- What a meeting does within a bound on its depth: the node it meets is listed, the block it gives
is readable and is planted at the node's place. -/
def Meets (s : Scene) (meet : Meeting) (bound : Nat) : Prop :=
  ∀ id met pending bed, s.Listed id → Grown s met bed → Accounts s met (id :: pending) →
    s.unmet met < bound → ∃ b met', meet id met = (some b, met') ∧
      b.Readable (bed.names.map Prod.fst) ∧ (b.plant bed).1 = some (place met' id) ∧ id ∈ met' ∧
      Accounts s met' pending ∧ Advance s met met' (b.plant bed).2

variable {meet : Meeting} {bound : Nat} {pending : List NodeId}

theorem Meets.list (h : Meets s meet bound) {ids : List NodeId} (hids : ∀ a ∈ ids, s.Listed a)
    (hg : Grown s met bed) (hacc : Accounts s met (ids ++ pending)) (hb : s.unmet met < bound) :
    ∃ bs met', outlineList meet ids met = (bs, met') ∧
      bs.Readable (bed.names.map Prod.fst) ∧ (bs.plant bed).1 = ids.map (place met') ∧
      (∀ a ∈ ids, a ∈ met') ∧ Accounts s met' pending ∧ Advance s met met' (bs.plant bed).2 := by
  induction ids generalizing met bed with
  | nil =>
    exact ⟨.nil, met, rfl, trivial, rfl, fun a ha => absurd ha List.not_mem_nil, hacc, .refl hg⟩
  | cons id ids ih =>
    obtain ⟨b, met₁, hmeet, hread, hplant, hid, hacc₁, hadv⟩ :=
      h id met (ids ++ pending) bed (hids id (List.mem_cons_self ..)) hg hacc hb
    have hb₁ : s.unmet met₁ < bound :=
      Nat.lt_of_le_of_lt (Scene.unmet_le_of_subset hadv.extends'.subset) hb
    obtain ⟨bs, met₂, hlist, hread₂, hplant₂, hids₂, hacc₂, hadv₂⟩ :=
      ih (fun a ha => hids a (List.mem_cons_of_mem _ ha)) hadv.grown hacc₁ hb₁
    rw [b.names_plant] at hread₂
    refine ⟨.cons b bs, met₂, ?_, ⟨hread, hread₂⟩, ?_, ?_, hacc₂, ?_⟩
    · simp only [outlineList, hmeet, hlist]
    · obtain ⟨new, rfl⟩ := hadv₂.extends'
      simp only [Blocks.plant, hplant, hplant₂, Option.toList_some, List.map_cons,
        place_append hadv₂.grown.nodup hid, List.singleton_append]
    · intro a ha
      rcases List.mem_cons.1 ha with rfl | ha
      · exact hadv₂.extends'.subset hid
      · exact hids₂ a ha
    · exact hadv.trans hadv₂ fun p _ hp => (bs.outgrows _).node? p hp fun hf => hf

/-- The written form of a field: the nodes it refers to are given by their places. -/
def linked (met : List NodeId) (p : String × FieldValue) : String × FieldValue :=
  (p.1, p.2.relink (place met))

/-- One field is planted, and then the rest. -/
theorem Advance.field {met₁ : List NodeId} {bed₁ : Bed} {owner : NodeId} {p : String × FieldValue}
    {l : List (String × FieldValue)} {rest : Body NodeId} (howner : owner ≤ met.length)
    (hadv : Advance s met met₁ bed₁) (hkeep : bed₁.scene.node? owner = bed.scene.node? owner)
    (hp : ∀ r ∈ p.2.refs, r ∈ met₁)
    (hrest : Advance s met₁ met' (rest.plant owner (bed₁.set owner p.1 (p.2.relink (place met₁)))))
    (hl : (rest.plant owner (bed₁.set owner p.1 (p.2.relink (place met₁)))).scene.node? owner =
      ((bed₁.set owner p.1 (p.2.relink (place met₁))).scene.node? owner).map
        (·.setAll (l.map (linked met')))) :
    (rest.plant owner (bed₁.set owner p.1 (p.2.relink (place met₁)))).scene.node? owner =
      (bed.scene.node? owner).map (·.setAll ((p :: l).map (linked met'))) ∧
    (∀ r ∈ p.2.refs, r ∈ met') ∧
    Advance s met met' (rest.plant owner (bed₁.set owner p.1 (p.2.relink (place met₁)))) := by
  refine ⟨?_, fun r hr => hrest.extends'.subset (hp r hr), ?_⟩
  · have hlink : linked met' p = (p.1, p.2.relink (place met₁)) := by
      rw [linked, relink_place hrest.grown.nodup hrest.extends' hp]
    rw [hl, Bed.node?_set, if_pos rfl, hkeep, Option.map_map, List.map_cons, hlink]
    rfl
  · refine hadv.trans hrest fun q hq hq' => ?_
    have hne : q ≠ owner := Nat.ne_of_gt (Nat.lt_of_le_of_lt howner hq)
    have hset := Bed.Outgrows.set bed₁ owner p.1 (p.2.relink (place met₁))
    exact ((rest.outgrows owner _).trans hset).node? q hq' hne

/-- What the fields of a node come to: a body that is readable and, planted, gives the owner its
values. -/
def Fills (s : Scene) (meet : Meeting) (kind : NodeKind) (owner : NodeId) (pending : List NodeId)
    (l : List (String × FieldValue)) (met : List NodeId) (bed : Bed) : Prop :=
  ∃ body met', outlineBody meet l met = (body, met') ∧
    body.Readable (bed.names.map Prod.fst) kind ∧
    (body.plant owner bed).scene.node? owner =
      (bed.scene.node? owner).map (·.setAll (l.map (linked met'))) ∧
    (∀ p ∈ l, ∀ r ∈ p.2.refs, r ∈ met') ∧ Accounts s met' pending ∧
    Advance s met met' (body.plant owner bed)

/-- One field comes before the rest, as soon as the nodes that it refers to are planted. -/
theorem Fills.cons {kind : NodeKind} {owner : NodeId} {p : String × FieldValue}
    {l : List (String × FieldValue)} {met₁ : List NodeId} {bed₁ : Bed}
    (h : Fills s meet kind owner pending l met₁ (bed₁.set owner p.1 (p.2.relink (place met₁))))
    (howner : owner ≤ met.length) (hadv : Advance s met met₁ bed₁)
    (hkeep : bed₁.scene.node? owner = bed.scene.node? owner) (hp : ∀ r ∈ p.2.refs, r ∈ met₁)
    (head : Body NodeId → Body NodeId) (hout : outlineBody meet (p :: l) met =
      (head (outlineBody meet l met₁).1, (outlineBody meet l met₁).2))
    (hread : ∀ body, body.Readable (bed₁.names.map Prod.fst) kind →
      (head body).Readable (bed.names.map Prod.fst) kind)
    (hplant : ∀ body, (head body).plant owner bed =
      body.plant owner (bed₁.set owner p.1 (p.2.relink (place met₁)))) :
    Fills s meet kind owner pending (p :: l) met bed := by
  obtain ⟨body, met', hbody, hbodyRead, hnode, hmem, hacc, hrest⟩ := h
  obtain ⟨hnode', hmem', hadv'⟩ := Advance.field howner hadv hkeep hp hrest hnode
  refine ⟨head body, met', ?_, hread body hbodyRead, ?_, List.forall_mem_cons.2 ⟨hmem', hmem⟩,
    hacc, ?_⟩
  · rw [hout, hbody]
  · rw [hplant, hnode']
  · rw [hplant]
    exact hadv'

theorem Meets.body (h : Meets s meet bound) {kind : NodeKind} {l : List (String × FieldValue)}
    {owner : NodeId} (howner : owner ≤ met.length)
    (hl : ∀ p ∈ l, Declares kind p.1 p.2.kind ∧ p.2 ≠ .node none ∧ ∀ r ∈ p.2.refs, s.Listed r)
    (hg : Grown s met bed) (hacc : Accounts s met (l.flatMap (·.2.refs) ++ pending))
    (hb : s.unmet met < bound) : Fills s meet kind owner pending l met bed := by
  induction l generalizing met bed with
  | nil =>
    refine ⟨.done, met, rfl, trivial, ?_, fun p hp => absurd hp List.not_mem_nil, hacc, .refl hg⟩
    show bed.scene.node? owner = (bed.scene.node? owner).map fun n => n
    rw [Option.map_id']
  | cons p l ih =>
    obtain ⟨field, v⟩ := p
    obtain ⟨⟨hd, hnone, hlisted⟩, hrest⟩ := List.forall_mem_cons.1 hl
    rw [List.flatMap_cons, List.append_assoc] at hacc
    have hlt : owner < bed.scene.size := by
      rw [hg.size]
      exact Nat.lt_succ_of_le howner
    -- the rest of the fields, after the nodes that this one refers to
    have hnext : ∀ {met₁ : List NodeId} {bed₁ : Bed} (w : FieldValue), Advance s met met₁ bed₁ →
        Accounts s met₁ (l.flatMap (·.2.refs) ++ pending) →
        Fills s meet kind owner pending l met₁ (bed₁.set owner field w) := fun w hadv hacc =>
      ih (Nat.le_trans howner hadv.extends'.length_le) hrest (hadv.grown.set owner field w) hacc
        (Nat.lt_of_le_of_lt (Scene.unmet_le_of_subset hadv.extends'.subset) hb)
    cases v with
    | one k x =>
      exact Fills.cons (p := (field, .one k x)) (hnext _ (.refl hg) hacc) howner (.refl hg) rfl
        (fun r hr => absurd hr List.not_mem_nil) (.value field (.one k x)) rfl
        (fun _ hbody => ⟨hd, trivial, hbody⟩) fun _ => rfl
    | many k xs =>
      exact Fills.cons (p := (field, .many k xs)) (hnext _ (.refl hg) hacc) howner (.refl hg) rfl
        (fun r hr => absurd hr List.not_mem_nil) (.value field (.many k xs)) rfl
        (fun _ hbody => ⟨hd, trivial, hbody⟩) fun _ => rfl
    | node t =>
      cases t with
      | none => exact absurd rfl hnone
      | some id =>
        obtain ⟨b, met₁, hmeet, hread, hplant, hid, hacc₁, hadv₁⟩ :=
          h id met (l.flatMap (·.2.refs) ++ pending) bed (hlisted id (List.mem_singleton_self id))
            hg hacc hb
        refine Fills.cons (p := (field, .node (some id))) (hnext _ hadv₁ hacc₁) howner hadv₁
          ((b.outgrows bed).node? owner hlt fun hf => hf)
          (fun r hr => by rwa [List.mem_singleton.1 hr]) (.single field b) ?_
          (fun body hbody => ?_) fun body => ?_
        · simp only [outlineBody, hmeet]
        · rw [b.names_plant] at hbody
          exact ⟨hd, hread, hbody⟩
        · show _ = body.plant owner
            ((b.plant bed).2.set owner field (.node (some (place met₁ id))))
          rw [← hplant]
          rfl
    | nodes ids =>
      have hids : ∀ r ∈ ids, s.Listed r := hlisted
      have hwait : Accounts s met (ids ++ (l.flatMap (·.2.refs) ++ pending)) := hacc
      obtain ⟨bs, met₁, hlist, hread, hplant, hmem₁, hacc₁, hadv₁⟩ := h.list hids hg hwait hb
      refine Fills.cons (p := (field, .nodes ids)) (hnext _ hadv₁ hacc₁) howner hadv₁
        ((bs.outgrows bed).node? owner hlt fun hf => hf) hmem₁ (.list field bs) ?_
        (fun body hbody => ?_) fun body => ?_
      · simp only [outlineBody, hlist]
      · rw [bs.names_plant] at hbody
        exact ⟨hd, hread, hbody⟩
      · show _ = body.plant owner
          ((bs.plant bed).2.set owner field (.nodes (ids.map (place met₁))))
        rw [← hplant]
        rfl

/-! ### The whole outline -/

theorem isWord_sharedName (n : Nat) : IsWord (sharedName n).toList := by
  rw [toList_sharedName]
  refine ⟨by simp, fun c hc => ?_⟩
  rcases List.mem_append.1 hc with hc | hc
  · exact List.all_eq_true.1 (by decide : ['r', 'e', 'f', '_'].all isWordChar) c hc
  · have htext : integerText (n : Int) = Nat.toDigits 10 n := by
      rw [integerText, if_neg (by omega)]
      rfl
    exact (isWord_integerText (n : Int)).2 c (htext ▸ hc)

theorem isWord_of_lookup {name : String} (h : s.sharedNames.lookup a = some name) :
    IsWord name.toList := by
  obtain ⟨k, -, rfl⟩ := Scene.exists_eq_sharedName h
  exact isWord_sharedName k

/-- What the outline needs of the written fields of a node. -/
theorem written_spec (hs : s.Writable) {n : Node} (hr : s.ShownFrom s.root a)
    (hn : s.node? a = some n) : ∀ p ∈ n.written,
      Declares n.kind p.1 p.2.kind ∧ p.2 ≠ .node none ∧ ∀ r ∈ p.2.refs, s.Listed r := by
  rintro ⟨field, v⟩ hp
  obtain ⟨d, hd, rfl, hx, hsame⟩ := Node.mem_written_iff.1 hp
  have hfield := Node.mem_fields_of_mem_slots hd
  refine ⟨⟨d, NodeKind.field?_of_mem hfield, (Node.kind_of_mem_slots hd).symm⟩, ?_, fun r hr' => ?_⟩
  · rintro rfl
    have hk : d.declared.kind = .node := (Node.kind_of_mem_slots hd).symm
    have hrefs := n.kind.refs_declared d hfield
    cases hdec : d.declared with
    | one k x => simp [hdec, FieldValue.kind] at hk
    | many k xs => simp [hdec, FieldValue.kind] at hk
    | nodes ts => simp [hdec, FieldValue.kind] at hk
    | node t =>
      obtain rfl : t = none := by simpa [hdec, FieldValue.refs] using hrefs
      simp [hdec, FieldValue.same] at hsame
  · exact listed_of_shows hs hr ⟨n, hn, (d, v), hd, hx, hr'⟩

/-- **One meeting of the outline, planted.** -/
theorem meets_outlineNode (hs : s.Writable) (bound : Nat) :
    Meets s (s.outlineNode s.sharedNames bound) bound := by
  induction bound with
  | zero => exact fun _ _ _ _ _ _ _ hb => absurd hb (Nat.not_lt_zero _)
  | succ bound ih =>
    intro id met pending bed hid hg hacc hb
    obtain ⟨n, hn, hreg⟩ := exists_node_of_listed hs hid
    by_cases hmet : id ∈ met
    -- a node met again is referred to twice, so that it has a name
    · obtain ⟨name, hname⟩ := Scene.exists_sharedName (by simp [hn]) (hacc.two_le hmet)
      have hlook := hg.names id hmet name hname
      have hknown : name ∈ bed.names.map Prod.fst :=
        List.mem_map_of_mem (f := Prod.fst) (mem_of_lookup hlook)
      refine ⟨.use name, met, ?_, ⟨isWord_of_lookup hname, hknown⟩, hlook, hmet, hacc.skip,
        .refl hg⟩
      rw [Scene.outlineNode, if_pos (by simpa using hmet), hname]
      rfl
    -- a new node is planted at the next place, before the nodes below it
    · have hrefs := hacc.meet (l := n.written.flatMap (·.2.refs)) hid.2 hmet hn n.count_written_le
      have hbound := Scene.unmet_cons_lt_of_lt_succ hn hmet hb
      have hplace : bed.scene.next = place (id :: met) id := by
        rw [place_cons_self]
        exact hg.size
      have howner : bed.scene.next ≤ (id :: met).length := hplace ▸ place_le _ _
      obtain ⟨body, met', hbody, hread, hnode, hmem, hacc', hadv⟩ :=
        ih.body howner (written_spec hs hid.1 hn) (hg.grow hmet n.kind) hrefs hbound
      have hid' : id ∈ met' := hadv.extends'.subset (List.mem_cons_self ..)
      have hplace' : place met' id = bed.scene.next := by
        obtain ⟨new, rfl⟩ := hadv.extends'
        rw [hplace]
        exact place_append hadv.grown.nodup (List.mem_cons_self ..)
      refine ⟨.node id (s.sharedNames.lookup id) n.kind body, met', ?_, ?_, ?_, hid', hacc', ?_⟩
      · rw [Scene.outlineNode, if_neg (by simpa using hmet), hn]
        simp only [hreg, if_true, hbody]
      · rw [Bed.map_fst_names_grow] at hread
        exact ⟨hreg, fun name hname => isWord_of_lookup (Option.mem_def.1 hname), hread⟩
      · rw [Block.plant, hplace']
      · refine ⟨(List.suffix_cons id met).trans hadv.extends', hadv.grown, fun b hb' hnew => ?_⟩
        by_cases hba : b = id
        · subst hba
          refine ⟨hid, n, s.sharedNames.lookup b, hn, ?_, hmem⟩
          rw [Bed.node?_grow, if_pos rfl] at hnode
          rw [hplace']
          exact hnode
        · exact hadv.new b hb' (by simp [hba, hnew])

/-! ### The planted scene -/

/-- The root of a scene holds its children and nothing else. -/
theorem eq_children_of_mem_slots {n : Node} (hk : n.kind = .scene) {p : FieldDecl × FieldValue}
    (hp : p ∈ n.slots) : p.1.name = "children" ∧ p.2 = .nodes n.children := by
  obtain ⟨d, v⟩ := p
  have hd := Node.mem_fields_of_mem_slots hp
  rw [hk] at hd
  obtain rfl := List.mem_singleton.1 hd
  have hget := Node.get?_of_mem_slots hp
  have hkind : v.kind = .nodes := Node.kind_of_mem_slots hp
  refine ⟨rfl, ?_⟩
  cases v with
  | one k x => simp [FieldValue.kind] at hkind
  | many k xs => simp [FieldValue.kind] at hkind
  | node t => simp [FieldValue.kind] at hkind
  | nodes ts =>
    have hchildren : n.children = ts := by
      have hname : n.get? "children" = some (.nodes ts) := hget
      have hfield : NodeKind.scene.childrenField = "children" := rfl
      rw [Node.children, Node.targets, hk, hfield, hname]
    rw [hchildren]

/-- A finished node holds what is written of the node that it stands for, and else what is declared.
-/
theorem value_planted {n : Node} (name : Option String) {d : FieldDecl} (hd : d ∈ n.kind.fields) :
    ((Node.create n.kind name).setAll (n.written.map (linked met))).value d =
      if d.exposed = true ∧ (n.value d).same d.declared = false then (n.value d).relink (place met)
      else d.declared := by
  have hcreate := Node.get?_create n.kind name hd
  have hnames : (n.written.map (linked met)).map Prod.fst = n.written.map Prod.fst := by
    rw [List.map_map]
    rfl
  split
  · next h =>
    have hw : (d.name, n.value d) ∈ n.written :=
      Node.mem_written_iff.2 ⟨d, Node.mem_slots_value hd, rfl, h⟩
    refine Node.value_of_get? (Node.get?_setAll (hnames ▸ n.nodup_written)
      (List.mem_map_of_mem (f := linked met) hw) hcreate ?_)
    rw [FieldValue.kind_relink, Node.kind_of_mem_slots (Node.mem_slots_value hd)]
    rfl
  · next h =>
    refine Node.value_of_get? (.trans (Node.get?_setAll_of_not_mem ?_) hcreate)
    rw [hnames]
    intro hm
    obtain ⟨⟨field, w⟩, hw, rfl⟩ := List.mem_map.1 hm
    obtain ⟨e, he, hed, hshown⟩ := Node.mem_written_iff.1 hw
    have hsome := NodeKind.field?_of_mem (Node.mem_fields_of_mem_slots he)
    rw [hed, NodeKind.field?_of_mem hd] at hsome
    obtain rfl := Option.some.inj hsome
    rw [Node.value_of_get? (Node.get?_of_mem_slots he)] at h
    exact h hshown

/-- The fields of a finished node agree with those of the node that it stands for. -/
theorem planted_fields {n : Node} (name : Option String) {d : FieldDecl} (hd : d ∈ n.kind.fields)
    (hx : d.exposed = true) : ∃ v w, n.get? d.name = some v ∧
      ((Node.create n.kind name).setAll (n.written.map (linked met))).get? d.name = some w ∧
      (v.relink (place met)).Agrees w := by
  have hm : d ∈ ((Node.create n.kind name).setAll (n.written.map (linked met))).kind.fields := by
    rw [Node.kind_setAll]
    exact hd
  refine ⟨_, _, Node.get?_eq_value hd, Node.get?_eq_value hm, ?_⟩
  rw [value_planted name hd]
  cases hsame : (n.value d).same d.declared with
  | false =>
    rw [if_pos ⟨hx, rfl⟩]
    exact .inl rfl
  | true =>
    have hrefs : (n.value d).refs = [] :=
      (FieldValue.refs_of_same hsame).trans (n.kind.refs_declared d hd)
    rw [if_neg (by simp), FieldValue.relink_of_refs_nil hrefs]
    exact .inr hsame

/-- The root of a scene shows its children and nothing else. -/
theorem shows_root_iff (hroot : s.kind? s.root = some .scene) :
    s.Shows s.root a ↔ a ∈ s.children s.root := by
  obtain ⟨n, hn, hk⟩ := Option.map_eq_some_iff.1 hroot
  rw [Scene.children_of_node? hn]
  constructor
  · rintro ⟨n', hn', p, hp, -, ha⟩
    obtain rfl := Option.some.inj (hn.symm.trans hn')
    rwa [(eq_children_of_mem_slots hk hp).2] at ha
  · intro ha
    obtain ⟨v, hv⟩ := Node.exists_mem_slots (n := n) (by rw [hk]; exact List.mem_cons_self ..)
    refine ⟨n, hn, _, hv, rfl, ?_⟩
    rw [(eq_children_of_mem_slots hk hv).2]
    exact ha

/-- Nodes that have the children of the root among them, and what their own written fields refer to,
are all that is shown by way of others. -/
theorem mem_of_shows (hroot : s.kind? s.root = some .scene)
    (hchildren : ∀ a ∈ s.children s.root, a ∈ met)
    (hmet : ∀ a ∈ met, ∃ n, s.node? a = some n ∧ ∀ p ∈ n.written, ∀ r ∈ p.2.refs, r ∈ met)
    {b : NodeId} (ha : s.ShownFrom s.root a) (hab : s.Shows a b) : b ∈ met := by
  induction ha generalizing b with
  | refl => exact hchildren b ((shows_root_iff hroot).1 hab)
  | tail _ hlast ih =>
    obtain ⟨n, hn, p, hp, hb⟩ := hab.exists_written
    obtain ⟨n', hn', hrefs⟩ := hmet _ (ih hlast)
    obtain rfl := Option.some.inj (hn.symm.trans hn')
    exact hrefs p hp b hb

/-- The outline comes to all nodes that are shown. -/
theorem shownFrom_iff (hs : s.Writable) {t : Scene} (hchildren : ∀ a ∈ s.children s.root, a ∈ met)
    (hmet : ∀ a ∈ met, s.Listed a ∧ Planted s met t a) :
    s.ShownFrom s.root a ↔ a = s.root ∨ a ∈ met := by
  constructor
  · intro h
    cases h with
    | refl => exact .inl rfl
    | tail hr hab =>
      refine .inr (mem_of_shows hs.root hchildren (fun a ha => ?_) hr hab)
      obtain ⟨-, n, name, hn, -, hrefs⟩ := hmet a ha
      exact ⟨n, hn, hrefs⟩
  · rintro (rfl | ha)
    · exact .refl
    · exact (hmet a ha).1.1

/-- The nodes met in an outline. -/
def outlined (s : Scene) : List NodeId :=
  (outlineList (s.outlineNode s.sharedNames (s.size + 1)) (s.children s.root) []).2

/-- A store with a root that holds the listed children, and with a finished node for each node
met. -/
structure Sown (s : Scene) (met : List NodeId) (t : Scene) : Prop where
  nodup : met.Nodup
  size : t.size = met.length + 1
  root : t.root = 0
  first : ∃ m, t.node? 0 = some m ∧ m.kind = .scene ∧
    m.children = (s.children s.root).map (place met)
  children : ∀ a ∈ s.children s.root, a ∈ met
  planted : ∀ a ∈ met, s.Listed a ∧ Planted s met t a

namespace Sown

variable {t : Scene}

theorem shownFrom_iff (h : Sown s met t) (hs : s.Writable) :
    s.ShownFrom s.root a ↔ a = s.root ∨ a ∈ met :=
  Vrml.shownFrom_iff hs h.children h.planted

theorem place_root (h : Sown s met t) : place met s.root = 0 :=
  place_of_not_mem fun hm => (h.planted _ hm).1.2 rfl

theorem injOn (h : Sown s met t) (hs : s.Writable) :
    Set.InjOn (place met) {a | s.ShownFrom s.root a} := by
  intro a ha b hb hab
  rcases (h.shownFrom_iff hs).1 ha with rfl | ha <;> rcases (h.shownFrom_iff hs).1 hb with rfl | hb
  · rfl
  · exact absurd (h.place_root.symm.trans hab) (Nat.ne_of_lt (place_pos hb))
  · exact absurd (h.place_root.symm.trans hab.symm) (Nat.ne_of_lt (place_pos ha))
  · exact place_injOn ha hb hab

/-- The root and the nodes met take all places there are. -/
theorem exists_place (h : Sown s met t) {p : NodeId} (hp : (t.node? p).isSome) :
    p = 0 ∨ ∃ a ∈ met, place met a = p := by
  have hlt : p < met.length + 1 := h.size ▸ Scene.node?_isSome_iff.1 hp
  rcases Nat.eq_zero_or_pos p with rfl | hpos
  · exact .inl rfl
  · exact .inr (Vrml.exists_place h.nodup hpos (Nat.le_of_lt_succ hlt))

/-- Such a store is a copy. -/
theorem isCopy (h : Sown s met t) (hs : s.Writable) : s.IsCopy t (place met) := by
  obtain ⟨m, hm, hk, hc⟩ := h.first
  refine ⟨h.place_root.trans h.root.symm, ⟨?_, h.injOn hs, ?_⟩, fun a ha => ?_,
    fun a n m' ha hn hm' d hd hx => ?_⟩
  · intro a _
    show (t.node? (place met a)).isSome
    rw [Scene.node?_isSome_iff, h.size]
    exact Nat.lt_succ_of_le (place_le met a)
  · intro p hp
    rcases h.exists_place hp with rfl | ⟨a, ha, he⟩
    · exact ⟨s.root, .refl, h.place_root⟩
    · exact ⟨a, (h.shownFrom_iff hs).2 (.inr ha), he⟩
  · rcases (h.shownFrom_iff hs).1 ha with rfl | ha
    · rw [h.place_root, Scene.kind?, hm, hs.root, Option.map_some, hk]
    · obtain ⟨-, n, name, hn, hp, -⟩ := h.planted a ha
      rw [Scene.kind?, Scene.kind?, hn, hp, Option.map_some, Option.map_some, Node.kind_setAll]
      rfl
  · rcases (h.shownFrom_iff hs).1 ha with rfl | ha
    · rw [h.place_root, hm] at hm'
      obtain rfl := Option.some.inj hm'
      have hn' : n.kind = .scene := by simpa [Scene.kind?, hn] using hs.root
      obtain ⟨v, hv⟩ := Node.exists_mem_slots hd
      obtain ⟨w, hw⟩ := Node.exists_mem_slots (n := m) (by rw [hk, ← hn']; exact hd)
      have hv' := (eq_children_of_mem_slots hn' hv).2
      have hw' := (eq_children_of_mem_slots hk hw).2
      refine ⟨v, w, Node.get?_of_mem_slots hv, Node.get?_of_mem_slots hw, .inl ?_⟩
      rw [show v = _ from hv', show w = _ from hw', hc, Scene.children_of_node? hn]
      rfl
    · obtain ⟨-, n', name, hn', hp, -⟩ := h.planted a ha
      obtain rfl := Option.some.inj (hn.symm.trans hn')
      obtain rfl := Option.some.inj (hm'.symm.trans hp)
      exact planted_fields name hd hx

end Sown

theorem listed_of_mem_children (hs : s.Writable) : ∀ a ∈ s.children s.root, s.Listed a :=
  fun _ ha => listed_of_shows hs .refl ((shows_root_iff hs.root).2 ha)

/-- The root of a scene refers to its children and nothing else. -/
theorem refs_root (hroot : s.kind? s.root = some .scene) : s.refs s.root = s.children s.root := by
  obtain ⟨n, hn, hk⟩ := Option.map_eq_some_iff.1 hroot
  rw [Scene.refs_of_node? hn, Scene.children_of_node? hn, Node.refs_eq_flatMap_slots,
    n.slots_eq_map, hk]
  show (n.value _).refs ++ [] = _
  rw [show n.value (.plain "children" .nodes) = _ from
    (eq_children_of_mem_slots hk (Node.mem_slots_value (hk ▸ List.mem_cons_self ..))).2]
  exact List.append_nil _

/-- The references of a scene are that to the root, those of the root and those that follow. -/
theorem count_references (hroot : s.kind? s.root = some .scene) (x : NodeId) :
    (s.references s.root).count x =
      [s.root].count x + (s.children s.root).count x + (s.later [s.root]).count x := by
  obtain ⟨n, hn, -⟩ := Option.map_eq_some_iff.1 hroot
  have hwalk : s.root ∈ s.walk s.root := Scene.start_mem_walk (by simp [hn])
  have hlater := Scene.count_later x hwalk List.not_mem_nil
  have hrefs : (s.references s.root).count x = [s.root].count x + (s.later []).count x := by
    rw [Scene.later_nil, ← List.count_append]
    rfl
  rw [hrefs, hlater, refs_root hroot, Nat.add_assoc]

/-- At the beginning the children of the root wait to be met. -/
theorem accounts_children (hroot : s.kind? s.root = some .scene) :
    Accounts s [] (s.children s.root ++ []) := by
  intro x
  rw [List.append_nil, count_references hroot, List.count_nil]
  omega

theorem node?_appendTop {t : Scene} (ht : t.node? t.root = some (Node.create .scene none))
    (ids : List NodeId) (p : NodeId) : (t.appendTop ids).node? p =
      if t.root = p then some ((Node.create .scene none).setChildren ids) else t.node? p := by
  have hnil : t.children t.root = [] := by
    rw [Scene.children_of_node? ht]
    rfl
  rw [Scene.appendTop, hnil, List.nil_append, Scene.node?_setChildren]
  by_cases hp : t.root = p
  · rw [if_pos hp, if_pos hp, ← hp, ht]
    rfl
  · rw [if_neg hp, if_neg hp]

/-- The outline of a scene is readable, and planted in an empty scene it makes a node for each node
met. -/
theorem sown_outline (hs : s.Writable) :
    s.outline.Readable [] ∧ Sown s (outlined s) (Scene.empty.plant s.outline.toList) := by
  have hgrown : Grown s [] ⟨Scene.empty, []⟩ :=
    ⟨List.nodup_nil, rfl, fun a ha => absurd ha List.not_mem_nil⟩
  obtain ⟨bs, met, hlist, hread, hplant, hmem, -, hadv⟩ := (meets_outlineNode hs (s.size + 1)).list
    (listed_of_mem_children hs) hgrown (accounts_children hs.root) (by simp)
  have hout : s.outline = bs := by rw [Scene.outline, hlist]
  have hmet : outlined s = met := by rw [outlined, hlist]
  have hold := bs.outgrows ⟨Scene.empty, []⟩
  have hscene : Scene.empty.plant s.outline.toList =
      (bs.plant ⟨Scene.empty, []⟩).2.scene.appendTop ((s.children s.root).map (place met)) := by
    rw [hout, Scene.plant, Blocks.ofList_toList, ← hplant]
  generalize bs.plant ⟨Scene.empty, []⟩ = planted at hadv hold hscene
  obtain ⟨targets, bed⟩ := planted
  have hroot : bed.scene.root = 0 := hold.root
  have hfirst : bed.scene.node? bed.scene.root = some (Node.create .scene none) := by
    rw [hroot]
    exact hold.node? 0 (by decide) fun hf => hf
  have hnode := node?_appendTop hfirst ((s.children s.root).map (place met))
  rw [hroot] at hnode
  rw [hmet, hscene]
  refine ⟨hout ▸ hread, hadv.grown.nodup, ?_, hroot,
    ⟨_, (hnode 0).trans (if_pos rfl), rfl, rfl⟩, hmem, fun a ha => ?_⟩
  · rw [Scene.appendTop, Scene.setChildren, Scene.size_modify]
    exact hadv.grown.size
  · obtain ⟨hl, n, name, hn, hp, hrefs⟩ := hadv.new a ha List.not_mem_nil
    refine ⟨hl, n, name, hn, ?_, hrefs⟩
    rw [hnode, if_neg (Nat.ne_of_lt (place_pos ha))]
    exact hp

/-- The outline of a scene is readable, and planted in an empty scene it makes a copy. -/
theorem exists_outline (hs : s.Writable) :
    s.outline.Readable [] ∧ ∃ f, s.IsCopy (Scene.empty.plant s.outline.toList) f :=
  ⟨(sown_outline hs).1, _, (sown_outline hs).2.isCopy hs⟩

/-- The file of readable blocks starts with no byte order mark. -/
theorem withoutMarks_file (bs : Blocks NodeId) (h : bs.Readable []) (indent : Nat) :
    withoutMarks (renderAll indent (filePieces bs)) = renderAll indent (filePieces bs) := by
  rw [renderAll_of_not_refused (filePieces_not_refused bs h)]
  rfl

/-- Nothing in a scene is refused by the writer, and the text is read as the outline. -/
theorem readText_write (hs : s.Writable) (indent : Nat) :
    (s.write indent).failure = none ∧
      readText (String.ofList (withoutMarks (s.write indent).text.toList)) =
        ⟨s.outline.bare.toList, [], none⟩ := by
  have hread := (sown_outline hs).1
  refine ⟨refusal?_of_not_refused (filePieces_not_refused _ hread), ?_⟩
  rw [Scene.write, String.toList_ofList, withoutMarks_file _ hread]
  exact readText_file s.outline hread indent

/-- The file of readable blocks is read as the scene that is planted with them. -/
theorem readVrml_file (bs : Blocks NodeId) (h : bs.Readable []) (indent : Nat) :
    (Scene.empty.readVrml (String.ofList (renderAll indent (filePieces bs)))).result = .ok () ∧
      (Scene.empty.readVrml (String.ofList (renderAll indent (filePieces bs)))).scene =
        Scene.empty.plant bs.toList := by
  have htext := readText_file bs h indent
  rw [Scene.readVrml, String.toList_ofList, withoutMarks_file bs h, Scene.readInto, Scene.take,
    htext, Scene.plant, Scene.plant, Blocks.ofList_toList, Blocks.ofList_toList, Blocks.plant_bare]
  exact ⟨rfl, rfl⟩

end Vrml

namespace Scene

open Vrml

/-- **A scene that was written is read back as a copy of what it shows, for every indent.** -/
theorem readVrml_write (s : Scene) (hs : s.Writable) (indent : Nat) :
    (s.write indent).failure = none ∧
    (Scene.empty.readVrml (s.write indent).text).result = .ok () ∧
    ∃ f, s.IsCopy (Scene.empty.readVrml (s.write indent).text).scene f := by
  obtain ⟨-, f, hcopy⟩ := exists_outline hs
  obtain ⟨hfailure, htext⟩ := readText_write hs indent
  have hplant : Scene.empty.plant s.outline.bare.toList = Scene.empty.plant s.outline.toList := by
    rw [plant, plant, Blocks.ofList_toList, Blocks.ofList_toList, Blocks.plant_bare]
  refine ⟨hfailure, ?_, f, ?_⟩
  · rw [readVrml, readInto, take, htext]
  · rw [readVrml, readInto, take, htext]
    exact hplant ▸ hcopy

/-- A scene whose root holds a group twice, which holds itself. -/
def knot : Scene :=
  ⟨#[(Node.create .scene none).setChildren [1, 1], (Node.create .group none).setChildren [1]], 0⟩

theorem writable_knot : knot.Writable := by
  refine ⟨rfl, fun a b _ hab => ?_⟩
  have hb : b = 1 := by
    have href : b ∈ knot.refs a := hab.refers
    match a with
    | 0 => simpa using (show b ∈ [1, 1] from href)
    | 1 => exact List.mem_singleton.1 href
    | _ + 2 => exact absurd href List.not_mem_nil
  subst hb
  exact ⟨.group, rfl, rfl⟩

theorem readVrml_write_knot : (knot.write 2).failure = none ∧
    (Scene.empty.readVrml (knot.write 2).text).result = .ok () ∧
    ∃ f, knot.IsCopy (Scene.empty.readVrml (knot.write 2).text).scene f :=
  readVrml_write knot writable_knot 2

end Scene

end SceneTidy
