import Mathlib.Algebra.BigOperators.Group.Finset.Basic
import SceneTidy.Proofs.Scene.Sharing
import SceneTidy.Proofs.Scene.Slots
import SceneTidy.Simplify.Junk

/-!
# Judging every node once

A node is judged before its verdict is known to others, and a node that is being judged is pending:
it counts as no junk as long as it is.  A finished node either was not looked into or has lost the
junk from its lists (`JunkCase.Finished`); that is the invariant of the pass (`JunkCase.Sound`), and
holds in scenes with cycles as well.  Main statements: judging a node keeps the invariant
(`JunkCase.judge_spec`), so that all that has been met is finished at the end (`judgeJunk_spec`).
-/

namespace SceneTidy

/-! ### Thinned lists -/

/-- The value without some of the nodes that it lists; a single reference stays. -/
def FieldValue.thin (q : NodeId → Bool) : FieldValue → FieldValue
  | nodes targets => nodes (targets.filter (!q ·))
  | v => v

theorem FieldValue.kind_thin (q : NodeId → Bool) (v : FieldValue) : (v.thin q).kind = v.kind := by
  cases v <;> rfl

theorem FieldValue.thin_congr {q r : NodeId → Bool} {v : FieldValue} (h : ∀ y ∈ v.refs, q y = r y) :
    v.thin q = v.thin r := by
  cases v with
  | one k x => rfl
  | many k xs => rfl
  | node t => rfl
  | nodes ts =>
    refine congrArg nodes (List.filter_congr fun y hy => ?_)
    rw [h y hy]

theorem FieldValue.refs_thin_sublist (q : NodeId → Bool) (v : FieldValue) :
    List.Sublist (v.thin q).refs v.refs := by
  cases v with
  | one k x => exact .slnil
  | many k xs => exact .slnil
  | node t => exact List.Sublist.refl _
  | nodes ts => exact List.filter_sublist

namespace Node

variable {n : Node} {q r : NodeId → Bool}

/-- The node without some of the nodes in its lists. -/
def thin (q : NodeId → Bool) (n : Node) : Node := n.mapValues (·.thin q) (FieldValue.kind_thin q)

@[simp] theorem kind_thin (q : NodeId → Bool) (n : Node) : (n.thin q).kind = n.kind := rfl

theorem slots_thin (q : NodeId → Bool) (n : Node) :
    (n.thin q).slots = n.slots.map (Prod.map id (·.thin q)) := slots_mapValues n

theorem get?_thin (q : NodeId → Bool) (n : Node) (field : String) :
    (n.thin q).get? field = (n.get? field).map (·.thin q) := get?_mapValues n field

theorem thin_congr (h : ∀ y ∈ n.refs, q y = r y) : n.thin q = n.thin r := by
  refine eq_of_slots_eq rfl rfl ?_
  rw [slots_thin, slots_thin]
  refine List.map_congr_left fun p hp => Prod.ext rfl (FieldValue.thin_congr fun y hy => h y ?_)
  rw [refs_eq_flatMap_slots]
  exact List.mem_flatMap.2 ⟨p, hp, hy⟩

theorem thin_none (n : Node) : n.thin (fun _ => false) = n := by
  have hthin : ∀ p : FieldDecl × FieldValue,
      (p.1, p.2.thin fun _ => false) = p := by
    rintro ⟨d, v⟩
    cases v <;> simp [FieldValue.thin]
  refine eq_of_slots_eq rfl rfl ?_
  rw [slots_thin]
  exact (List.map_congr_left fun p _ => hthin p).trans (List.map_id _)

theorem item_thin (q : NodeId → Bool) (n : Node) (field : String) (k : ItemKind) :
    (n.thin q).item field k = n.item field k := by
  rw [item, item, get?_thin]
  cases n.get? field with
  | none => rfl
  | some v => cases v <;> rfl

theorem items_thin (q : NodeId → Bool) (n : Node) (field : String) (k : ItemKind) :
    (n.thin q).items field k = n.items field k := by
  rw [items, items, get?_thin]
  cases n.get? field with
  | none => rfl
  | some v => cases v <;> rfl

theorem refs_thin_sublist (q : NodeId → Bool) (n : Node) : List.Sublist (n.thin q).refs n.refs := by
  show List.Sublist ((n.values.map (·.thin q)).flatMap FieldValue.refs) _
  rw [refs]
  induction n.values with
  | nil => exact .slnil
  | cons v vs ih =>
    simp only [List.map_cons, List.flatMap_cons]
    exact (v.refs_thin_sublist q).append ih

theorem targets_thin (q : NodeId → Bool) (n : Node) (field : String) :
    (n.thin q).targets field = (n.targets field).filter (!q ·) := by
  rw [targets, targets, get?_thin]
  cases n.get? field with
  | none => rfl
  | some v => cases v <;> rfl

theorem children_thin (q : NodeId → Bool) (n : Node) :
    (n.thin q).children = n.children.filter (!q ·) := targets_thin ..

end Node

namespace Scene

variable {s : Scene} {id : NodeId} {n : Node}

/-- The number of references between the nodes of the store. -/
def linkCount (s : Scene) : Nat := ∑ x ∈ Finset.range s.size, (s.refs x).length

/-- A change of one node changes the number of references by those of that node. -/
theorem linkCount_modify (hn : s.node? id = some n) (f : Node → Node) :
    (s.modify id f).linkCount + n.refs.length = s.linkCount + (f n).refs.length := by
  have hmem : id ∈ Finset.range s.size := Finset.mem_range.2 (lt_size_of_node? hn)
  have hself : ((s.modify id f).refs id).length = (f n).refs.length := by
    rw [refs, node?_modify, if_pos rfl, hn]
    rfl
  have hother : ∀ x ∈ (Finset.range s.size).erase id,
      ((s.modify id f).refs x).length = (s.refs x).length := by
    intro x hx
    rw [refs, node?_modify, if_neg (Finset.ne_of_mem_erase hx).symm, refs]
  have hold : s.linkCount =
      n.refs.length + ∑ x ∈ (Finset.range s.size).erase id, (s.refs x).length := by
    rw [linkCount, ← Finset.add_sum_erase _ _ hmem, refs_of_node? hn]
  have hnew : (s.modify id f).linkCount =
      (f n).refs.length + ∑ x ∈ (Finset.range s.size).erase id, (s.refs x).length := by
    rw [linkCount, size_modify, ← Finset.add_sum_erase _ _ hmem, hself,
      Finset.sum_congr rfl hother]
  omega

end Scene

namespace Judging

variable {s : Scene} {st st₁ st₂ : Judging} {id x y : NodeId} {except : List NodeId}

/-! ### Verdicts -/

/-- The verdict on a node, if it has been met. -/
def verdict? (st : Judging) (id : NodeId) : Option Bool := st.verdicts.lookup id

/-- The nodes met. -/
def met (st : Judging) : List NodeId := st.verdicts.map Prod.fst

/-- Whether a node counts as junk so far. -/
def junk (st : Judging) (id : NodeId) : Bool := st.verdict? id == some true

/-- Put down a verdict. -/
def record (st : Judging) (id : NodeId) (v : Bool) : Judging :=
  { st with verdicts := (id, v) :: st.verdicts }

theorem mem_met_iff : id ∈ st.met ↔ (st.verdict? id).isSome := by
  rw [← not_iff_not, Option.not_isSome_iff_eq_none, verdict?, lookup_none_iff, met]

theorem verdict?_record (st : Judging) (id : NodeId) (v : Bool) (x : NodeId) :
    (st.record id v).verdict? x = if x = id then some v else st.verdict? x := by
  show List.lookup x ((id, v) :: st.verdicts) = _
  rw [List.lookup_cons]
  split
  · next h => rw [if_pos (by simpa using h)]
  · next h => rw [if_neg (by simpa using h)]; rfl

theorem verdict?_record_self (st : Judging) (id : NodeId) (v : Bool) :
    (st.record id v).verdict? id = some v := by
  rw [verdict?_record, if_pos rfl]

theorem verdict?_record_of_ne (h : x ≠ id) (v : Bool) :
    (st.record id v).verdict? x = st.verdict? x := by
  rw [verdict?_record, if_neg h]

/-- A node was met, or is not there at all. -/
def Met (s : Scene) (st : Judging) (id : NodeId) : Prop :=
  (st.verdict? id).isSome ∨ s.node? id = none

/-- Verdicts put down before stay, and so do the nodes that have one, but for some; and the entries
dropped are the references lost. -/
structure Grows (except : List NodeId) (st st' : Judging) : Prop where
  verdict : ∀ x ∉ except, ∀ v, st.verdict? x = some v → st'.verdict? x = some v
  node : ∀ x ∉ except, (st.verdict? x).isSome → st'.scene.node? x = st.scene.node? x
  met : ∀ x, (st.verdict? x).isSome → (st'.verdict? x).isSome
  balance : st'.dropped + st'.scene.linkCount = st.dropped + st.scene.linkCount

namespace Grows

theorem refl (except : List NodeId) (st : Judging) : Grows except st st :=
  ⟨fun _ _ _ h => h, fun _ _ _ => rfl, fun _ h => h, rfl⟩

theorem trans (h₁ : Grows except st st₁) (h₂ : Grows except st₁ st₂) : Grows except st st₂ where
  verdict x hx v hv := h₂.verdict x hx v (h₁.verdict x hx v hv)
  node x hx hv := (h₂.node x hx (h₁.met x hv)).trans (h₁.node x hx hv)
  met x hx := h₂.met x (h₁.met x hx)
  balance := h₂.balance.trans h₁.balance

theorem weaken (h : Grows [] st st₁) (except : List NodeId) : Grows except st st₁ :=
  ⟨fun x _ => h.verdict x List.not_mem_nil, fun x _ => h.node x List.not_mem_nil, h.met,
    h.balance⟩

/-- A node that had not been met need not be excepted. -/
theorem of_new (h : Grows [id] st st₁) (hid : st.verdict? id = none) : Grows [] st st₁ := by
  have hne : ∀ x, (st.verdict? x).isSome → x ∉ [id] := by
    intro x hx hmem
    obtain rfl := List.mem_singleton.1 hmem
    rw [hid] at hx
    cases hx
  refine ⟨fun x _ v hv => h.verdict x (hne x ?_) v hv, fun x _ hx => h.node x (hne x hx) hx, h.met,
    h.balance⟩
  rw [hv]
  rfl

theorem metOrGone (h : Grows except st st₁) (hx : Met s st x) : Met s st₁ x :=
  hx.imp_left (h.met x)

/-- What counts as junk of a node that was met, or is not there, is settled. -/
theorem junk_eq (h : Grows except st st₁)
    (hknown : ∀ x, (st₁.verdict? x).isSome → (s.node? x).isSome) (hx : x ∉ except)
    (hmet : Met s st x) : st₁.junk x = st.junk x := by
  cases hv : st.verdict? x with
  | some v => rw [junk, junk, hv, h.verdict x hx v hv]
  | none =>
    have hgone : s.node? x = none := hmet.resolve_left (by simp [hv])
    have hnew : st₁.verdict? x = none := by
      rw [← Option.not_isSome_iff_eq_none]
      intro hsome
      have := hknown x hsome
      rw [hgone] at this
      cases this
    rw [junk, junk, hv, hnew]

end Grows

theorem grows_record (st : Judging) (id : NodeId) (v : Bool) : Grows [id] st (st.record id v) := by
  refine ⟨fun x hx w hw => ?_, fun _ _ _ => rfl, fun x hx => ?_, rfl⟩
  · rw [verdict?_record_of_ne (List.ne_of_not_mem_cons hx), hw]
  · rw [verdict?_record]
    split
    · rfl
    · exact hx

end Judging

namespace JunkCase

open Judging

variable {c : JunkCase} {s : Scene} {start id x y : NodeId} {pending pending' except : List NodeId}
  {st st₁ : Judging} {n : Node}

/-! ### The invariant -/

/-- Whether the judgement does not look into a node. -/
def isShut (c : JunkCase) (id : NodeId) (n : Node) : Bool :=
  decide (n.kind = .shape) || c.isUnrelated id n

/-- A node that the judgement comes to, by references from nodes that it looks into. -/
def ComesTo (c : JunkCase) (s : Scene) (start : NodeId) : NodeId → Prop :=
  Relation.ReflTransGen
    (fun a b => (∃ n, s.node? a = some n ∧ c.isShut a n = false) ∧ s.Refers a b) start

theorem ComesTo.reaches (h : c.ComesTo s start id) : s.Reaches start id :=
  Relation.ReflTransGen.mono (fun _ _ hab => hab.2) _ _ h

/-- The verdict on a group or transform of which only some of its children are left. -/
def verdictLeft (c : JunkCase) (id : NodeId) (n : Node) : Bool :=
  !c.isKept id && (decide (n.kind = .group) || decide (n.kind = .transform)) && n.children.isEmpty

/-- A finished node.  One that is not looked into stays as it is.  Any other has lost the junk from
its lists; what it has not lost is no junk, or the judgement comes back from there, or it is not
there. -/
inductive Finished (c : JunkCase) (s : Scene) (pending : List NodeId) (st : Judging) (id : NodeId)
    (n : Node) : Prop
  | shut (hn : s.node? id = some n) (hshut : c.isShut id n = true)
      (hnow : st.scene.node? id = some n)
      (hv : st.verdict? id = some (if n.kind = .shape then c.isJunkShape s id n else true))
  | sifted (q : NodeId → Bool) (hn : s.node? id = some n) (hopen : c.isShut id n = false)
      (hnow : st.scene.node? id = some (n.thin q))
      (hv : st.verdict? id = some (c.verdictLeft id (n.thin q)))
      (hmet : ∀ y ∈ n.refs, Met s st y)
      (hlost : ∀ y ∈ n.refs, q y = true → st.verdict? y = some true)
      (hleft : ∀ y ∈ n.refs, q y = false →
        c.ComesTo s y id ∨ s.node? y = none ∨ st.verdict? y = some false ∧ y ∉ pending)

/-- What holds while nodes are judged; the pending nodes have been met but are not finished. -/
structure Sound (c : JunkCase) (s : Scene) (start : NodeId) (pending : List NodeId)
    (st : Judging) : Prop where
  root : st.scene.root = s.root
  kind : ∀ x, st.scene.kind? x = s.kind? x
  untouched : ∀ x, st.verdict? x = none → st.scene.node? x = s.node? x
  known : ∀ x, (st.verdict? x).isSome → (s.node? x).isSome
  reached : ∀ x, (st.verdict? x).isSome → c.ComesTo s start x
  waits : ∀ x ∈ pending, st.verdict? x = some false
  finished : ∀ x, (st.verdict? x).isSome → x ∉ pending → ∃ n, Finished c s pending st x n

theorem sound_start (c : JunkCase) (s : Scene) (start : NodeId) :
    Sound c s start [] ⟨s, [], 0⟩ where
  root := rfl
  kind _ := rfl
  untouched _ _ := rfl
  known _ h := by cases h
  reached _ h := by cases h
  waits _ h := absurd h List.not_mem_nil
  finished _ h := by cases h

/-- A finished node stays so, when only verdicts on pending nodes change. -/
theorem Finished.carry (h : Finished c s pending st id n) (hg : Grows except st st₁)
    (hid : id ∉ except) (hexcept : ∀ x ∈ except, st.verdict? x = some false ∧ x ∈ pending)
    (hpending : ∀ x, (st.verdict? x).isSome → x ∉ pending → x ∉ pending') :
    Finished c s pending' st₁ id n := by
  cases h with
  | shut hn hshut hnow hv =>
    have hsame := hg.node id hid (by simp [hv])
    exact .shut hn hshut (hsame.trans hnow) (hg.verdict id hid _ hv)
  | sifted q hn hopen hnow hv hmet hlost hleft =>
    have hsame := hg.node id hid (by simp [hv])
    refine .sifted q hn hopen (hsame.trans hnow) (hg.verdict id hid _ hv)
      (fun y hy => hg.metOrGone (hmet y hy)) (fun y hy hq => ?_) (fun y hy hq => ?_)
    · have hyes := hlost y hy hq
      refine hg.verdict y (fun he => ?_) _ hyes
      rw [(hexcept y he).1] at hyes
      cases hyes
    · rcases hleft y hy hq with hback | hgone | ⟨hno, hp⟩
      · exact .inl hback
      · exact .inr (.inl hgone)
      · have hy' : y ∉ except := fun he => hp (hexcept y he).2
        exact .inr (.inr ⟨hg.verdict y hy' _ hno, hpending y (by simp [hno]) hp⟩)

namespace Sound

theorem size (h : Sound c s start pending st) : st.scene.size = s.size := by
  refine eq_of_forall_lt_iff fun x => ?_
  rw [← Scene.node?_isSome_iff, ← Scene.node?_isSome_iff, ← Option.isSome_map, ← Scene.kind?,
    h.kind, Scene.kind?, Option.isSome_map]

/-- What counts as junk of a node that was met stays, while a pending node is changed. -/
theorem junk_eq (h : Sound c s start (id :: pending) st) (h₁ : Sound c s start (id :: pending) st₁)
    (hg : Grows [id] st st₁) (hmet : Met s st y) : st₁.junk y = st.junk y := by
  by_cases hy : y = id
  · subst hy
    have hself := h.waits y (List.mem_cons_self ..)
    have hself₁ := h₁.waits y (List.mem_cons_self ..)
    rw [junk, junk, hself, hself₁]
  · exact hg.junk_eq h₁.known (by simpa using hy) hmet

/-- A new node is pending once it has been met. -/
theorem opened (h : Sound c s start pending st) (hid : st.verdict? id = none)
    (hn : s.node? id = some n) (hreach : c.ComesTo s start id) :
    Sound c s start (id :: pending) (st.record id false) := by
  have hg := Judging.grows_record st id false
  have hsome : ∀ x, ((st.record id false).verdict? x).isSome → x = id ∨ (st.verdict? x).isSome := by
    intro x hx
    rw [verdict?_record] at hx
    split at hx
    · exact .inl ‹_›
    · exact .inr hx
  refine ⟨h.root, h.kind, fun x hx => ?_, fun x hx => ?_, fun x hx => ?_, fun x hx => ?_,
    fun x hx hp => ?_⟩
  · rw [verdict?_record] at hx
    split at hx
    · cases hx
    · exact h.untouched x hx
  · rcases hsome x hx with rfl | hx
    · simp [hn]
    · exact h.known x hx
  · rcases hsome x hx with rfl | hx
    · exact hreach
    · exact h.reached x hx
  · rw [verdict?_record]
    split
    · rfl
    · next hne => exact h.waits x ((List.mem_cons.1 hx).resolve_left hne)
  · rw [List.mem_cons, not_or] at hp
    obtain ⟨m, hm⟩ := h.finished x ((hsome x hx).resolve_left hp.1) hp.2
    -- the new node had no verdict, so that no finished one goes by it
    refine ⟨m, hm.carry (hg.of_new hid) List.not_mem_nil (fun y hy => absurd hy List.not_mem_nil)
      fun y hy hyp hmem => ?_⟩
    rcases List.mem_cons.1 hmem with rfl | hmem
    · rw [hid] at hy
      cases hy
    · exact hyp hmem

/-- A field of a pending node may be given a value, if the references lost are counted. -/
theorem set (h : Sound c s start (id :: pending) st) {field : String} {v : FieldValue} {k : Nat}
    (hk : k + (st.scene.set id field v).linkCount = st.dropped + st.scene.linkCount) :
    Sound c s start (id :: pending) { st with scene := st.scene.set id field v, dropped := k } ∧
      Grows [id] st { st with scene := st.scene.set id field v, dropped := k } := by
  have hnode : ∀ x, x ≠ id → (st.scene.set id field v).node? x = st.scene.node? x :=
    fun x hx => (st.scene.node?_modify id _ x).trans (if_neg hx.symm)
  have hg : Grows [id] st { st with scene := st.scene.set id field v, dropped := k } :=
    ⟨fun _ _ _ h => h, fun x hx _ => hnode x (List.ne_of_not_mem_cons hx), fun _ h => h, hk⟩
  have hself := h.waits id (List.mem_cons_self ..)
  refine ⟨⟨h.root, fun x => (Scene.kind?_set ..).trans (h.kind x), fun x hx => ?_, h.known,
    h.reached, h.waits, fun x hx hp => ?_⟩, hg⟩
  · refine (hnode x ?_).trans (h.untouched x hx)
    rintro rfl
    have hx' : st.verdict? x = none := hx
    rw [hself] at hx'
    cases hx'
  · obtain ⟨m, hm⟩ := h.finished x hx hp
    refine ⟨m, hm.carry hg (by simpa using List.ne_of_not_mem_cons hp) (fun y hy => ?_)
      fun _ _ hp => hp⟩
    obtain rfl := List.mem_singleton.1 hy
    exact ⟨hself, List.mem_cons_self ..⟩

/-- A pending node is finished by its verdict. -/
theorem closed (h : Sound c s start (id :: pending) st) (hnew : id ∉ pending) {v : Bool}
    (hdone : Finished c s pending (st.record id v) id n) :
    Sound c s start pending (st.record id v) := by
  have hself := h.waits id (List.mem_cons_self ..)
  have hg := Judging.grows_record st id v
  have hsome : ∀ x, ((st.record id v).verdict? x).isSome → (st.verdict? x).isSome := by
    intro x hx
    rw [verdict?_record] at hx
    split at hx
    · next he => simp [he, hself]
    · exact hx
  refine ⟨h.root, h.kind, fun x hx => ?_, fun x hx => h.known x (hsome x hx),
    fun x hx => h.reached x (hsome x hx), fun x hx => ?_, fun x hx hp => ?_⟩
  · rw [verdict?_record] at hx
    split at hx
    · cases hx
    · exact h.untouched x hx
  · rw [verdict?_record_of_ne (ne_of_mem_of_not_mem hx hnew)]
    exact h.waits x (List.mem_cons_of_mem _ hx)
  · by_cases hne : x = id
    · subst hne
      exact ⟨n, hdone⟩
    · obtain ⟨m, hm⟩ := h.finished x (hsome x hx) (by simpa [hne] using hp)
      refine ⟨m, hm.carry hg (by simpa using hne) (fun y hy => ?_) fun y _ hyp hmem =>
        hyp (List.mem_cons_of_mem _ hmem)⟩
      obtain rfl := List.mem_singleton.1 hy
      exact ⟨hself, List.mem_cons_self ..⟩

/-- A judged scene has the nodes that it had, without some of those that they list. -/
theorem exists_thin {m : Node} (h : Sound c s start [] st)
    (hm : st.scene.node? x = some m) : ∃ n q, s.node? x = some n ∧ m = n.thin q := by
  cases hv : st.verdict? x with
  | none => exact ⟨m, fun _ => false, (h.untouched x hv).symm.trans hm, m.thin_none.symm⟩
  | some v =>
    obtain ⟨n, hdone⟩ := h.finished x (by simp [hv]) List.not_mem_nil
    cases hdone with
    | shut hn _ hnow =>
      obtain rfl := Option.some.inj (hnow.symm.trans hm)
      exact ⟨n, fun _ => false, hn, n.thin_none.symm⟩
    | sifted q hn _ hnow => exact ⟨n, q, hn, Option.some.inj (hm.symm.trans hnow)⟩

theorem refers (h : Sound c s start [] st) (hxy : st.scene.Refers x y) : s.Refers x y := by
  obtain ⟨m, hm⟩ := Option.isSome_iff_exists.1 (Scene.node?_isSome_of_mem_refs hxy)
  obtain ⟨n, q, hn, rfl⟩ := h.exists_thin hm
  rw [Scene.Refers, Scene.refs_of_node? hm] at hxy
  rw [Scene.Refers, Scene.refs_of_node? hn]
  exact (n.refs_thin_sublist q).subset hxy

theorem reaches (h : Sound c s start [] st) (hx : st.scene.Reaches start x) : s.Reaches start x :=
  Relation.ReflTransGen.mono (fun _ _ hab => h.refers hab) _ _ hx

/-- The judgement meets every node that it comes to. -/
theorem met_of_comesTo (h : Sound c s start [] st) (hstart : Met s st start)
    (hx : c.ComesTo s start x) : Met s st x := by
  induction hx with
  | refl => exact hstart
  | tail _ hab ih =>
    obtain ⟨⟨n, hn, hopen⟩, hab⟩ := hab
    rw [Scene.Refers, Scene.refs_of_node? hn] at hab
    have hsome := ih.resolve_right (by simp [hn])
    obtain ⟨m, hdone⟩ := h.finished _ hsome List.not_mem_nil
    cases hdone with
    | shut hm hshut =>
      obtain rfl := Option.some.inj (hn.symm.trans hm)
      rw [hopen] at hshut
      cases hshut
    | sifted q hm _ _ _ hmet =>
      obtain rfl := Option.some.inj (hn.symm.trans hm)
      exact hmet _ hab

end Sound

/-! ### One judgement -/

/-- What a judgement does within a bound on its depth, while some nodes are pending that lead to the
node judged. -/
def Judges (c : JunkCase) (s : Scene) (start : NodeId) (judge : Judge) (bound : Nat) : Prop :=
  ∀ id pending st, Sound c s start pending st → c.ComesTo s start id →
    (∀ p ∈ pending, c.ComesTo s p id) → s.unmet st.met < bound →
    Sound c s start pending (judge id st).2 ∧ Grows [] st (judge id st).2 ∧
      Met s (judge id st).2 id ∧ (judge id st).1 = (judge id st).2.junk id

/-- A node that is judged next: the judgement comes to it, and pending nodes lead to it. -/
def Next (c : JunkCase) (s : Scene) (start : NodeId) (pending : List NodeId) (id : NodeId) : Prop :=
  c.ComesTo s start id ∧ ∀ p ∈ pending, c.ComesTo s p id

theorem unmet_le_of_grows (h : Grows except st st₁) : s.unmet st₁.met ≤ s.unmet st.met := by
  exact Scene.unmet_le_of_subset fun x hx => mem_met_iff.2 (h.met x (mem_met_iff.1 hx))

namespace Judges

variable {judge : Judge} {bound : Nat} {m : Node}

/-- The nodes of a list are judged one after the other, and the junk is left out. -/
theorem sift (h : Judges c s start judge bound) {ids : List NodeId}
    (hids : ∀ y ∈ ids, Next c s start pending y) (hs : Sound c s start pending st)
    (hb : s.unmet st.met < bound) :
    Sound c s start pending (JunkCase.sift judge ids st).2 ∧
      Grows [] st (JunkCase.sift judge ids st).2 ∧
      (∀ y ∈ ids, Met s (JunkCase.sift judge ids st).2 y) ∧
      (JunkCase.sift judge ids st).1 = ids.filter (!(JunkCase.sift judge ids st).2.junk ·) := by
  induction ids generalizing st with
  | nil => exact ⟨hs, .refl [] st, fun y hy => absurd hy List.not_mem_nil, rfl⟩
  | cons a ids ih =>
    obtain ⟨⟨hcome, hlead⟩, hrest⟩ := List.forall_mem_cons.1 hids
    obtain ⟨hs₁, hg₁, hmet₁, hjunk⟩ := h a pending st hs hcome hlead hb
    obtain ⟨hs₂, hg₂, hmet₂, hkept⟩ :=
      ih hrest hs₁ (Nat.lt_of_le_of_lt (unmet_le_of_grows hg₁) hb)
    have hsame := hg₂.junk_eq hs₂.known List.not_mem_nil hmet₁
    refine ⟨hs₂, hg₁.trans hg₂, List.forall_mem_cons.2 ⟨hg₂.metOrGone hmet₁, hmet₂⟩, ?_⟩
    show (if (judge a st).1 = true then _ else _) = _
    rw [hjunk, ← hsame]
    cases hj : (JunkCase.sift judge ids (judge a st).2).2.junk a with
    | true =>
      rw [if_pos rfl, hkept]
      exact (List.filter_cons_of_neg (by simpa using hj)).symm
    | false =>
      rw [if_neg Bool.false_ne_true, hkept]
      exact (List.filter_cons_of_pos (by simpa using hj)).symm

/-- What sifting a field of a pending node comes to: what it refers to has been met, it has lost its
junk, and no other field of the node has changed. -/
structure FieldSifted (c : JunkCase) (s : Scene) (start : NodeId) (pending : List NodeId)
    (st : Judging) (id : NodeId) (m : Node) (l₁ : List (FieldDecl × FieldValue)) (d : FieldDecl)
    (v : FieldValue) (l₂ : List (FieldDecl × FieldValue)) (st₁ : Judging) : Prop where
  sound : Sound c s start (id :: pending) st₁
  grows : Grows [id] st st₁
  met : ∀ y ∈ v.refs, Met s st₁ y
  node : ∃ m', st₁.scene.node? id = some m' ∧ m'.kind = m.kind ∧ m'.name = m.name ∧
    m'.slots = l₁ ++ (d, v.thin st₁.junk) :: l₂

section Field

variable (h : Judges c s start judge bound) (hs : Sound c s start (id :: pending) st)
  (hb : s.unmet st.met < bound) (hm : st.scene.node? id = some m)

include h hs hb hm

/-- A list loses its junk. -/
theorem nodesField {d : FieldDecl} {ts : List NodeId} {l₁ l₂ : List (FieldDecl × FieldValue)}
    (hts : ∀ y ∈ ts, Next c s start (id :: pending) y)
    (hslots : m.slots = l₁ ++ (d, .nodes ts) :: l₂) :
    FieldSifted c s start pending st id m l₁ d (.nodes ts) l₂
      (siftField judge id st (d, .nodes ts)) := by
  have hself : (st.verdict? id).isSome := by simp [hs.waits id (List.mem_cons_self ..)]
  have hsift := h.sift hts hs hb
  have hfield : siftField judge id st (d, .nodes ts) =
      if (JunkCase.sift judge ts st).1.length = ts.length then (JunkCase.sift judge ts st).2
      else
        { (JunkCase.sift judge ts st).2 with
          scene := (JunkCase.sift judge ts st).2.scene.set id d.name
            (.nodes (JunkCase.sift judge ts st).1)
          dropped := (JunkCase.sift judge ts st).2.dropped +
            (ts.length - (JunkCase.sift judge ts st).1.length) } := rfl
  rw [hfield]
  generalize JunkCase.sift judge ts st = sifted at hsift
  obtain ⟨kept, st₁⟩ := sifted
  obtain ⟨hs₁, hg₁, hmet, hkept⟩ := hsift
  obtain rfl : kept = ts.filter (!st₁.junk ·) := hkept
  have hm₁ : st₁.scene.node? id = some m := (hg₁.node id List.not_mem_nil hself).trans hm
  by_cases hlen : (ts.filter (!st₁.junk ·)).length = ts.length
  -- nothing was junk, and the field is not set
  · simp only [if_pos hlen]
    refine ⟨hs₁, hg₁.weaken _, hmet, m, hm₁, rfl, rfl, ?_⟩
    rw [List.length_filter_eq_length_iff] at hlen
    rw [hslots, FieldValue.thin, List.filter_eq_self.2 hlen]
  · simp only [if_neg hlen]
    have hset : (m.set d.name (.nodes (ts.filter (!st₁.junk ·)))).slots =
        l₁ ++ (d, .nodes (ts.filter (!st₁.junk ·))) :: l₂ := Node.slots_set_of_eq hslots rfl
    have hcount : st₁.dropped + (ts.length - (ts.filter (!st₁.junk ·)).length) +
        (st₁.scene.set id d.name (.nodes (ts.filter (!st₁.junk ·)))).linkCount =
        st₁.dropped + st₁.scene.linkCount := by
      have hlinks := Scene.linkCount_modify hm₁ (·.set d.name (.nodes (ts.filter (!st₁.junk ·))))
      have hle : (ts.filter (!st₁.junk ·)).length ≤ ts.length := List.length_filter_le ..
      rw [Node.refs_eq_flatMap_slots, Node.refs_eq_flatMap_slots, hset, hslots] at hlinks
      simp only [List.flatMap_append, List.flatMap_cons, List.length_append,
        FieldValue.refs] at hlinks
      rw [Scene.set]
      omega
    obtain ⟨hs₂, hg₂⟩ := hs₁.set hcount
    refine ⟨hs₂, (hg₁.weaken _).trans hg₂, hmet,
      m.set d.name (.nodes (ts.filter (!st₁.junk ·))), ?_, rfl, rfl, hset⟩
    refine (Scene.node?_modify ..).trans ((if_pos rfl).trans ?_)
    rw [hm₁]
    rfl

/-- What a field refers to is judged, and the field loses its junk. -/
theorem field {d : FieldDecl} {v : FieldValue} {l₁ l₂ : List (FieldDecl × FieldValue)}
    (hv : ∀ y ∈ v.refs, Next c s start (id :: pending) y) (hslots : m.slots = l₁ ++ (d, v) :: l₂) :
    FieldSifted c s start pending st id m l₁ d v l₂ (siftField judge id st (d, v)) := by
  have hself : (st.verdict? id).isSome := by simp [hs.waits id (List.mem_cons_self ..)]
  have hskip : v.thin st.junk = v → v.refs = [] →
      FieldSifted c s start pending st id m l₁ d v l₂ st := by
    intro hthin hrefs
    exact ⟨hs, .refl _ st, by simp [hrefs], m, hm, rfl, rfl, by rw [hthin, hslots]⟩
  cases v with
  | one k x => exact hskip rfl rfl
  | many k xs => exact hskip rfl rfl
  | node target =>
    cases target with
    | none => exact hskip rfl rfl
    | some t =>
      obtain ⟨hcome, hlead⟩ := hv t (List.mem_singleton_self t)
      obtain ⟨hs₁, hg₁, hmet, -⟩ := h t (id :: pending) st hs hcome hlead hb
      refine ⟨hs₁, hg₁.weaken _, fun y hy => ?_, m, ?_, rfl, rfl, hslots⟩
      · obtain rfl := List.mem_singleton.1 hy
        exact hmet
      · exact (hg₁.node id List.not_mem_nil hself).trans hm
  | nodes ts => exact h.nodesField hs hb hm hv hslots

end Field

/-- The fields of a node lose their junk one after the other. -/
theorem fields (h : Judges c s start judge bound) {l₁ l₂ : List (FieldDecl × FieldValue)}
    (hl : ∀ p ∈ l₂, ∀ y ∈ p.2.refs, Next c s start (id :: pending) y)
    (hs : Sound c s start (id :: pending) st) (hb : s.unmet st.met < bound)
    (hm : st.scene.node? id = some m)
    (hslots : m.slots = l₁.map (fun p => (p.1, p.2.thin st.junk)) ++ l₂)
    (hmet : ∀ p ∈ l₁, ∀ y ∈ p.2.refs, Met s st y) :
    Sound c s start (id :: pending) (l₂.foldl (siftField judge id) st) ∧
      Grows [id] st (l₂.foldl (siftField judge id) st) ∧
      (∀ p ∈ l₁ ++ l₂, ∀ y ∈ p.2.refs, Met s (l₂.foldl (siftField judge id) st) y) ∧
      ∃ m', (l₂.foldl (siftField judge id) st).scene.node? id = some m' ∧ m'.kind = m.kind ∧
        m'.name = m.name ∧ m'.slots =
          (l₁ ++ l₂).map fun p => (p.1, p.2.thin (l₂.foldl (siftField judge id) st).junk) := by
  induction l₂ generalizing l₁ st m with
  | nil =>
    refine ⟨hs, .refl _ st, by simpa using hmet, m, hm, rfl, rfl, ?_⟩
    simpa using hslots
  | cons p l₂ ih =>
    obtain ⟨d, v⟩ := p
    obtain ⟨hv, hl₂⟩ := List.forall_mem_cons.1 hl
    obtain ⟨hs₁, hg₁, hmet₁, m₁, hm₁, hk₁, hn₁, hslots₁⟩ := h.field hs hb hm hv hslots
    have hb₁ := Nat.lt_of_le_of_lt (unmet_le_of_grows hg₁) hb
    -- what the fields before have lost is still what counts as junk
    have hbefore : l₁.map (fun p => (p.1, p.2.thin st.junk)) =
        l₁.map fun p => (p.1, p.2.thin (siftField judge id st (d, v)).junk) :=
      List.map_congr_left fun p hp => Prod.ext rfl (FieldValue.thin_congr fun y hy =>
        (hs.junk_eq hs₁ hg₁ (hmet p hp y hy)).symm)
    have hslots' : m₁.slots = (l₁ ++ [(d, v)]).map
        (fun p => (p.1, p.2.thin (siftField judge id st (d, v)).junk)) ++ l₂ := by
      rw [hslots₁, hbefore, List.map_append, List.append_assoc]
      rfl
    have hmet' : ∀ p ∈ l₁ ++ [(d, v)], ∀ y ∈ p.2.refs, Met s (siftField judge id st (d, v)) y := by
      intro p hp y hy
      rcases List.mem_append.1 hp with hp | hp
      · exact hg₁.metOrGone (hmet p hp y hy)
      · obtain rfl := List.mem_singleton.1 hp
        exact hmet₁ y hy
    obtain ⟨hs₂, hg₂, hmet₂, m₂, hm₂, hk₂, hn₂, hslots₂⟩ := ih hl₂ hs₁ hb₁ hm₁ hslots' hmet'
    rw [List.append_assoc] at hmet₂ hslots₂
    exact ⟨hs₂, hg₁.trans hg₂, hmet₂, m₂, hm₂, hk₂.trans hk₁, hn₂.trans hn₁, hslots₂⟩

end Judges

/-- Judge a node that has been met: one that is not looked into by itself, and any other by what is
left of it. -/
def judgeMet (c : JunkCase) (judge : Judge) (id : NodeId) (n : Node) (st : Judging) :
    Bool × Judging :=
  if n.kind = .shape then (c.isJunkShape st.scene id n, st)
  else if c.isUnrelated id n then (true, st)
  else
    let st := n.slots.foldl (siftField judge id) st
    (!c.isKept id && isEmptied st.scene id, st)

theorem judge_of_some {bound : Nat} {v : Bool} (h : st.verdict? id = some v) :
    c.judge (bound + 1) id st = (v, st) := by
  have hlookup : st.verdicts.lookup id = some v := h
  rw [judge, hlookup]

theorem judge_of_gone {bound : Nat} (h : st.verdict? id = none) (hn : st.scene.node? id = none) :
    c.judge (bound + 1) id st = (false, st) := by
  have hlookup : st.verdicts.lookup id = none := h
  rw [judge, hlookup]
  simp only [hn]

theorem judge_of_new {bound : Nat} (h : st.verdict? id = none) (hn : st.scene.node? id = some n) :
    c.judge (bound + 1) id st = ((c.judgeMet (c.judge bound) id n (st.record id false)).1,
      (c.judgeMet (c.judge bound) id n (st.record id false)).2.record id
        (c.judgeMet (c.judge bound) id n (st.record id false)).1) := by
  have hlookup : st.verdicts.lookup id = none := h
  rw [judge, hlookup]
  simp only [hn]
  rfl

theorem isEmptied_of_node? {t : Scene} (h : t.node? id = some n) : isEmptied t id =
    ((decide (n.kind = .group) || decide (n.kind = .transform)) && n.children.isEmpty) := by
  have hkind : ∀ k, t.isKind k id = decide (n.kind = k) := by
    intro k
    rw [Scene.isKind, Scene.kind?, h, Option.map_some, Option.some_beq_some, beq_eq_decide]
  rw [isEmptied, hkind, hkind, Scene.children_of_node? h]

theorem isJunkShape_congr {t : Scene} (h : ∀ x, t.kind? x = s.kind? x) (n : Node) :
    c.isJunkShape t id n = c.isJunkShape s id n := by
  have hkind : t.isKind .indexedLineSet = s.isKind .indexedLineSet := by
    funext x
    rw [Scene.isKind, Scene.isKind, h]
  rw [isJunkShape, isJunkShape, hkind]

/-- A node that is not looked into is finished as it is. -/
theorem judgeMet_shut (hs : Sound c s start (id :: pending) st) (hnew : id ∉ pending)
    (hn : s.node? id = some n) (hnow : st.scene.node? id = some n) (hshut : c.isShut id n = true)
    (judge : Judge) :
    Sound c s start pending
        ((c.judgeMet judge id n st).2.record id (c.judgeMet judge id n st).1) ∧
      Grows [id] st ((c.judgeMet judge id n st).2.record id (c.judgeMet judge id n st).1) := by
  have hmet : c.judgeMet judge id n st =
      (if n.kind = .shape then c.isJunkShape s id n else true, st) := by
    unfold judgeMet
    by_cases hk : n.kind = .shape
    · rw [if_pos hk, if_pos hk, isJunkShape_congr hs.kind]
    · have hu : c.isUnrelated id n = true := by simpa [isShut, hk] using hshut
      rw [if_neg hk, if_neg hk, if_pos hu]
  have hdone : Finished c s pending
      (st.record id (if n.kind = .shape then c.isJunkShape s id n else true)) id n :=
    .shut hn hshut hnow (verdict?_record_self ..)
  rw [hmet]
  exact ⟨hs.closed hnew hdone, Judging.grows_record ..⟩

/-- A node whose lists have lost their junk is finished by the verdict on what is left. -/
theorem Sound.sifted (hs : Sound c s start (id :: pending) st)
    (hlead : ∀ p ∈ pending, c.ComesTo s p id) (hn : s.node? id = some n)
    (hopen : c.isShut id n = false) (hnow : st.scene.node? id = some (n.thin st.junk))
    (hmet : ∀ y ∈ n.refs, Met s st y) :
    Finished c s pending (st.record id (c.verdictLeft id (n.thin st.junk))) id n := by
  have hg := Judging.grows_record st id (c.verdictLeft id (n.thin st.junk))
  refine .sifted st.junk hn hopen hnow (verdict?_record_self ..)
    (fun y hy => hg.metOrGone (hmet y hy)) (fun y hy hq => ?_) fun y hy hq => ?_
  · have hyes : st.verdict? y = some true := by simpa [junk] using hq
    refine hg.verdict y (fun he => ?_) _ hyes
    obtain rfl := List.mem_singleton.1 he
    rw [hs.waits y (List.mem_cons_self ..)] at hyes
    cases hyes
  · -- what is left is absent, or waits for the node, or was found to be no junk
    rcases hmet y hy with hsome | hgone
    · obtain ⟨b, hb⟩ := Option.isSome_iff_exists.1 hsome
      obtain rfl : b = false := by simpa [junk, hb] using hq
      by_cases hp : y ∈ id :: pending
      · rcases List.mem_cons.1 hp with rfl | hp
        · exact .inl .refl
        · exact .inl (hlead y hp)
      · rw [List.mem_cons, not_or] at hp
        exact .inr (.inr ⟨hg.verdict y (by simpa using hp.1) _ hb, hp.2⟩)
    · exact .inr (.inl hgone)

/-- A node that is looked into is finished when its lists have lost their junk. -/
theorem judgeMet_open {judge : Judge} {bound : Nat} (h : Judges c s start judge bound)
    (hs : Sound c s start (id :: pending) st) (hnew : id ∉ pending) (hb : s.unmet st.met < bound)
    (hlead : ∀ p ∈ pending, c.ComesTo s p id) (hcome : c.ComesTo s start id)
    (hn : s.node? id = some n) (hnow : st.scene.node? id = some n) (hopen : c.isShut id n = false) :
    Sound c s start pending
        ((c.judgeMet judge id n st).2.record id (c.judgeMet judge id n st).1) ∧
      Grows [id] st ((c.judgeMet judge id n st).2.record id (c.judgeMet judge id n st).1) := by
  have hnext : ∀ p ∈ n.slots, ∀ y ∈ p.2.refs, Next c s start (id :: pending) y := by
    intro p hp y hy
    have hrefers : s.Refers id y := by
      rw [Scene.Refers, Scene.refs_of_node? hn, Node.refs_eq_flatMap_slots]
      exact List.mem_flatMap.2 ⟨p, hp, hy⟩
    have hstep : (∃ n, s.node? id = some n ∧ c.isShut id n = false) ∧ s.Refers id y :=
      ⟨⟨n, hn, hopen⟩, hrefers⟩
    refine ⟨hcome.tail hstep, fun q hq => ?_⟩
    rcases List.mem_cons.1 hq with rfl | hq
    · exact .single hstep
    · exact (hlead q hq).tail hstep
  obtain ⟨hs₁, hg₁, hmet₁, m, hm, hk, hname, hslots⟩ :=
    h.fields hnext hs hb hnow (List.nil_append _).symm fun p hp => absurd hp List.not_mem_nil
  have hjudge : c.judgeMet judge id n st =
      (!c.isKept id && isEmptied (n.slots.foldl (siftField judge id) st).scene id,
        n.slots.foldl (siftField judge id) st) := by
    rw [isShut, Bool.or_eq_false_iff, decide_eq_false_iff_not] at hopen
    rw [judgeMet, if_neg hopen.1, if_neg (by simp [hopen.2])]
  rw [hjudge]
  generalize n.slots.foldl (siftField judge id) st = st₁ at hs₁ hg₁ hmet₁ hm hslots
  have hthin : m = n.thin st₁.junk :=
    Node.eq_of_slots_eq hk hname (hslots.trans (Node.slots_thin ..).symm)
  subst hthin
  have hrefs : ∀ y ∈ n.refs, Met s st₁ y := by
    intro y hy
    rw [Node.refs_eq_flatMap_slots] at hy
    obtain ⟨p, hp, hy⟩ := List.mem_flatMap.1 hy
    exact hmet₁ p (by simpa using hp) y hy
  have hv : (!c.isKept id && isEmptied st₁.scene id) = c.verdictLeft id (n.thin st₁.junk) := by
    rw [isEmptied_of_node? hm, verdictLeft, Bool.and_assoc]
  rw [hv]
  exact ⟨hs₁.closed hnew (hs₁.sifted hlead hn hopen hm hrefs),
    hg₁.trans (Judging.grows_record st₁ id _)⟩

/-- **Judging a node keeps the invariant.** -/
theorem judge_spec (c : JunkCase) (s : Scene) (start : NodeId) (bound : Nat) :
    Judges c s start (c.judge bound) bound := by
  induction bound with
  | zero => exact fun _ _ _ _ _ _ hb => absurd hb (Nat.not_lt_zero _)
  | succ bound ih =>
    intro id pending st hs hcome hlead hb
    cases hv : st.verdict? id with
    | some v =>
      rw [judge_of_some hv]
      refine ⟨hs, .refl [] st, .inl (by simp [hv]), ?_⟩
      simp [junk, hv]
    | none =>
      have hsame := hs.untouched id hv
      cases hn : s.node? id with
      | none =>
        rw [judge_of_gone hv (hsame.trans hn)]
        refine ⟨hs, .refl [] st, .inr hn, ?_⟩
        simp [junk, hv]
      | some n =>
        have hnew : id ∉ pending := fun hp => by
          have := hs.waits id hp
          rw [hv] at this
          cases this
        have hnow : st.scene.node? id = some n := hsame.trans hn
        have hs₀ := hs.opened hv hn hcome
        have hunmet : id ∉ st.met := by
          rw [mem_met_iff, hv]
          exact Bool.false_ne_true
        have hb₀ : s.unmet (st.record id false).met < bound :=
          Scene.unmet_cons_lt_of_lt_succ hn hunmet hb
        have hdone : Sound c s start pending
              ((c.judgeMet (c.judge bound) id n (st.record id false)).2.record id
                (c.judgeMet (c.judge bound) id n (st.record id false)).1) ∧
            Grows [id] (st.record id false)
              ((c.judgeMet (c.judge bound) id n (st.record id false)).2.record id
                (c.judgeMet (c.judge bound) id n (st.record id false)).1) := by
          cases hshut : c.isShut id n with
          | true => exact judgeMet_shut hs₀ hnew hn hnow hshut _
          | false => exact judgeMet_open ih hs₀ hnew hb₀ hlead hcome hn hnow hshut
        rw [judge_of_new hv hnow]
        have hrecord := Judging.grows_record st id false
        refine ⟨hdone.1, (hrecord.trans hdone.2).of_new hv, .inl ?_, ?_⟩
        · rw [verdict?_record_self]
          rfl
        · rw [junk, verdict?_record_self]
          simp

end JunkCase

/-- **All that the judgement of a scene does.** -/
theorem Scene.judgeJunk_spec (c : JunkCase) (s : Scene) (start : NodeId) :
    c.Sound s start [] (s.judgeJunk c start).2 ∧
      Judging.Grows [] ⟨s, [], 0⟩ (s.judgeJunk c start).2 ∧
      Judging.Met s (s.judgeJunk c start).2 start := by
  obtain ⟨hs, hg, hmet, -⟩ := JunkCase.judge_spec c s start (s.size + 1) start [] ⟨s, [], 0⟩
    (JunkCase.sound_start c s start) .refl (fun p hp => absurd hp List.not_mem_nil)
    (by simp [Judging.met])
  exact ⟨hs, hg, hmet⟩

end SceneTidy
