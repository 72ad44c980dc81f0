import SceneTidy.Proofs.Scene.Sharing
import SceneTidy.Simplify.Junk

/-!
# Searching for what leads to a target

The search gives each node a first verdict that it does not lead to the target, and looks into a
node once; so a reference back to a node that is still being searched, a pending one, may be
overlooked.  The invariant of the search (`Searched`) is that a node with the verdict `true` leads
to the target by nodes of that verdict, and that with a finished verdict `false` each reference goes
to another such node or closes a cycle.  Main statement: the nodes found to be above the target are
those that lead to it by references that are not overlooked, and what is overlooked closes a cycle
(`mem_above_iff`, `Overlooks.reachesBefore`).
-/

namespace SceneTidy.Scene

variable {s : Scene} {start target id x y a b : NodeId} {vs vs₁ vs₂ : Verdicts}
  {pending : List NodeId} {bound : Nat}

/-! ### Verdicts -/

theorem lookup_cons_self (id : NodeId) (v : Bool) (vs : Verdicts) :
    List.lookup id ((id, v) :: vs) = some v := by
  simp

theorem lookup_cons_of_ne (h : x ≠ id) (v : Bool) (vs : Verdicts) :
    List.lookup x ((id, v) :: vs) = vs.lookup x := by
  rw [List.lookup_cons, beq_false_of_ne h]

/-- A node without a verdict is none that has one. -/
theorem ne_of_lookup {v : Bool} (hid : vs.lookup id = none) (hx : vs.lookup x = some v) :
    x ≠ id := by
  rintro rfl
  rw [hid] at hx
  cases hx

/-- Verdicts that were given stay. -/
def Extends (vs₁ vs₂ : Verdicts) : Prop := ∀ x v, vs₁.lookup x = some v → vs₂.lookup x = some v

namespace Extends

theorem refl (vs : Verdicts) : Extends vs vs := fun _ _ h => h

theorem trans (h : Extends vs vs₁) (h' : Extends vs₁ vs₂) : Extends vs vs₂ :=
  fun x v hv => h' x v (h x v hv)

theorem isSome (h : Extends vs vs₁) (hx : (vs.lookup x).isSome) : (vs₁.lookup x).isSome := by
  obtain ⟨v, hv⟩ := Option.isSome_iff_exists.1 hx
  rw [h x v hv]
  rfl

/-- The nodes that still want a verdict become fewer. -/
theorem unmet_le (h : Extends vs vs₁) :
    s.unmet (vs₁.map Prod.fst) ≤ s.unmet (vs.map Prod.fst) := by
  refine unmet_le_of_subset fun x hx => ?_
  obtain ⟨v, hv⟩ := exists_lookup_of_mem hx
  exact List.mem_map_of_mem (mem_of_lookup (h x v hv))

theorem cons (h : Extends vs vs₁) (hid : vs.lookup id = none) (v : Bool) :
    Extends vs ((id, v) :: vs₁) := by
  intro x w hw
  rw [lookup_cons_of_ne (ne_of_lookup hid hw)]
  exact h x w hw

end Extends

/-! ### The invariant -/

/-- References lead from a node to another, without passing the target. -/
def ReachesBefore (s : Scene) (target : NodeId) : NodeId → NodeId → Prop :=
  Relation.ReflTransGen fun a b => a ≠ target ∧ s.Refers a b

theorem ReachesBefore.reaches (h : s.ReachesBefore target a b) : s.Reaches a b :=
  Relation.ReflTransGen.mono (fun _ _ hab => hab.2) _ _ h

/-- Nodes with the verdict that they lead to the target refer to one another, down to the target. -/
def Confirmed (s : Scene) (target : NodeId) (vs : Verdicts) (x : NodeId) : Prop :=
  Relation.ReflTransGen (fun a b => vs.lookup a = some true ∧ s.Refers a b) x target

theorem Confirmed.mono (h : s.Confirmed target vs x)
    (hvs : ∀ y, vs.lookup y = some true → vs₁.lookup y = some true) : s.Confirmed target vs₁ x :=
  Relation.ReflTransGen.mono (fun _ _ hab => ⟨hvs _ hab.1, hab.2⟩) _ _ h

/-- What holds while nodes are searched; the pending nodes have their first verdict only. -/
structure Searched (s : Scene) (target : NodeId) (pending : List NodeId) (vs : Verdicts) :
    Prop where
  waits : ∀ x ∈ pending, vs.lookup x = some false
  unjudged : vs.lookup target = none
  yes : ∀ x, vs.lookup x = some true → s.Confirmed target vs x
  no : ∀ x, vs.lookup x = some false → x ∉ pending → ∀ b ∈ s.refs x, b ≠ target ∧
    (vs.lookup b = some false ∧ b ∉ pending ∨ s.ReachesBefore target b x)
  met : ∀ x, (vs.lookup x).isSome → x ∉ pending → ∀ b ∈ s.refs x,
    b = target ∨ (vs.lookup b).isSome

theorem searched_nil (s : Scene) (target : NodeId) : s.Searched target [] [] where
  waits _ h := absurd h List.not_mem_nil
  unjudged := rfl
  yes _ h := by cases h
  no _ h := by cases h
  met _ h := by cases h

/-- A node is pending from its first verdict on. -/
theorem Searched.opened (h : s.Searched target pending vs) (hid : vs.lookup id = none)
    (hne : id ≠ target) : s.Searched target (id :: pending) ((id, false) :: vs) := by
  have hext : Extends vs ((id, false) :: vs) := (Extends.refl vs).cons hid false
  -- all verdicts but the first one on the node are as before
  have hold : ∀ x v, List.lookup x ((id, false) :: vs) = some v → x ≠ id →
      vs.lookup x = some v := fun x v hv hx => (lookup_cons_of_ne hx false vs).symm.trans hv
  refine ⟨?_, ?_, fun x hx => ?_, fun x hx hp b hb => ?_, fun x hx hp b hb => ?_⟩
  · exact List.forall_mem_cons.2
      ⟨lookup_cons_self .., fun x hx => hext x false (h.waits x hx)⟩
  · rw [lookup_cons_of_ne hne.symm, h.unjudged]
  · have hxid : x ≠ id := by
      rintro rfl
      rw [lookup_cons_self] at hx
      cases hx
    exact (h.yes x (hold x true hx hxid)).mono fun y => hext y true
  · rw [List.mem_cons, not_or] at hp
    obtain ⟨hbt, hcases⟩ := h.no x (hold x false hx hp.1) hp.2 b hb
    refine ⟨hbt, hcases.imp_left fun hfalse => ⟨hext b false hfalse.1, ?_⟩⟩
    rw [List.mem_cons, not_or]
    exact ⟨ne_of_lookup hid hfalse.1, hfalse.2⟩
  · rw [List.mem_cons, not_or] at hp
    rw [lookup_cons_of_ne hp.1] at hx
    exact (h.met x hx hp.2 b hb).imp_right hext.isSome

/-! ### What a search comes to -/

/-- One turn over the nodes that a node refers to. -/
def searchStep (s : Scene) (target : NodeId) (bound : Nat) (r : Bool × Verdicts) (child : NodeId) :
    Bool × Verdicts :=
  (r.1 || (s.leadsTo target bound child r.2).1, (s.leadsTo target bound child r.2).2)

theorem leadsTo_target (s : Scene) (target : NodeId) (bound : Nat) (vs : Verdicts) :
    s.leadsTo target (bound + 1) target vs = (true, vs) := by
  rw [leadsTo, if_pos rfl]

theorem leadsTo_of_some {v : Bool} (hne : id ≠ target) (h : vs.lookup id = some v) :
    s.leadsTo target (bound + 1) id vs = (v, vs) := by
  rw [leadsTo, if_neg hne, h]

theorem leadsTo_of_none (hne : id ≠ target) (h : vs.lookup id = none) :
    s.leadsTo target (bound + 1) id vs =
      (((s.refs id).foldl (s.searchStep target bound) (false, (id, false) :: vs)).1,
        (id, ((s.refs id).foldl (s.searchStep target bound) (false, (id, false) :: vs)).1) ::
          ((s.refs id).foldl (s.searchStep target bound) (false, (id, false) :: vs)).2) := by
  rw [leadsTo, if_neg hne, h]
  rfl

/-- What a search from a node does: it answers with the verdict on the node. -/
structure Answered (s : Scene) (target : NodeId) (pending : List NodeId) (id : NodeId)
    (vs : Verdicts) (r : Bool × Verdicts) : Prop where
  searched : s.Searched target pending r.2
  stays : Extends vs r.2
  answer : id = target ∧ r.1 = true ∨ id ≠ target ∧ r.2.lookup id = some r.1

/-- What a search from the nodes of a list does: it answers whether one of them was found. -/
structure AnsweredAll (s : Scene) (target : NodeId) (pending ids : List NodeId)
    (r r' : Bool × Verdicts) : Prop where
  searched : s.Searched target pending r'.2
  stays : Extends r.2 r'.2
  yes : r'.1 = true → r.1 = true ∨ ∃ a ∈ ids, a = target ∨ r'.2.lookup a = some true
  no : r'.1 = false → r.1 = false ∧ ∀ a ∈ ids, a ≠ target ∧ r'.2.lookup a = some false
  met : ∀ a ∈ ids, a = target ∨ (r'.2.lookup a).isSome

theorem Answered.cons {ids : List NodeId} {r r₁ r₂ : Bool × Verdicts}
    (h : s.Answered target pending id r.2 r₁)
    (hs : s.AnsweredAll target pending ids (r.1 || r₁.1, r₁.2) r₂) :
    s.AnsweredAll target pending (id :: ids) r r₂ where
  searched := hs.searched
  stays := h.stays.trans hs.stays
  yes hyes := by
    rcases hs.yes hyes with hnow | ⟨a, ha, hfound⟩
    · rcases Bool.or_eq_true_iff.1 hnow with hbefore | hid
      · exact .inl hbefore
      · refine .inr ⟨id, List.mem_cons_self .., h.answer.imp And.left fun hv => ?_⟩
        exact hs.stays id true (hid ▸ hv.2)
    · exact .inr ⟨a, List.mem_cons_of_mem _ ha, hfound⟩
  no hno := by
    obtain ⟨hnow, hall⟩ := hs.no hno
    obtain ⟨hbefore, hid⟩ := Bool.or_eq_false_iff.1 hnow
    refine ⟨hbefore, List.forall_mem_cons.2 ⟨?_, hall⟩⟩
    rcases h.answer with ⟨-, htrue⟩ | ⟨hne, hv⟩
    · exact absurd (hid.symm.trans htrue) Bool.false_ne_true
    · exact ⟨hne, hs.stays id false (hid ▸ hv)⟩
  met := by
    refine List.forall_mem_cons.2 ⟨h.answer.imp And.left fun hv => ?_, hs.met⟩
    rw [hs.stays id _ hv.2]
    rfl

/-- What a search within a bound comes to; the pending nodes lead to the node searched. -/
def Searches (s : Scene) (target : NodeId) (bound : Nat) : Prop :=
  ∀ pending vs id, s.Searched target pending vs → (∀ p ∈ pending, s.ReachesBefore target p id) →
    s.unmet (vs.map Prod.fst) < bound →
    s.Answered target pending id vs (s.leadsTo target bound id vs)

/-- The nodes of a list are searched one after the other. -/
theorem Searches.list (h : s.Searches target bound) {ids : List NodeId} {r : Bool × Verdicts}
    (hr : s.Searched target pending r.2)
    (hids : ∀ a ∈ ids, ∀ p ∈ pending, s.ReachesBefore target p a)
    (hbound : ids ≠ [] → s.unmet (r.2.map Prod.fst) < bound) :
    s.AnsweredAll target pending ids r (ids.foldl (s.searchStep target bound) r) := by
  induction ids generalizing r with
  | nil => exact ⟨hr, .refl _, .inl, fun hno => ⟨hno, by simp⟩, by simp⟩
  | cons a ids ih =>
    obtain ⟨ha, hrest⟩ := List.forall_mem_cons.1 hids
    have hlt := hbound (List.cons_ne_nil a ids)
    have hone := h pending r.2 a hr ha hlt
    rw [List.foldl_cons]
    exact hone.cons
      (ih hone.searched hrest fun _ => Nat.lt_of_le_of_lt hone.stays.unmet_le hlt)

/-- The last verdict on a node is given after those on all that it refers to. -/
theorem AnsweredAll.close {r : Bool × Verdicts} (hid : vs.lookup id = none) (hne : id ≠ target)
    (hchain : ∀ p ∈ pending, s.ReachesBefore target p id) (hvs : s.Searched target pending vs)
    (h : s.AnsweredAll target (id :: pending) (s.refs id) (false, (id, false) :: vs) r) :
    s.Answered target pending id vs (r.1, (id, r.1) :: r.2) := by
  have hfirst : r.2.lookup id = some false := h.searched.waits id (List.mem_cons_self ..)
  have hopen : ∀ p ∈ pending, p ≠ id := fun p hp => ne_of_lookup hid (hvs.waits p hp)
  have hother : ∀ {x}, x ≠ id → ∀ v, List.lookup x ((id, v) :: r.2) = r.2.lookup x :=
    fun hx v => lookup_cons_of_ne hx v r.2
  -- no node had the verdict `true` by the first verdict on this one
  have hyes : ∀ y, r.2.lookup y = some true → List.lookup y ((id, r.1) :: r.2) = some true := by
    intro y hy
    rw [hother ?_, hy]
    rintro rfl
    rw [hfirst] at hy
    cases hy
  have hsome : ∀ y, (r.2.lookup y).isSome → (List.lookup y ((id, r.1) :: r.2)).isSome := by
    intro y hy
    by_cases hyid : y = id
    · rw [hyid, lookup_cons_self]
      rfl
    · rwa [hother hyid]
  refine ⟨⟨fun x hx => ?_, ?_, fun x hx => ?_, fun x hx hp b hb => ?_, fun x hx hp b hb => ?_⟩,
    ?_, .inr ⟨hne, lookup_cons_self ..⟩⟩
  · rw [hother (hopen x hx)]
    exact h.searched.waits x (List.mem_cons_of_mem _ hx)
  · rw [hother hne.symm, h.searched.unjudged]
  · by_cases hxid : x = id
    · subst hxid
      have hfound : r.1 = true := Option.some.inj ((lookup_cons_self ..).symm.trans hx)
      obtain ⟨b, hb, hcases⟩ := (h.yes hfound).resolve_left Bool.false_ne_true
      refine Relation.ReflTransGen.head ⟨hx, hb⟩ ?_
      rcases hcases with rfl | htrue
      · exact .refl
      · exact (h.searched.yes b htrue).mono hyes
    · rw [hother hxid] at hx
      exact (h.searched.yes x hx).mono hyes
  · by_cases hxid : x = id
    · subst hxid
      have hnot : r.1 = false := Option.some.inj ((lookup_cons_self ..).symm.trans hx)
      obtain ⟨hbt, hfalse⟩ := (h.no hnot).2 b hb
      refine ⟨hbt, ?_⟩
      by_cases hbx : b = x
      · exact .inr (hbx ▸ .refl)
      · by_cases hbp : b ∈ pending
        · exact .inr (hchain b hbp)
        · exact .inl ⟨(hother hbx _).trans hfalse, hbp⟩
    · rw [hother hxid] at hx
      have hp' : x ∉ id :: pending := by
        rw [List.mem_cons, not_or]
        exact ⟨hxid, hp⟩
      obtain ⟨hbt, hcases⟩ := h.searched.no x hx hp' b hb
      refine ⟨hbt, hcases.imp_left fun hfalse => ?_⟩
      have hb' := hfalse.2
      rw [List.mem_cons, not_or] at hb'
      exact ⟨(hother hb'.1 _).trans hfalse.1, hb'.2⟩
  · by_cases hxid : x = id
    · subst hxid
      exact (h.met b hb).imp_right (hsome b)
    · rw [hother hxid] at hx
      have hp' : x ∉ id :: pending := by
        rw [List.mem_cons, not_or]
        exact ⟨hxid, hp⟩
      exact (h.searched.met x hx hp' b hb).imp_right (hsome b)
  · exact (((Extends.refl vs).cons hid false).trans h.stays).cons hid r.1

/-- **The search keeps its invariant**, be there cycles or not. -/
theorem searches (s : Scene) (target : NodeId) (bound : Nat) : s.Searches target bound := by
  -- the induction is on the number of nodes left to meet
  induction bound with
  | zero => exact fun _ _ _ _ _ hlt => absurd hlt (Nat.not_lt_zero _)
  | succ bound ih =>
    intro pending vs id hvs hchain hlt
    by_cases hne : id = target
    · subst hne
      rw [leadsTo_target]
      exact ⟨hvs, .refl vs, .inl ⟨rfl, rfl⟩⟩
    cases hv : vs.lookup id with
    | some v =>
      rw [leadsTo_of_some hne hv]
      exact ⟨hvs, .refl vs, .inr ⟨hne, hv⟩⟩
    | none =>
      rw [leadsTo_of_none hne hv]
      refine AnsweredAll.close hv hne hchain hvs
        (ih.list (hvs.opened hv hne) (fun a ha => ?_) fun hrefs => ?_)
      · exact List.forall_mem_cons.2
          ⟨.single ⟨hne, ha⟩, fun p hp => (hchain p hp).tail ⟨hne, ha⟩⟩
      · obtain ⟨a, ha⟩ := List.exists_mem_of_ne_nil _ hrefs
        obtain ⟨n, hn⟩ := Option.isSome_iff_exists.1 (node?_isSome_of_mem_refs ha)
        exact unmet_cons_lt_of_lt_succ hn (lookup_none_iff.1 hv) hlt

/-! ### What is found above a target -/

/-- The verdicts of the search from a start. -/
def searchVerdicts (s : Scene) (start target : NodeId) : Verdicts :=
  (s.leadsTo target (s.size + 1) start []).2

theorem answered_start (s : Scene) (start target : NodeId) :
    s.Answered target [] start [] (s.leadsTo target (s.size + 1) start []) := by
  refine s.searches target (s.size + 1) [] [] start (s.searched_nil target)
    (fun p hp => absurd hp List.not_mem_nil) ?_
  rw [List.map_nil, unmet_nil]
  exact Nat.lt_succ_self _

/-- The search has a verdict on all that it can come to. -/
theorem isSome_of_reachesBefore (h : s.ReachesBefore target start x) :
    x = target ∨ ((s.searchVerdicts start target).lookup x).isSome := by
  have hstart := s.answered_start start target
  induction h with
  | refl =>
    refine hstart.answer.imp And.left fun hv => ?_
    rw [searchVerdicts, hv.2]
    rfl
  | tail _ hab ih =>
    exact hstart.searched.met _ (ih.resolve_left hab.1) List.not_mem_nil _ hab.2

/-- What can be reached, but not from the target, is reached without passing it. -/
theorem reachesBefore_of_reaches (h : s.Reaches start x) (hx : ¬s.Reaches target x) :
    s.ReachesBefore target start x := by
  induction h with
  | refl => exact .refl
  | @tail a b _ hab ih =>
    refine (ih fun ha => hx (ha.tail hab)).tail ⟨?_, hab⟩
    rintro rfl
    exact hx (.single hab)

/-- The search overlooks a reference: it finds that its end leads to the target, but not that its
beginning does. -/
structure Overlooks (s : Scene) (start target a b : NodeId) : Prop where
  refers : s.Refers a b
  no : (s.searchVerdicts start target).lookup a = some false
  yes : (s.searchVerdicts start target).lookup b = some true

/-- A reference that is overlooked closes a cycle, which does not pass the target. -/
theorem Overlooks.reachesBefore (h : s.Overlooks start target a b) :
    a ≠ target ∧ s.ReachesBefore target b a := by
  have hsearched := (s.answered_start start target).searched
  refine ⟨?_, ?_⟩
  · rintro rfl
    exact absurd (hsearched.unjudged.symm.trans h.no) nofun
  · rcases (hsearched.no a h.no List.not_mem_nil b h.refers).2 with ⟨hno, -⟩ | hback
    · exact absurd (hno.symm.trans h.yes) (by simp)
    · exact hback

/-- References lead from a node to another, none of them overlooked by a search. -/
def ReachesSeen (s : Scene) (overlooked : NodeId → NodeId → Prop) : NodeId → NodeId → Prop :=
  Relation.ReflTransGen fun a b => s.Refers a b ∧ ¬overlooked a b

theorem ReachesSeen.reaches {overlooked : NodeId → NodeId → Prop}
    (h : s.ReachesSeen overlooked a b) : s.Reaches a b :=
  Relation.ReflTransGen.mono (fun _ _ hab => hab.1) _ _ h

theorem reachesSeen_of_mem_above (h : x ∈ s.above start target) :
    s.ReachesSeen (s.Overlooks start target) x target := by
  obtain ⟨-, hv⟩ := List.mem_filter.1 h
  have hyes : (s.searchVerdicts start target).lookup x = some true := by
    rwa [Option.getD_eq_iff, or_iff_left (by simp)] at hv
  have hconfirmed := (s.answered_start start target).searched.yes x hyes
  refine Relation.ReflTransGen.mono (fun a b hab => ⟨hab.2, fun hover => ?_⟩) _ _ hconfirmed
  exact absurd (hover.no.symm.trans hab.1) (by simp)

/-- A node that leads to the target by references that are not overlooked has no other verdict. -/
theorem lookup_ne_false (h : s.ReachesSeen (s.Overlooks start target) x target) (hne : x ≠ target) :
    (s.searchVerdicts start target).lookup x ≠ some false := by
  have hsearched := (s.answered_start start target).searched
  induction h using Relation.ReflTransGen.head_induction_on with
  | refl => exact absurd rfl hne
  | @head a b hab _ ih =>
    intro hno
    have hbt := (hsearched.no a hno List.not_mem_nil b hab.1).1
    have hsome : ((s.searchVerdicts start target).lookup a).isSome := by
      rw [hno]
      rfl
    obtain ⟨v, hv⟩ := Option.isSome_iff_exists.1
      ((hsearched.met a hsome List.not_mem_nil b hab.1).resolve_left hbt)
    cases v with
    | false => exact ih hbt hv
    | true => exact hab.2 ⟨hab.1, hno, hv⟩

/-- **What is found above the target** leads to it by references that are not overlooked. -/
theorem mem_above_iff (hx : s.Reaches start x) (hn : (s.node? x).isSome)
    (hbelow : ¬s.Reaches target x) :
    x ∈ s.above start target ↔ s.ReachesSeen (s.Overlooks start target) x target := by
  refine ⟨reachesSeen_of_mem_above, fun h => ?_⟩
  have hne : x ≠ target := by
    rintro rfl
    exact hbelow .refl
  obtain ⟨v, hv⟩ := Option.isSome_iff_exists.1
    ((isSome_of_reachesBefore (reachesBefore_of_reaches hx hbelow)).resolve_left hne)
  have htrue : v = true := by
    rw [← Bool.not_eq_false]
    rintro rfl
    exact lookup_ne_false h hne hv
  subst htrue
  refine List.mem_filter.2 ⟨mem_walk_iff.2 ⟨hn, hx⟩, ?_⟩
  show ((s.searchVerdicts start target).lookup x).getD false = true
  rw [hv]
  rfl

/-- Nothing is overlooked where no cycle leads to the target. -/
theorem reachesSeen_of_reaches
    (hac : ∀ a, s.Reaches x a → s.Reaches a target →
      ¬Relation.TransGen (fun a b => a ≠ target ∧ s.Refers a b) a a)
    (h : s.Reaches x target) : s.ReachesSeen (s.Overlooks start target) x target := by
  induction h using Relation.ReflTransGen.head_induction_on with
  | refl => exact .refl
  | @head a b hab hb ih =>
    refine (ih fun c hc => hac c (.head hab hc)).head ⟨hab, fun hover => ?_⟩
    obtain ⟨hne, hback⟩ := hover.reachesBefore
    exact hac a .refl (.head hab hb) (.head' ⟨hne, hab⟩ hback)

end SceneTidy.Scene
