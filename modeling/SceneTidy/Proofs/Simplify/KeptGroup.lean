import SceneTidy.Proofs.Simplify.Drawing
import SceneTidy.Proofs.Simplify.Searching

/-!
# The group to keep

In a scene without cycles, the search for what leads to a target overlooks nothing, so that it finds
the nodes above the target (`Scene.mem_above`).  Main statement: if the rules name a group then that
is kept, and spared are the nodes below it and above it (`Scene.keptGroup_spec`).
-/

namespace SceneTidy

namespace Scene

variable {s : Scene} {start target id x : NodeId}

/-! ### What leads to a target -/

theorem reaches_of_mem_above (h : x ∈ s.above start target) : s.Reaches x target :=
  (reachesSeen_of_mem_above h).reaches

theorem mem_above (hs : s.Acyclic start) (hx : s.Reaches start x) (hn : (s.node? x).isSome)
    (hne : x ≠ target) (h : s.Reaches x target) : x ∈ s.above start target := by
  have hbelow : ¬s.Reaches target x := by
    intro hback
    rcases Relation.reflTransGen_iff_eq_or_transGen.1 h with he | hgen
    · exact hne he.symm
    · exact hs x hx (hgen.trans_left hback)
  refine (mem_above_iff hx hn hbelow).2 (reachesSeen_of_reaches (fun a ha _ hcycle => ?_) h)
  exact hs a (hx.trans ha) (Relation.TransGen.mono (fun _ _ hab => hab.2) _ _ hcycle)

/-! ### The group that the rules name -/

/-- A node is the reachable group of a number. -/
def NamesGroup (s : Scene) (numberOf : NodeId → Option Nat) (start : NodeId) (number : Option Int)
    (id : NodeId) : Prop :=
  s.Reaches start id ∧ s.kind? id = some .group ∧
    ∃ k : Nat, numberOf id = some k ∧ number = some (k : Int)

variable {numberOf : NodeId → Option Nat} {number : Option Int}

theorem isKind_iff {k : NodeKind} : s.isKind k id = true ↔ s.kind? id = some k := by
  simp [isKind]

theorem any_number_iff : ((numberOf id).any fun n => some (n : Int) = number) = true ↔
    ∃ k : Nat, numberOf id = some k ∧ number = some (k : Int) := by
  cases numberOf id with
  | none => simp
  | some k => simp [eq_comm]

/-- A group that is named is found, since no other node has its number. -/
theorem findGroup_of_namesGroup
    (hnum : ∀ a b k, numberOf a = some k → numberOf b = some k → a = b)
    (h : s.NamesGroup numberOf start number id) :
    s.findGroup numberOf start number = .ok id := by
  obtain ⟨hreach, hkind, k, hk, hnumber⟩ := h
  have hsome : (s.node? id).isSome := by
    cases hn : s.node? id with
    | none => simp [kind?, hn] at hkind
    | some n => rfl
  unfold findGroup
  cases hfind : (s.walk start).find? fun id =>
    (numberOf id).any fun n => some (n : Int) = number with
  | none =>
    have hno := List.find?_eq_none.1 hfind id (mem_walk_iff.2 ⟨hsome, hreach⟩)
    exact absurd (any_number_iff.2 ⟨k, hk, hnumber⟩) hno
  | some a =>
    have hany := List.find?_some hfind
    obtain ⟨l, hl, hnumber'⟩ := any_number_iff.1 hany
    have hkl : k = l := by
      rw [hnumber] at hnumber'
      exact Int.ofNat.inj (Option.some.inj hnumber')
    obtain rfl : a = id := hnum a id l hl (hkl ▸ hk)
    exact if_pos (isKind_iff.2 hkind)

/-- A group that is found is named. -/
theorem namesGroup_of_findGroup (h : s.findGroup numberOf start number = .ok id) :
    s.NamesGroup numberOf start number id := by
  unfold findGroup at h
  split at h
  · next a hfind =>
    split at h
    · next hkind =>
      obtain rfl : a = id := Except.ok.inj h
      have hany := List.find?_some hfind
      exact ⟨(mem_walk_iff.1 (List.mem_of_find?_eq_some hfind)).2, isKind_iff.1 hkind,
        any_number_iff.1 hany⟩
    · cases h
  · cases h

/-- The search for a group fails only for want of it. -/
theorem findGroup_eq_ok_or (s : Scene) (numberOf : NodeId → Option Nat) (start : NodeId)
    (number : Option Int) :
    (∃ id, s.findGroup numberOf start number = .ok id) ∨
      s.findGroup numberOf start number = .error (.notReachableGroup number) := by
  unfold findGroup
  split
  · split
    · exact .inl ⟨_, rfl⟩
    · exact .inr rfl
  · exact .inr rfl

variable {rules : JunkRules}

/-- If the rules name a group, what is found above it and what is below it is spared. -/
theorem keptGroup_of_namesGroup
    (hnum : ∀ a b k, numberOf a = some k → numberOf b = some k → a = b)
    (hkeep : rules.keep = some number) (h : s.NamesGroup numberOf start number id) :
    s.keptGroup numberOf rules start = .ok (some ⟨id, s.above start id ++ s.walk id⟩) := by
  rw [keptGroup, hkeep]
  simp only [findGroup_of_namesGroup hnum h]
  rfl

/-- The group that the rules ask to keep, if any. -/
def KeepsGroup (s : Scene) (numberOf : NodeId → Option Nat) (rules : JunkRules) (start : NodeId) :
    Option NodeId → Prop
  | none => rules.keep = none
  | some id => ∃ number, rules.keep = some number ∧ s.NamesGroup numberOf start number id

/-- What the judgement takes for the kept group is that group, and it spares what is below it or
above it. -/
structure Spares (s : Scene) (start : NodeId) (kept : Option NodeId) (k : Option KeptGroup) :
    Prop where
  group : k.map KeptGroup.group = kept
  spared : ∀ g ∈ k, ∀ x, s.Reaches start x → (s.node? x).isSome →
    (x ∈ g.spared ↔ s.Reaches x g.group ∨ s.Reaches g.group x)

/-- **In a scene without cycles, the group that the rules name is kept, with what is below it and
above it.** -/
theorem keptGroup_spec (hs : s.Acyclic start)
    (hnum : ∀ a b k, numberOf a = some k → numberOf b = some k → a = b)
    {kept : Option NodeId} (h : s.KeepsGroup numberOf rules start kept) :
    ∃ k, s.keptGroup numberOf rules start = .ok k ∧ s.Spares start kept k := by
  cases kept with
  | none =>
    have hkeep : rules.keep = none := h
    refine ⟨none, ?_, rfl, fun g hg => by cases hg⟩
    rw [keptGroup, hkeep]
  | some id =>
    obtain ⟨number, hkeep, hname⟩ := h
    refine ⟨_, keptGroup_of_namesGroup hnum hkeep hname, rfl, fun g hg x hx hn => ?_⟩
    obtain rfl := Option.some.inj hg
    show x ∈ s.above start id ++ s.walk id ↔ _
    rw [List.mem_append, mem_walk_iff]
    constructor
    · rintro (habove | ⟨-, hbelow⟩)
      · exact .inl (reaches_of_mem_above habove)
      · exact .inr hbelow
    · rintro (habove | hbelow)
      · by_cases hne : x = id
        · exact .inr ⟨hn, hne ▸ .refl⟩
        · exact .inl (mem_above hs hx hn hne habove)
      · exact .inr ⟨hn, hbelow⟩

/-- Rules that ask for a group which is not there are refused. -/
theorem keptGroup_of_not (hkeep : rules.keep = some number)
    (h : ∀ id, ¬s.NamesGroup numberOf start number id) :
    s.keptGroup numberOf rules start = .error (.notReachableGroup number) := by
  rcases s.findGroup_eq_ok_or numberOf start number with ⟨id, hid⟩ | herror
  · exact absurd (namesGroup_of_findGroup hid) (h id)
  · rw [keptGroup, hkeep]
    simp only [herror]
    rfl

end Scene

end SceneTidy
