import Mathlib.Data.List.Lex
import Mathlib.Data.List.Pairwise
import SceneTidy.X3d.Reader

/-!
# The elements that are read

An element below a scene element has an address: the numbers of the children that lead to it, so
that the order of addresses is the order of start tags in the document.  All elements are read but
those that are told and dropped, and those below them or below one that uses a name (`ReadAt`).  A
reading is given as a list of sites, one for each element read, with the node it stands for
(`Site`).  Main statement: what is read below a list of items, in terms of its first item
(`ListsFrom.cons`).
-/

namespace SceneTidy

namespace Xml

/-- An element: its tag, its attributes and the items inside it. -/
structure Element where
  tag : String
  attributes : List (String × String)
  items : List Item

namespace Element

/-- The element as an item. -/
def item (e : Element) : Item := .element e.tag e.attributes e.items

/-- The value of an attribute, by its full name. -/
def attribute? (e : Element) (name : String) : Option String := e.attributes.lookup name

theorem item_injective {e f : Element} (h : e.item = f.item) : e = f := by
  obtain ⟨htag, hattributes, hitems⟩ := Item.element.inj h
  cases e
  cases f
  simp_all

end Element

end Xml

namespace X3d

open Xml (Element Item)

/-- The place of an element below others: the numbers of the children that lead to it. -/
abbrev Address := List Nat

/-- An element is not told and dropped. -/
def Counts (e : Element) : Prop := Xml.localName e.tag ∉ ignoredTags

instance (e : Element) : Decidable (Counts e) :=
  inferInstanceAs (Decidable (Xml.localName e.tag ∉ ignoredTags))

/-- An element at an address is read: it does not stand in an element that is dropped or that uses a
name, and is not dropped itself. -/
inductive ReadAt (items : List Item) : Address → Element → Prop
  | top {k : Nat} {e : Element} (hk : items[k]? = some e.item) (hc : Counts e) :
      ReadAt items [k] e
  | inside {p : Address} {k : Nat} {e c : Element} (h : ReadAt items p e)
      (huse : e.attribute? "USE" = none) (hk : e.items[k]? = some c.item) (hc : Counts c) :
      ReadAt items (p ++ [k]) c

variable {items rest : List Item} {p q : Address} {e : Element} {k : Nat}

theorem ReadAt.ne_nil (h : ReadAt items p e) : p ≠ [] := by
  cases h <;> simp

/-- An element that is read stands in a child of the items, or is one. -/
theorem readAt_cons_iff : ReadAt items (k :: p) e ↔ ∃ c, items[k]? = some c.item ∧ Counts c ∧
    (p = [] ∧ e = c ∨ c.attribute? "USE" = none ∧ ReadAt c.items p e) := by
  constructor
  · intro h
    generalize ha : k :: p = a at h
    induction h generalizing p with
    | top hk hc =>
      obtain ⟨rfl, rfl⟩ := List.cons.inj ha
      exact ⟨_, hk, hc, .inl ⟨rfl, rfl⟩⟩
    | @inside q j d e h huse hk hc ih =>
      -- the element that it stands in has an address that starts alike
      obtain ⟨i, r, rfl⟩ := List.exists_cons_of_ne_nil h.ne_nil
      obtain ⟨rfl, rfl⟩ := List.cons.inj (ha.trans (List.cons_append ..))
      obtain ⟨c, hc₁, hcounts, hbelow⟩ := ih rfl
      refine ⟨c, hc₁, hcounts, .inr ?_⟩
      rcases hbelow with ⟨rfl, rfl⟩ | ⟨hfree, hread⟩
      · exact ⟨huse, .top hk hc⟩
      · exact ⟨hfree, .inside hread huse hk hc⟩
  · rintro ⟨c, hk, hc, ⟨rfl, rfl⟩ | ⟨hfree, h⟩⟩
    · exact .top hk hc
    · induction h with
      | top hj hd => exact ReadAt.inside (.top hk hc) hfree hj hd
      | inside h huse hj hd ih => exact .inside ih huse hj hd

theorem readAt_cons_succ {i : Item} {j : Nat} :
    ReadAt (i :: rest) ((j + 1) :: q) e ↔ ReadAt rest (j :: q) e := by
  rw [readAt_cons_iff, readAt_cons_iff, List.getElem?_cons_succ]

/-- An element read, with the node it stands for. -/
structure Site where
  address : Address
  element : Element
  node : NodeId
  kind : NodeKind

namespace Site

/-- The element makes a node of its own: it does not use a name. -/
def makes (a : Site) : Bool := (a.element.attribute? "USE").isNone

/-- The element makes a node and gives it a name. -/
def Defines (a : Site) (name : String) : Prop :=
  a.element.attribute? "USE" = none ∧ a.element.attribute? "DEF" = some name

/-- The element stands directly in the one at an address. -/
def isChildOf (p : Address) (a : Site) : Bool := a.address ≠ [] ∧ a.address.dropLast = p

/-- The site as one of a child of some number. -/
def under (k : Nat) (a : Site) : Site := { a with address := k :: a.address }

theorem isChildOf_iff {a : Site} : a.isChildOf p = true ↔ ∃ k, a.address = p ++ [k] := by
  rw [isChildOf, decide_eq_true_iff]
  constructor
  · rintro ⟨hne, rfl⟩
    exact ⟨a.address.getLast hne, (List.dropLast_append_getLast hne).symm⟩
  · rintro ⟨k, hk⟩
    simp [hk]

theorem isChildOf_under (a : Site) : (a.under k).isChildOf (k :: p) = a.isChildOf p := by
  rw [Bool.eq_iff_iff, isChildOf_iff, isChildOf_iff]
  simp [under]

theorem isChildOf_nil_under (a : Site) : (a.under k).isChildOf [] = a.address.isEmpty := by
  rw [Bool.eq_iff_iff, isChildOf_iff, List.isEmpty_iff]
  simp [under]

end Site

variable {sites below : List Site} {c : Element}

/-- Sites are those of the elements read below items whose numbers start at some number, in the
order of their start tags. -/
structure ListsFrom (k : Nat) (items : List Item) (sites : List Site) : Prop where
  order : sites.Pairwise (·.address < ·.address)
  read : ∀ p e, (∃ a ∈ sites, a.address = p ∧ a.element = e) ↔
    ∃ j q, p = (k + j) :: q ∧ ReadAt items (j :: q) e

/-- Sites are those of the elements read inside an element, of which there are none if it uses a
name. -/
structure Inside (c : Element) (below : List Site) : Prop where
  free : c.attribute? "USE" = none → ListsFrom 0 c.items below
  used : c.attribute? "USE" ≠ none → below = []

theorem ListsFrom.exists_iff (h : ListsFrom 0 items sites) :
    (∃ a ∈ sites, a.address = p ∧ a.element = e) ↔ ReadAt items p e := by
  rw [h.read]
  constructor
  · rintro ⟨j, q, rfl, hread⟩
    rwa [Nat.zero_add]
  · intro hread
    obtain ⟨j, q, rfl⟩ := List.exists_cons_of_ne_nil hread.ne_nil
    exact ⟨j, q, by rw [Nat.zero_add], hread⟩

namespace Inside

theorem exists_iff (h : Inside c below) :
    (∃ a ∈ below, a.address = p ∧ a.element = e) ↔
      c.attribute? "USE" = none ∧ ReadAt c.items p e := by
  cases huse : c.attribute? "USE" with
  | none => rw [(h.free huse).exists_iff, and_iff_right rfl]
  | some name =>
    rw [h.used (by simp [huse])]
    simp

theorem ne_nil (h : Inside c below) {a : Site} (ha : a ∈ below) :
    a.address ≠ [] :=
  ((h.exists_iff).1 ⟨a, ha, rfl, rfl⟩).2.ne_nil

end Inside

namespace ListsFrom

theorem exists_address (h : ListsFrom k items sites) {a : Site} (ha : a ∈ sites) :
    ∃ j q, a.address = (k + j) :: q := by
  obtain ⟨j, q, hp, -⟩ := (h.read a.address a.element).1 ⟨a, ha, rfl, rfl⟩
  exact ⟨j, q, hp⟩

theorem nil (k : Nat) : ListsFrom k [] [] := by
  refine ⟨.nil, fun p e => iff_of_false (by simp) ?_⟩
  rintro ⟨j, q, -, h⟩
  obtain ⟨c, hc, -⟩ := readAt_cons_iff.1 h
  simp at hc

/-- An item with nothing to read comes before others. -/
theorem skip {i : Item} (hi : ∀ c : Element, i = c.item → ¬Counts c)
    (h : ListsFrom (k + 1) rest sites) : ListsFrom k (i :: rest) sites := by
  refine ⟨h.order, fun p e => (h.read p e).trans ?_⟩
  constructor
  · rintro ⟨j, q, rfl, hq⟩
    exact ⟨j + 1, q, by rw [Nat.add_assoc, Nat.add_comm 1], readAt_cons_succ.2 hq⟩
  · rintro ⟨j, q, rfl, hq⟩
    cases j with
    | zero =>
      obtain ⟨c, hk, hc, -⟩ := readAt_cons_iff.1 hq
      exact absurd hc (hi c (Option.some.inj hk))
    | succ j => exact ⟨j, q, by rw [Nat.add_assoc, Nat.add_comm 1], readAt_cons_succ.1 hq⟩

/-- An element that is read comes before other items: its own site is the first. -/
theorem cons {a : Site} (ha : a.address = []) (hc : Counts a.element)
    (hbelow : Inside a.element below) (h : ListsFrom (k + 1) rest sites) :
    ListsFrom k (a.element.item :: rest) ((a :: below).map (Site.under k) ++ sites) := by
  have hlow : ∀ b ∈ (a :: below).map (Site.under k), ∃ q, b.address = k :: q := by
    intro b hb
    obtain ⟨b, -, rfl⟩ := List.mem_map.1 hb
    exact ⟨b.address, rfl⟩
  refine ⟨List.pairwise_append.2 ⟨?_, h.order, fun b hb d hd => ?_⟩, fun p e => ?_⟩
  · refine List.pairwise_map.2 (List.Pairwise.imp
      (fun hlt => List.cons_lt_cons_iff.2 (.inr ⟨rfl, hlt⟩))
      (List.pairwise_cons.2 ⟨fun b hb => ?_, ?_⟩))
    · obtain ⟨j, q, hq⟩ := List.exists_cons_of_ne_nil (hbelow.ne_nil hb)
      rw [ha, hq]
      exact List.nil_lt_cons ..
    · cases huse : a.element.attribute? "USE" with
      | none => exact (hbelow.free huse).order
      | some name =>
        rw [hbelow.used (by simp [huse])]
        exact .nil
  · obtain ⟨q, hq⟩ := hlow b hb
    obtain ⟨j, r, hr⟩ := h.exists_address hd
    rw [hq, hr]
    exact List.cons_lt_cons_iff.2 (.inl (by omega))
  -- an address starts with the number of the element, or with a later one
  · constructor
    · rintro ⟨b, hb, rfl, rfl⟩
      rcases List.mem_append.1 hb with hb | hb
      · obtain ⟨d, hd, rfl⟩ := List.mem_map.1 hb
        refine ⟨0, d.address, rfl, readAt_cons_iff.2 ⟨a.element, rfl, hc, ?_⟩⟩
        rcases List.mem_cons.1 hd with rfl | hd
        · exact .inl ⟨ha, rfl⟩
        · exact .inr (hbelow.exists_iff.1 ⟨d, hd, rfl, rfl⟩)
      · obtain ⟨j, q, hp, hread⟩ := (h.read b.address b.element).1 ⟨b, hb, rfl, rfl⟩
        exact ⟨j + 1, q, by rw [hp, Nat.add_assoc, Nat.add_comm 1], readAt_cons_succ.2 hread⟩
    · rintro ⟨j, q, rfl, hread⟩
      cases j with
      | zero =>
        obtain ⟨c, hk, -, hin⟩ := readAt_cons_iff.1 hread
        obtain rfl := Element.item_injective (Option.some.inj hk)
        rcases hin with ⟨rfl, rfl⟩ | hin
        · exact ⟨a.under k, by simp, by simp [Site.under, ha], rfl⟩
        · obtain ⟨b, hb, rfl, rfl⟩ := hbelow.exists_iff.2 hin
          refine ⟨b.under k, List.mem_append_left _ (List.mem_map_of_mem ?_), rfl, rfl⟩
          exact List.mem_cons_of_mem _ hb
      | succ j =>
        obtain ⟨b, hb, hp, he⟩ := (h.read ((k + 1 + j) :: q) e).2
          ⟨j, q, rfl, readAt_cons_succ.1 hread⟩
        refine ⟨b, List.mem_append_right _ hb, ?_, he⟩
        rw [hp, Nat.add_assoc, Nat.add_comm 1]

end ListsFrom

end X3d

end SceneTidy
