import SceneTidy.Proofs.Vrml.RoundTrip

/-!
# Where the writing stops

The writing stops at a node that has no place in files.  If it comes to its end, then every node met
in the outline has such a place, and so have the nodes that its written fields refer to, since these
are met as well (`Covers`).  Main statement: a scene that is written to the end is writable
(`Scene.writable_of_write`).
-/

namespace SceneTidy

open Vrml

namespace Vrml

variable {s : Scene} {met met' met'' : List NodeId} {meet : Meeting} {bound : Nat}

/-- The nodes that were met from one moment to another have a place in files, and the nodes that
their written fields refer to were met as well. -/
structure Covers (s : Scene) (met met' : List NodeId) : Prop where
  subset : met ⊆ met'
  new : ∀ a ∈ met', a ∉ met → ∃ n, s.node? a = some n ∧ n.kind.isRegistered = true ∧
    ∀ p ∈ n.written, ∀ r ∈ p.2.refs, r ∈ met'

namespace Covers

theorem refl (s : Scene) (met : List NodeId) : Covers s met met :=
  ⟨fun _ h => h, fun _ h hn => absurd h hn⟩

theorem trans (h : Covers s met met') (h' : Covers s met' met'') : Covers s met met'' where
  subset := fun _ ha => h'.subset (h.subset ha)
  new a ha hn := by
    by_cases hmid : a ∈ met'
    · obtain ⟨n, hnode, hk, hrefs⟩ := h.new a hmid hn
      exact ⟨n, hnode, hk, fun p hp r hr => h'.subset (hrefs p hp r hr)⟩
    · exact h'.new a ha hmid

end Covers

/-- A meeting that the writing does not stop at covers what it meets. -/
def Completes (s : Scene) (meet : Meeting) (bound : Nat) : Prop :=
  ∀ id met depth, s.ShownFrom s.root id → s.unmet met < bound →
    (∀ b ∈ (meet id met).1, (b.pieces depth).any Piece.isRefused = false) →
    id ∈ (meet id met).2 ∧ Covers s met (meet id met).2

theorem Completes.list (h : Completes s meet bound) {ids : List NodeId} {depth : Nat}
    (hids : ∀ id ∈ ids, s.ShownFrom s.root id) (hb : s.unmet met < bound)
    (hend : ((outlineList meet ids met).1.pieces depth).any Piece.isRefused = false) :
    (∀ id ∈ ids, id ∈ (outlineList meet ids met).2) ∧
      Covers s met (outlineList meet ids met).2 := by
  induction ids generalizing met with
  | nil => exact ⟨fun _ h => absurd h List.not_mem_nil, .refl s met⟩
  | cons id ids ih =>
    obtain ⟨hid, hids⟩ := List.forall_mem_cons.1 hids
    rw [outlineList] at hend ⊢
    have hmeet := h id met depth hid hb
    generalize meet id met = first at hend hmeet ⊢
    obtain ⟨b, met₁⟩ := first
    have hrest : ((outlineList meet ids met₁).1.pieces depth).any Piece.isRefused = false ∧
        ∀ b' ∈ b, (b'.pieces depth).any Piece.isRefused = false := by
      cases b with
      | none => exact ⟨hend, fun _ h => absurd h (Option.not_mem_none _)⟩
      | some b =>
        have hend : ((outlineList meet ids met₁).1.pieces depth).any Piece.isRefused = false ∧
            (b.pieces depth).any Piece.isRefused = false := by
          simpa [Blocks.pieces, Piece.isRefused, and_comm] using hend
        exact ⟨hend.1, fun b' hb' => Option.some.inj hb' ▸ hend.2⟩
    obtain ⟨hmem, hfirst⟩ := hmeet hrest.2
    obtain ⟨hmems, hcovers⟩ :=
      ih hids (Nat.lt_of_le_of_lt (Scene.unmet_le_of_subset hfirst.subset) hb) hrest.1
    exact ⟨List.forall_mem_cons.2 ⟨hcovers.subset hmem, hmems⟩, hfirst.trans hcovers⟩

theorem Completes.body (h : Completes s meet bound) {l : List (String × FieldValue)} {depth : Nat}
    (hl : ∀ p ∈ l, ∀ r ∈ p.2.refs, s.ShownFrom s.root r) (hb : s.unmet met < bound)
    (hend : ((outlineBody meet l met).1.pieces depth).any Piece.isRefused = false) :
    (∀ p ∈ l, ∀ r ∈ p.2.refs, r ∈ (outlineBody meet l met).2) ∧
      Covers s met (outlineBody meet l met).2 := by
  induction l generalizing met with
  | nil => exact ⟨fun _ h => absurd h List.not_mem_nil, .refl s met⟩
  | cons p l ih =>
    obtain ⟨field, v⟩ := p
    obtain ⟨hv, hl⟩ := List.forall_mem_cons.1 hl
    -- the rest of the fields, after the nodes that this one refers to
    have hnext : ∀ {met₁ : List NodeId}, (∀ r ∈ v.refs, r ∈ met₁) → Covers s met met₁ →
        ((outlineBody meet l met₁).1.pieces depth).any Piece.isRefused = false →
        (∀ p ∈ (field, v) :: l, ∀ r ∈ p.2.refs, r ∈ (outlineBody meet l met₁).2) ∧
          Covers s met (outlineBody meet l met₁).2 := fun hmem hfirst hrest => by
      obtain ⟨hmems, hcovers⟩ :=
        ih hl (Nat.lt_of_le_of_lt (Scene.unmet_le_of_subset hfirst.subset) hb) hrest
      exact ⟨List.forall_mem_cons.2 ⟨fun r hr => hcovers.subset (hmem r hr), hmems⟩,
        hfirst.trans hcovers⟩
    cases v with
    | one k x =>
      refine hnext (fun _ h => absurd h List.not_mem_nil) (.refl s met) ?_
      simpa [outlineBody, Body.pieces, any_isRefused_value] using hend
    | many k xs =>
      refine hnext (fun _ h => absurd h List.not_mem_nil) (.refl s met) ?_
      simpa [outlineBody, Body.pieces, any_isRefused_value] using hend
    | node t =>
      cases t with
      | none =>
        refine hnext (fun _ h => absurd h List.not_mem_nil) (.refl s met) ?_
        simpa [outlineBody, Body.pieces, any_isRefused_value] using hend
      | some id =>
        have hmeet := h id met depth (hv id (List.mem_singleton_self id)) hb
        simp only [outlineBody] at hend ⊢
        generalize meet id met = first at hend hmeet ⊢
        obtain ⟨b, met₁⟩ := first
        have hrest : ((outlineBody meet l met₁).1.pieces depth).any Piece.isRefused = false ∧
            ∀ b' ∈ b, (b'.pieces depth).any Piece.isRefused = false := by
          cases b with
          | none =>
            refine ⟨?_, fun _ h => absurd h (Option.not_mem_none _)⟩
            simpa [Body.pieces, any_isRefused_value] using hend
          | some b =>
            have hend : ((outlineBody meet l met₁).1.pieces depth).any Piece.isRefused = false ∧
                (b.pieces depth).any Piece.isRefused = false := by
              simpa [Body.pieces, Piece.isRefused, and_comm] using hend
            exact ⟨hend.1, fun b' hb' => Option.some.inj hb' ▸ hend.2⟩
        obtain ⟨hmem, hfirst⟩ := hmeet hrest.2
        exact hnext (List.forall_mem_singleton.2 hmem) hfirst hrest.1
    | nodes ids =>
      have hend : ((outlineList meet ids met).1.pieces (depth + 1)).any Piece.isRefused = false ∧
          ((outlineBody meet l (outlineList meet ids met).2).1.pieces depth).any Piece.isRefused =
            false := by
        simpa [outlineBody, Body.pieces, any_isRefused_line] using hend
      obtain ⟨hmem, hfirst⟩ := h.list hv hb hend.1
      exact hnext hmem hfirst hend.2

/-- **What an outline meets is covered, if the writing does not stop at it.** -/
theorem completes_outlineNode
    (hwhole : ∀ a, s.ShownFrom s.root a → (s.node? a).isSome) (names : List (NodeId × String))
    (bound : Nat) : Completes s (s.outlineNode names bound) bound := by
  induction bound with
  | zero => exact fun _ _ _ _ hb => absurd hb (Nat.not_lt_zero _)
  | succ bound ih =>
    intro id met depth hid hb hend
    obtain ⟨n, hn⟩ := Option.isSome_iff_exists.1 (hwhole id hid)
    rw [Scene.outlineNode] at hend ⊢
    by_cases hmet : id ∈ met
    · rw [if_pos (by simpa using hmet)]
      exact ⟨hmet, .refl s met⟩
    · rw [if_neg (by simpa using hmet), hn] at hend ⊢
      -- the writing stops at a node without a place in files
      have hreg : n.kind.isRegistered = true := by
        by_contra hreg
        have hstop := hend _ rfl
        simp [Block.pieces, hreg, Piece.isRefused] at hstop
      simp only [hreg, if_true] at hend ⊢
      have hbody : ((outlineBody (s.outlineNode names bound) n.written (id :: met)).1.pieces
          (depth + 1)).any Piece.isRefused = false := by
        have hstop := hend _ rfl
        simp only [Block.pieces, hreg, if_true, List.any_append, List.any_cons,
          Bool.or_eq_false_iff] at hstop
        tauto
      obtain ⟨hrefs, hcovers⟩ := ih.body
        (fun p hp r hr => hid.tail (Scene.shows_of_mem_written hn hp hr))
        (Scene.unmet_cons_lt_of_lt_succ hn hmet hb) hbody
      refine ⟨hcovers.subset (List.mem_cons_self ..), fun a ha => hcovers.subset
        (List.mem_cons_of_mem _ ha), fun a ha hnew => ?_⟩
      by_cases hself : a = id
      · exact ⟨n, hself ▸ hn, hreg, hrefs⟩
      · exact hcovers.new a ha (by simp [hself, hnew])

end Vrml

namespace Scene

variable {s : Scene}

theorem any_isRefused_of_write {indent : Nat} (h : (s.write indent).failure = none) :
    (s.outline.pieces 0).any Piece.isRefused = false := by
  rw [write, filePieces, refusal?, List.findSome?_eq_none_iff] at h
  rw [List.any_eq_false]
  intro p hp hstop
  have hnone := h p (List.mem_cons_of_mem _ hp)
  cases p with
  | refused type => cases hnone
  | _ => cases hstop

/-- **If the writing comes to its end, the scene is writable**: each of its nodes that is shown was
met, and those met have a place in files. -/
theorem writable_of_write (hroot : s.kind? s.root = some .scene)
    (hwhole : ∀ a, s.ShownFrom s.root a → (s.node? a).isSome) {indent : Nat}
    (h : (s.write indent).failure = none) : s.Writable := by
  have hchildren : ∀ a ∈ s.children s.root, s.ShownFrom s.root a :=
    fun a ha => .single ((shows_root_iff hroot).2 ha)
  have hbound : s.unmet [] < s.size + 1 := by simp
  obtain ⟨hmet, hcovers⟩ := (completes_outlineNode hwhole s.sharedNames (s.size + 1)).list
    hchildren hbound (any_isRefused_of_write h)
  refine ⟨hroot, fun a b ha hab => ?_⟩
  have hb := mem_of_shows hroot hmet (fun a ha => ?_) ha hab
  · obtain ⟨n, hn, hk, -⟩ := hcovers.new b hb List.not_mem_nil
    exact ⟨n.kind, kind?_of_node? hn, hk⟩
  · obtain ⟨n, hn, -, hrefs⟩ := hcovers.new a ha List.not_mem_nil
    exact ⟨n, hn, hrefs⟩

end Scene

end SceneTidy
