import SceneTidy.Proofs.Vrml.RoundTrip

/-!
# Writing ends

The writer keeps no account of the nodes without names that it has written, and neither its search
for shared nodes nor its descent looks out for cycles.  Here both are recursions that give no result
if they go deeper than some bound (`Scene.discover`, `Scene.draftNode`); a result stays the same
with a greater bound.  A node that is come to again was counted twice, so that it has a name
(`Accounts.two_le`), and each level of either recursion comes to a node not met before
(`discover_eq`, `drafts_outlineNode`).  Main statement: writing goes no deeper than there are nodes,
opens each node once at most, and fails only at a node that has no place in files (`exists_draft`).
-/

namespace SceneTidy

open Vrml

/-! ### Drafts -/

namespace Vrml

/-- The pieces written so far, and the failure at which the writing stopped, if it did. -/
structure Page where
  pieces : List Piece
  failure : Option SceneError

/-- Write one more piece, unless the writing has stopped. -/
def Page.write (page : Page) (p : Piece) : Page :=
  if page.failure.isSome then page
  else
    match p with
    | .refused type => { page with failure := some (.unsupportedNode type) }
    | p => { page with pieces := page.pieces ++ [p] }

/-- A scene that is being written: the page, the nodes whose bodies have been opened, and the nodes
whose names have been defined. -/
structure Draft where
  page : Page
  opened : List NodeId
  defined : List NodeId

namespace Draft

/-- Write several pieces. -/
def put (d : Draft) (ps : List Piece) : Draft := { d with page := ps.foldl Page.write d.page }

/-- Begin the part of a node, and define its name if it has one. -/
def start (d : Draft) (id : NodeId) (name : Option String) : Draft :=
  { d with defined := if name.isSome then id :: d.defined else d.defined }.put
    (.begins id :: definition name)

/-- Open the body of a node. -/
def enter (d : Draft) (id : NodeId) (kind : NodeKind) : Draft :=
  { d with opened := id :: d.opened }.put [.text (kind.typeName.toList ++ [' ', '{', '\n'])]

/-- Write the nodes of a list, each after a margin, given how to write a node from some depth. -/
def nodes (node : Nat → Draft → NodeId → Option Draft) (depth : Nat) (d : Draft)
    (ids : List NodeId) : Option Draft :=
  ids.foldlM (fun d id => node depth (d.put [.margin depth]) id) d

/-- Write a field. -/
def field (node : Nat → Draft → NodeId → Option Draft) (depth : Nat) (d : Draft)
    (p : String × FieldValue) : Option Draft :=
  match p.2 with
  | .node (some id) => node depth (d.put [.margin depth, .text (p.1.toList ++ [' '])]) id
  | .nodes ids => do
    let d ← (d.put (Piece.line depth (p.1.toList ++ [' ', '[']))).nodes node (depth + 1) ids
    some (d.put (Piece.line depth [']']))
  | v => some (d.put (valuePieces depth p.1 v))

end Draft

end Vrml

namespace Scene

/-- Write a node, after its margin: a node with a name is written in full once, and any other as
often as the writing comes to it.  There is no result if nodes are written in one another deeper
than the bound. -/
def draftNode (s : Scene) (names : List (NodeId × String)) :
    Nat → Nat → Draft → NodeId → Option Draft
  | 0, _, _, _ => none
  | bound + 1, depth, d, id =>
    if d.page.failure.isSome then some d
    else if (names.lookup id).isSome && d.defined.contains id then
      some (d.put [.text ("USE ".toList ++ ((names.lookup id).getD "").toList ++ ['\n'])])
    else
      match s.node? id with
      | none => some d
      | some n =>
        let d := d.start id (names.lookup id)
        if n.kind.isRegistered then do
          let d ← n.written.foldlM (Draft.field (s.draftNode names bound) (depth + 1))
            (d.enter id n.kind)
          some (d.put (Piece.line depth ['}'] ++ [.ends id]))
        else some (d.put [.refused n.kind.typeName])

/-- Write a scene: count the references, name the shared nodes, and write the top level. -/
def draft (s : Scene) (bound : Nat) : Option Draft := do
  let as ← s.discover bound [] s.root
  let names := as.shared.zipIdx.map fun (id, n) => (id, sharedName n)
  Draft.nodes (s.draftNode names bound) 0 ⟨⟨[.text headerLine], none⟩, [], []⟩ (s.children s.root)

end Scene

/-! ### Pages -/

namespace Vrml

variable {s : Scene} {names : List (NodeId × String)} {met met₁ met' pending more : List NodeId}
  {d d₁ d' : Draft} {ps qs : List Piece} {meet : Meeting} {bound : Nat}

theorem foldl_write_of_failed {page : Page} (h : page.failure ≠ none) (ps : List Piece) :
    ps.foldl Page.write page = page := by
  induction ps with
  | nil => rfl
  | cons p ps ih =>
    have hstay : page.write p = page := by
      unfold Page.write
      exact if_pos (Option.isSome_iff_ne_none.2 h)
    rw [List.foldl_cons, hstay, ih]

/-- Pieces are written up to the first one at which the writing stops. -/
theorem foldl_write (pieces ps : List Piece) : ps.foldl Page.write ⟨pieces, none⟩ =
    ⟨pieces ++ ps.takeWhile (!·.isRefused), refusal? ps⟩ := by
  induction ps generalizing pieces with
  | nil => rw [List.takeWhile_nil, List.append_nil]; rfl
  | cons p ps ih =>
    have hgoes : p.isRefused = false →
        Page.write ⟨pieces, none⟩ p = ⟨pieces ++ [p], none⟩ ∧ refusal? (p :: ps) = refusal? ps := by
      intro hp
      cases p with
      | refused type => cases hp
      | _ => exact ⟨rfl, rfl⟩
    cases hp : p.isRefused with
    | false =>
      obtain ⟨hwrite, hrefusal⟩ := hgoes hp
      rw [List.foldl_cons, hwrite, ih, hrefusal, List.takeWhile_cons_of_pos (by simp [hp]),
        List.append_assoc, List.singleton_append]
    | true =>
      rw [List.takeWhile_cons_of_neg (by simp [hp]), List.append_nil]
      cases p with
      | refused type => exact foldl_write_of_failed (Option.some_ne_none _) ps
      | _ => cases hp

theorem failure_foldl_write {page : Page} (h : page.failure = none)
    (hps : ps.any Piece.isRefused = false) : (ps.foldl Page.write page).failure = none := by
  obtain ⟨pieces, failure⟩ := page
  obtain rfl : failure = none := h
  rw [foldl_write, refusal?_of_not_refused hps]

theorem put_of_failed (h : d.page.failure ≠ none) (ps : List Piece) : d.put ps = d := by
  rw [Draft.put, foldl_write_of_failed h]

theorem draftNode_of_failed (h : d.page.failure ≠ none) (hb : 0 < bound) (depth : Nat)
    (id : NodeId) : s.draftNode names bound depth d id = some d := by
  obtain ⟨bound, rfl⟩ := Nat.exists_eq_add_one_of_ne_zero (Nat.ne_of_gt hb)
  rw [Scene.draftNode, if_pos (Option.isSome_iff_ne_none.2 h)]

theorem foldlM_of_failed {α : Type} {f : Draft → α → Option Draft} (h : ∀ a, f d a = some d)
    (l : List α) : l.foldlM f d = some d := by
  induction l with
  | nil => rfl
  | cons a l ih =>
    rw [List.foldlM_cons, h a]
    exact ih

variable {node node' : Nat → Draft → NodeId → Option Draft}

theorem nodes_of_failed (hnode : ∀ depth id, node depth d id = some d)
    (h : d.page.failure ≠ none) (depth : Nat) (ids : List NodeId) :
    d.nodes node depth ids = some d :=
  foldlM_of_failed (fun id => by rw [put_of_failed h, hnode]) ids

theorem field_of_failed (hnode : ∀ depth id, node depth d id = some d)
    (h : d.page.failure ≠ none) (depth : Nat) (p : String × FieldValue) :
    d.field node depth p = some d := by
  obtain ⟨field, v⟩ := p
  rw [Draft.field]
  cases v with
  | one k x => exact congrArg some (put_of_failed h _)
  | many k xs => exact congrArg some (put_of_failed h _)
  | node t =>
    cases t with
    | none => exact congrArg some (put_of_failed h _)
    | some id =>
      dsimp only
      rw [put_of_failed h, hnode]
  | nodes ids =>
    dsimp only
    rw [put_of_failed h, nodes_of_failed hnode h]
    exact congrArg some (put_of_failed h _)

theorem nodes_mono (h : ∀ depth d id d', node depth d id = some d' → node' depth d id = some d')
    {depth : Nat} {ids : List NodeId} (hd : d.nodes node depth ids = some d') :
    d.nodes node' depth ids = some d' :=
  foldlM_mono (fun _ _ _ => h _ _ _ _) hd

theorem field_mono (h : ∀ depth d id d', node depth d id = some d' → node' depth d id = some d')
    {depth : Nat} {p : String × FieldValue} (hd : d.field node depth p = some d') :
    d.field node' depth p = some d' := by
  obtain ⟨field, v⟩ := p
  rw [Draft.field] at hd ⊢
  cases v with
  | one k x => exact hd
  | many k xs => exact hd
  | node t =>
    cases t with
    | none => exact hd
    | some id => exact h _ _ _ _ hd
  | nodes ids =>
    rw [Option.bind_eq_bind, Option.bind_eq_some_iff] at hd ⊢
    obtain ⟨d₁, hids, hend⟩ := hd
    exact ⟨d₁, nodes_mono h hids, hend⟩

theorem draftNode_succ {depth : Nat} {id : NodeId}
    (h : s.draftNode names bound depth d id = some d') :
    s.draftNode names (bound + 1) depth d id = some d' := by
  induction bound generalizing depth d id d' with
  | zero => cases h
  | succ bound ih =>
    rw [Scene.draftNode] at h ⊢
    split at h
    · next hstop => rwa [if_pos hstop]
    · next hstop =>
      rw [if_neg hstop]
      split at h
      · next hused => rwa [if_pos hused]
      · next hused =>
        rw [if_neg hused]
        cases hn : s.node? id with
        | none => rwa [hn] at h
        | some n =>
          rw [hn] at h
          dsimp only at h ⊢
          split at h
          · next hreg =>
            rw [if_pos hreg]
            rw [Option.bind_eq_bind, Option.bind_eq_some_iff] at h ⊢
            obtain ⟨d₁, hbody, hend⟩ := h
            exact ⟨d₁, foldlM_mono (fun _ _ _ => field_mono fun _ _ _ _ => ih) hbody, hend⟩
          · next hreg => rwa [if_neg hreg]

theorem draft_succ (h : s.draft bound = some d) : s.draft (bound + 1) = some d := by
  rw [Scene.draft, Option.bind_eq_bind, Option.bind_eq_some_iff] at h ⊢
  obtain ⟨as, has, hlist⟩ := h
  exact ⟨as, Scene.discover_succ has, nodes_mono (fun _ _ _ _ => draftNode_succ) hlist⟩

/-! ### What a draft and an outline have in common -/

/-- As long as nothing was refused, a draft agrees with an outline on the nodes met: those that have
a name are the ones with a defined name. -/
structure Agrees (s : Scene) (met pending : List NodeId) (d : Draft) : Prop where
  accounts : Accounts s met pending
  defined : ∀ x, (s.sharedNames.lookup x).isSome = true → (x ∈ d.defined ↔ x ∈ met)
  opened : ∀ x ∈ d.opened, x ∈ met

/-- A node that the writing comes to, from the root or a node whose body was opened. -/
def Draft.ComesTo (d : Draft) (s : Scene) (id : NodeId) : Prop :=
  ∃ a, (a = s.root ∨ a ∈ d.opened) ∧ s.ShownFrom s.root a ∧ s.Shows a id

theorem Draft.ComesTo.mono {id : NodeId} (h : d.ComesTo s id) (hd : d.opened ⊆ d'.opened) :
    d'.ComesTo s id := by
  obtain ⟨a, ha, hfrom, hshows⟩ := h
  exact ⟨a, ha.imp_right fun ha => hd ha, hfrom, hshows⟩

/-- What holds of every draft: no body was opened twice, and the writing fails only at a node that
it comes to and that has no place in files. -/
structure Draft.Sound (s : Scene) (d : Draft) : Prop where
  nodup : d.opened.Nodup
  failure : ∀ e, d.page.failure = some e → ∃ b k, d.ComesTo s b ∧ s.kind? b = some k ∧
    k.isRegistered = false ∧ e = .unsupportedNode k.typeName

/-- What comes of writing the pieces of a part of an outline. -/
structure Writes (s : Scene) (pending met : List NodeId) (d : Draft) (ps : List Piece)
    (met' : List NodeId) (d' : Draft) : Prop where
  page : d'.page = ps.foldl Page.write d.page
  opened : d.opened ⊆ d'.opened
  sound : d'.Sound s
  agrees : d'.page.failure = none → met ⊆ met' ∧ Agrees s met' pending d'

/-- Pieces at which the writing does not stop. -/
theorem Writes.put (h : Agrees s met pending d) (hs : d.Sound s) (hd : d.page.failure = none)
    (hps : ps.any Piece.isRefused = false) : Writes s pending met d ps met (d.put ps) := by
  have hend : (d.put ps).page.failure = none := failure_foldl_write hd hps
  refine ⟨rfl, fun _ hx => hx, ⟨hs.nodup, fun e he => ?_⟩, fun _ =>
    ⟨fun _ hx => hx, h.accounts, h.defined, h.opened⟩⟩
  rw [hend] at he
  cases he

/-- Pieces that come before. -/
theorem Writes.after {d₀ : Draft} {met₀ : List NodeId} (h : Writes s pending met₀ d₀ qs met' d')
    (hpage : d₀.page = ps.foldl Page.write d.page) (hopened : d.opened ⊆ d₀.opened)
    (hmet : met ⊆ met₀) : Writes s pending met d (ps ++ qs) met' d' where
  page := by rw [h.page, hpage, List.foldl_append]
  opened _ hx := h.opened (hopened hx)
  sound := h.sound
  agrees hend := (h.agrees hend).imp_left fun hsub _ hx => hsub (hmet hx)

/-- One part is written after another; nothing more is written if the writing has stopped. -/
theorem Writes.andThen {k : Draft → Option Draft} (h : Writes s more met d ps met₁ d₁)
    (hstop : d₁.page.failure ≠ none → k d₁ = some d₁)
    (hnext : d₁.page.failure = none → met ⊆ met₁ → Agrees s met₁ more d₁ →
      ∃ d', k d₁ = some d' ∧ Writes s pending met₁ d₁ qs met' d') :
    ∃ d', k d₁ = some d' ∧ Writes s pending met d (ps ++ qs) met' d' := by
  by_cases hd₁ : d₁.page.failure = none
  · obtain ⟨hsub, hagrees⟩ := h.agrees hd₁
    obtain ⟨d', hd', hw⟩ := hnext hd₁ hsub hagrees
    refine ⟨d', hd', ?_, fun _ hx => hw.opened (h.opened hx), hw.sound, fun hend => ?_⟩
    · rw [hw.page, h.page, List.foldl_append]
    · obtain ⟨hsub', hagrees'⟩ := hw.agrees hend
      exact ⟨fun _ hx => hsub' (hsub hx), hagrees'⟩
  · refine ⟨d₁, hstop hd₁, ?_, h.opened, h.sound, fun hend => absurd hend hd₁⟩
    rw [List.foldl_append, ← h.page, foldl_write_of_failed hd₁]

/-! ### One step of the writing -/

/-- A way to meet nodes that writing follows, without going deeper than a bound. -/
def Drafts (s : Scene) (meet : Meeting) (bound : Nat) : Prop :=
  ∀ id met pending depth d, d.page.failure = none → Agrees s met (id :: pending) d → d.Sound s →
    d.ComesTo s id → s.unmet met < bound →
    ∃ b met' d', meet id met = (some b, met') ∧
      s.draftNode s.sharedNames bound depth d id = some d' ∧
      Writes s pending met d (b.pieces depth) met' d'

/-- Pieces before a node. -/
theorem Drafts.after (h : Drafts s meet bound) {id : NodeId} (hd : d.page.failure = none)
    (hagrees : Agrees s met (id :: pending) d) (hs : d.Sound s) (hcome : d.ComesTo s id)
    (hb : s.unmet met < bound) (depth : Nat) (ps : List Piece)
    (hps : ps.any Piece.isRefused = false) :
    ∃ b met' d', meet id met = (some b, met') ∧
      s.draftNode s.sharedNames bound depth (d.put ps) id = some d' ∧
      Writes s pending met d (ps ++ b.pieces depth) met' d' := by
  have hput := Writes.put hagrees hs hd hps
  have hd₁ : (d.put ps).page.failure = none := failure_foldl_write hd hps
  obtain ⟨b, met', d', hmeet, hdraft, hw⟩ :=
    h id met pending depth (d.put ps) hd₁ (hput.agrees hd₁).2 hput.sound hcome hb
  exact ⟨b, met', d', hmeet, hdraft, hw.after rfl (fun _ hx => hx) fun _ hx => hx⟩

theorem Drafts.list (h : Drafts s meet bound) {ids : List NodeId} (hd : d.page.failure = none)
    (hagrees : Agrees s met (ids ++ pending) d) (hs : d.Sound s)
    (hids : ∀ id ∈ ids, d.ComesTo s id) (hb : s.unmet met < bound) (depth : Nat) :
    ∃ d', d.nodes (s.draftNode s.sharedNames bound) depth ids = some d' ∧
      Writes s pending met d ((outlineList meet ids met).1.pieces depth)
        (outlineList meet ids met).2 d' := by
  induction ids generalizing met d with
  | nil => exact ⟨d, rfl, .put hagrees hs hd List.any_nil⟩
  | cons id ids ih =>
    obtain ⟨hid, hids⟩ := List.forall_mem_cons.1 hids
    obtain ⟨b, met₁, d₁, hmeet, hdraft, hw⟩ :=
      h.after hd hagrees hs hid hb depth [.margin depth] rfl
    have hlist : outlineList meet (id :: ids) met =
        (.cons b (outlineList meet ids met₁).1, (outlineList meet ids met₁).2) := by
      simp only [outlineList, hmeet]
    rw [hlist, Draft.nodes, List.foldlM_cons, hdraft]
    refine hw.andThen (k := fun d => d.nodes (s.draftNode s.sharedNames bound) depth ids)
      (fun hstop => ?_) fun hd₁ hsub hagrees₁ => ?_
    · exact nodes_of_failed (draftNode_of_failed hstop (Nat.zero_lt_of_lt hb)) hstop depth ids
    · exact ih hd₁ hagrees₁ hw.sound (fun x hx => (hids x hx).mono hw.opened)
        (Nat.lt_of_le_of_lt (Scene.unmet_le_of_subset hsub) hb)

/-- One field comes before the rest. -/
theorem Drafts.field (h : Drafts s meet bound) {field : String} {v : FieldValue}
    (l : List (String × FieldValue)) (hd : d.page.failure = none)
    (hagrees : Agrees s met (v.refs ++ pending) d) (hs : d.Sound s)
    (hv : ∀ id ∈ v.refs, d.ComesTo s id) (hb : s.unmet met < bound) (depth : Nat) :
    ∃ ps met₁ d₁, d.field (s.draftNode s.sharedNames bound) depth (field, v) = some d₁ ∧
      Writes s pending met d ps met₁ d₁ ∧
      (outlineBody meet ((field, v) :: l) met).1.pieces depth =
        ps ++ (outlineBody meet l met₁).1.pieces depth ∧
      (outlineBody meet ((field, v) :: l) met).2 = (outlineBody meet l met₁).2 := by
  have hplain : ∀ v : FieldValue, Agrees s met pending d →
      Writes s pending met d (valuePieces depth field v) met (d.put (valuePieces depth field v)) :=
    fun v hagrees => .put hagrees hs hd (any_isRefused_value depth field v)
  rw [Draft.field]
  cases v with
  | one k x => exact ⟨_, met, _, rfl, hplain _ hagrees, rfl, rfl⟩
  | many k xs => exact ⟨_, met, _, rfl, hplain _ hagrees, rfl, rfl⟩
  | node t =>
    cases t with
    | none => exact ⟨_, met, _, rfl, hplain _ hagrees, rfl, rfl⟩
    | some id =>
      obtain ⟨b, met₁, d₁, hmeet, hdraft, hw⟩ :=
        h.after hd hagrees hs (hv id (List.mem_singleton_self id)) hb depth
          [.margin depth, .text (field.toList ++ [' '])] rfl
      refine ⟨_, met₁, d₁, hdraft, hw, ?_, ?_⟩
      · simp only [outlineBody, hmeet]
        rfl
      · simp only [outlineBody, hmeet]
  | nodes ids =>
    have hids : ∀ id ∈ ids, d.ComesTo s id := hv
    have hwait : Agrees s met (ids ++ pending) d := hagrees
    have hopen := any_isRefused_line depth (field.toList ++ [' ', '['])
    have hput := Writes.put hwait hs hd hopen
    have hd₀ : (d.put (Piece.line depth (field.toList ++ [' ', '[']))).page.failure = none :=
      failure_foldl_write hd hopen
    obtain ⟨d₁, hlist, hw⟩ := h.list hd₀ (hput.agrees hd₀).2 hput.sound hids hb (depth + 1)
    obtain ⟨d₂, hclose, hw₂⟩ := hw.andThen (k := fun d => some (d.put (Piece.line depth [']'])))
      (fun hstop => congrArg some (put_of_failed hstop _))
      fun hd₁ _ hagrees₁ => ⟨_, rfl, .put hagrees₁ hw.sound hd₁ (any_isRefused_line depth [']'])⟩
    refine ⟨_, _, d₂, ?_, hw₂.after rfl (fun _ hx => hx) fun _ hx => hx, ?_, ?_⟩
    · dsimp only
      rw [hlist]
      exact hclose
    · simp only [outlineBody, Body.pieces, List.append_assoc]
    · simp only [outlineBody]

theorem Drafts.body (h : Drafts s meet bound) {l : List (String × FieldValue)}
    (hd : d.page.failure = none) (hagrees : Agrees s met (l.flatMap (·.2.refs) ++ pending) d)
    (hs : d.Sound s) (hl : ∀ p ∈ l, ∀ id ∈ p.2.refs, d.ComesTo s id) (hb : s.unmet met < bound)
    (depth : Nat) :
    ∃ d', l.foldlM (Draft.field (s.draftNode s.sharedNames bound) depth) d = some d' ∧
      Writes s pending met d ((outlineBody meet l met).1.pieces depth) (outlineBody meet l met).2
        d' := by
  induction l generalizing met d with
  | nil => exact ⟨d, rfl, .put hagrees hs hd List.any_nil⟩
  | cons p l ih =>
    obtain ⟨field, v⟩ := p
    obtain ⟨hv, hl⟩ := List.forall_mem_cons.1 hl
    rw [List.flatMap_cons, List.append_assoc] at hagrees
    obtain ⟨ps, met₁, d₁, hdraft, hw, hpieces, hmet⟩ := h.field l hd hagrees hs hv hb depth
    rw [hpieces, hmet, List.foldlM_cons, hdraft]
    refine hw.andThen
      (k := fun d => l.foldlM (Draft.field (s.draftNode s.sharedNames bound) depth) d)
      (fun hstop => ?_) fun hd₁ hsub hagrees₁ => ?_
    · refine foldlM_of_failed (field_of_failed ?_ hstop depth) l
      exact draftNode_of_failed hstop (Nat.zero_lt_of_lt hb)
    · exact ih hd₁ hagrees₁ hw.sound (fun p hp x hx => (hl p hp x hx).mono hw.opened)
        (Nat.lt_of_le_of_lt (Scene.unmet_le_of_subset hsub) hb)

/-! ### The whole scene -/

/-- A node that is met for the first time is opened. -/
theorem Agrees.enter {id : NodeId} {n : Node} (h : Agrees s met (id :: pending) d)
    (hne : id ≠ s.root) (hmet : id ∉ met) (hn : s.node? id = some n) :
    Agrees s (id :: met) (n.written.flatMap (·.2.refs) ++ pending)
      ((d.start id (s.sharedNames.lookup id)).enter id n.kind) where
  accounts := h.accounts.meet hne hmet hn n.count_written_le
  defined x hx := by
    show x ∈ (if (s.sharedNames.lookup id).isSome then id :: d.defined else d.defined) ↔ _
    have hold := h.defined x hx
    by_cases hxid : x = id
    · subst hxid
      simp [hx]
    · split <;> simp [hxid, hold]
  opened x hx := by
    rcases List.mem_cons.1 hx with rfl | hx
    · exact List.mem_cons_self ..
    · exact List.mem_cons_of_mem _ (h.opened x hx)

/-- The body of a node that is met for the first time is opened, and what its written fields refer
to comes next. -/
theorem Drafts.enter (h : Drafts s meet bound) {id : NodeId} {n : Node}
    (hd : d.page.failure = none) (hagrees : Agrees s met (id :: pending) d) (hs : d.Sound s)
    (hne : id ≠ s.root) (hmet : id ∉ met) (hn : s.node? id = some n)
    (hreg : n.kind.isRegistered = true) (hfrom : s.ShownFrom s.root id)
    (hb : s.unmet met < bound + 1) (depth : Nat) :
    ∃ d', (n.written.foldlM (Draft.field (s.draftNode s.sharedNames bound) (depth + 1))
        ((d.start id (s.sharedNames.lookup id)).enter id n.kind) >>= fun d =>
          some (d.put (Piece.line depth ['}'] ++ [.ends id]))) = some d' ∧
      Writes s pending met d ((Block.node id (s.sharedNames.lookup id) n.kind
          (outlineBody meet n.written (id :: met)).1).pieces depth)
        (outlineBody meet n.written (id :: met)).2 d' := by
  have hstart : (d.start id (s.sharedNames.lookup id)).page.failure = none :=
    failure_foldl_write hd (any_isRefused_definition _)
  have henter : ((d.start id (s.sharedNames.lookup id)).enter id n.kind).page.failure = none :=
    failure_foldl_write hstart rfl
  have hsound : ((d.start id (s.sharedNames.lookup id)).enter id n.kind).Sound s := by
    refine ⟨List.nodup_cons.2 ⟨fun hid => hmet (hagrees.opened id hid), hs.nodup⟩, fun e he => ?_⟩
    rw [henter] at he
    cases he
  have hrefs : ∀ p ∈ n.written, ∀ r ∈ p.2.refs,
      ((d.start id (s.sharedNames.lookup id)).enter id n.kind).ComesTo s r := fun p hp r hr =>
    ⟨id, .inr (List.mem_cons_self ..), hfrom, Scene.shows_of_mem_written hn hp hr⟩
  obtain ⟨d₁, hbody, hw⟩ := h.body henter (hagrees.enter hne hmet hn) hsound hrefs
    (Scene.unmet_cons_lt_of_lt_succ hn hmet hb) (depth + 1)
  obtain ⟨d', hclose, hw'⟩ := hw.andThen
    (k := fun d => some (d.put (Piece.line depth ['}'] ++ [.ends id])))
    (fun hstop => congrArg some (put_of_failed hstop _))
    fun hd₁ _ hagrees₁ => ⟨_, rfl, .put hagrees₁ hw.sound hd₁ rfl⟩
  refine ⟨d', by rw [hbody]; exact hclose, ?_⟩
  have hpage : ((d.start id (s.sharedNames.lookup id)).enter id n.kind).page =
      List.foldl Page.write d.page (.begins id :: definition (s.sharedNames.lookup id) ++
        [.text (n.kind.typeName.toList ++ [' ', '{', '\n'])]) := by
    rw [List.foldl_append]
    rfl
  have hall := hw'.after hpage (List.subset_cons_self ..) (List.subset_cons_self id met)
  rw [Block.pieces, if_pos hreg]
  simpa only [List.append_assoc, List.singleton_append, List.cons_append, List.nil_append]
    using hall

/-- The writing stops at a node that has no place in files. -/
theorem Writes.refuse {id : NodeId} {n : Node} (hd : d.page.failure = none) (hs : d.Sound s)
    (hcome : d.ComesTo s id) (hn : s.node? id = some n) (hreg : n.kind.isRegistered = false)
    (name : Option String) (body : Body NodeId) (depth : Nat) :
    Writes s pending met d ((Block.node id name n.kind body).pieces depth) met'
      ((d.start id name).put [.refused n.kind.typeName]) := by
  have hstart : (d.start id name).page.failure = none :=
    failure_foldl_write hd (any_isRefused_definition _)
  have hstop : ((d.start id name).put [.refused n.kind.typeName]).page.failure =
      some (.unsupportedNode n.kind.typeName) := by
    show ((d.start id name).page.write (.refused n.kind.typeName)).failure = _
    rw [Page.write, hstart]
    rfl
  refine ⟨?_, fun _ hx => hx, ⟨hs.nodup, fun e he => ?_⟩, fun hend => ?_⟩
  · rw [Block.pieces, hreg, if_neg Bool.false_ne_true, List.foldl_append]
    rfl
  · rw [hstop] at he
    exact ⟨id, n.kind, hcome, Scene.kind?_of_node? hn, hreg, (Option.some.inj he).symm⟩
  · rw [hstop] at hend
    cases hend

/-! ### The whole scene -/

section Whole

variable (hroot : s.kind? s.root = some .scene)
  (hwhole : ∀ a, s.ShownFrom s.root a → (s.node? a).isSome)

include hroot hwhole

/-- **Writing follows the outline.**  A node that has been met was counted twice, so that it has a
name, and its name has been defined. -/
theorem drafts_outlineNode (bound : Nat) :
    Drafts s (s.outlineNode s.sharedNames bound) bound := by
  induction bound with
  | zero => exact fun _ _ _ _ _ _ _ _ _ hb => absurd hb (Nat.not_lt_zero _)
  | succ bound ih =>
    intro id met pending depth d hd hagrees hs hcome hb
    have hfrom : s.ShownFrom s.root id := by
      obtain ⟨a, -, hfrom, hshows⟩ := hcome
      exact hfrom.tail hshows
    obtain ⟨n, hn⟩ := Option.isSome_iff_exists.1 (hwhole id hfrom)
    have hgoes : ¬d.page.failure.isSome = true := by
      rw [hd]
      exact Bool.false_ne_true
    rw [Scene.outlineNode, Scene.draftNode, if_neg hgoes]
    by_cases hmet : id ∈ met
    · obtain ⟨name, hname⟩ :=
        Scene.exists_sharedName (by simp [hn]) (hagrees.accounts.two_le hmet)
      have hdefined : id ∈ d.defined := (hagrees.defined id (by simp [hname])).2 hmet
      have hskip : Agrees s met pending d :=
        ⟨hagrees.accounts.skip, hagrees.defined, hagrees.opened⟩
      rw [if_pos (by simpa using hmet), if_pos (by simp [hname, hdefined])]
      exact ⟨_, met, _, rfl, rfl, .put hskip hs hd rfl⟩
    · have hnew : ¬((s.sharedNames.lookup id).isSome && d.defined.contains id) = true := by
        rw [Bool.and_eq_true, List.contains_iff_mem]
        rintro ⟨hname, hdefined⟩
        exact hmet ((hagrees.defined id hname).1 hdefined)
      rw [if_neg (by simpa using hmet), if_neg hnew, hn]
      dsimp only
      cases hreg : n.kind.isRegistered with
      | true =>
        -- the root has no place in files
        have hne : id ≠ s.root := by
          rintro rfl
          rw [Scene.kind?_of_node? hn, Option.some.injEq] at hroot
          rw [hroot] at hreg
          cases hreg
        obtain ⟨d', hdraft, hw⟩ := ih.enter hd hagrees hs hne hmet hn hreg hfrom hb depth
        exact ⟨_, _, d', rfl, hdraft, hw⟩
      | false => exact ⟨_, _, _, rfl, rfl, .refuse hd hs hcome hn hreg _ _ depth⟩

end Whole

end Vrml

namespace Scene

variable {s : Scene}

/-- **Writing ends**, whatever refers to whatever: neither the search for shared nodes nor the
descent goes deeper than there are nodes.  It opens each node once at most, and fails only at a node
without a place in files that is shown by the root or by a node opened before.  A node of a kind
that files do not know is one of the kind of the root: it is never opened, so that nothing counts
but what it refers to. -/
theorem exists_draft (hroot : s.kind? s.root = some .scene)
    (hwhole : ∀ a, s.ShownFrom s.root a → (s.node? a).isSome) :
    (∀ bound, s.size < bound → s.discover bound [] s.root = some (s.arrivals s.root)) ∧
    ∃ d, (∀ bound, s.size < bound → s.draft bound = some d) ∧ d.opened.Nodup ∧
      (∀ e, d.page.failure = some e → ∃ b k, d.ComesTo s b ∧ s.kind? b = some k ∧
        k.isRegistered = false ∧ e = .unsupportedNode k.typeName) ∧
      ∀ indent, (s.write indent).text = String.ofList (d.page.pieces.flatMap (·.render indent)) ∧
        (s.write indent).failure = d.page.failure := by
  have hagrees : Agrees s [] (s.children s.root ++ []) ⟨⟨[.text headerLine], none⟩, [], []⟩ :=
    ⟨accounts_children hroot, fun _ _ => Iff.rfl, fun _ hx => absurd hx List.not_mem_nil⟩
  obtain ⟨d, hlist, hw⟩ := (drafts_outlineNode hroot hwhole (s.size + 1)).list rfl hagrees
    ⟨List.nodup_nil, fun _ he => nomatch he⟩
    (fun a ha => ⟨s.root, .inl rfl, .refl, (shows_root_iff hroot).2 ha⟩) (by simp) 0
  have hdraft : ∀ bound, s.size < bound → s.draft bound = some d := by
    intro bound hb
    induction bound, hb using Nat.le_induction with
    | base =>
      rw [draft, discover_nil (Nat.lt_succ_self _)]
      exact hlist
    | succ bound _ ih => exact draft_succ ih
  have hpage := hw.page
  rw [foldl_write] at hpage
  refine ⟨fun _ => discover_nil, d, hdraft, hw.sound.nodup, hw.sound.failure, fun indent => ?_⟩
  rw [hpage]
  exact ⟨rfl, rfl⟩

/-- A scene whose root holds two groups: the first holds itself and the second, which holds the
root. -/
def loops : Scene :=
  ⟨#[(Node.create .scene none).setChildren [1, 2], (Node.create .group none).setChildren [1, 2],
    (Node.create .group none).setChildren [0]], 0⟩

theorem isSome_loops {a : NodeId} (h : loops.ShownFrom loops.root a) :
    (loops.node? a).isSome := by
  cases h with
  | refl => rfl
  | @tail b _ _ hab =>
    have href : a ∈ loops.refs b := hab.refers
    match b with
    | 0 => exact (show ∀ a ∈ [1, 2], (loops.node? a).isSome by decide) a href
    | 1 => exact (show ∀ a ∈ [1, 2], (loops.node? a).isSome by decide) a href
    | 2 => exact (show ∀ a ∈ [0], (loops.node? a).isSome by decide) a href
    | _ + 3 => exact absurd href List.not_mem_nil

theorem exists_draft_loops : loops.kind? loops.root = some .scene ∧
    (loops.write 2).failure = some (.unsupportedNode "Scene") ∧
    (∀ bound, loops.size < bound →
      loops.discover bound [] loops.root = some (loops.arrivals loops.root)) ∧
    ∃ d, (∀ bound, loops.size < bound → loops.draft bound = some d) ∧ d.opened.Nodup ∧
      (∀ e, d.page.failure = some e → ∃ b k, d.ComesTo loops b ∧ loops.kind? b = some k ∧
        k.isRegistered = false ∧ e = .unsupportedNode k.typeName) ∧
      ∀ indent,
        (loops.write indent).text = String.ofList (d.page.pieces.flatMap (·.render indent)) ∧
        (loops.write indent).failure = d.page.failure :=
  ⟨rfl, by decide +kernel, exists_draft rfl fun _ => isSome_loops⟩

end Scene

end SceneTidy
