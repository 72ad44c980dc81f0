import SceneTidy.Proofs.Vrml.RoundTrip

/-!
# Indentation

Only the margins of a file depend on the indent, and they hold neither tokens nor line ends.  All
other text of a file is cut into tokens whatever stands around it.  So each piece of an outline is
cut into the same tokens for every indent (`Piece.IsSteady`), and this goes over to rows of pieces,
also where the writing stops at one of them.  Main statement: the texts of a scene for two indents
have the same tokens on the same lines (`Scene.tokenize_write`).
-/

namespace SceneTidy

open Vrml

namespace Vrml

/-! ### Texts cut at any place -/

/-- A text of some lines is cut into tokens that depend on the line it starts on, whatever follows
it. -/
def IsCut (s : List Char) (ts : Nat → List Token) (lines : Nat) : Prop :=
  ∀ line rest, tokenizeFrom line (s ++ rest) =
    (tokenizeFrom (line + lines) rest).prepend (ts line)

theorem IsCut.nil : IsCut [] (fun _ => []) 0 := fun _ _ => rfl

theorem IsCut.append {s t : List Char} {ts us : Nat → List Token} {m n : Nat} (hs : IsCut s ts m)
    (ht : IsCut t us n) : IsCut (s ++ t) (fun line => ts line ++ us (line + m)) (m + n) := by
  intro line rest
  rw [List.append_assoc, hs, ht, Tokens.prepend_prepend, Nat.add_assoc]

theorem isCut_blanks (n : Nat) : IsCut (List.replicate n ' ') (fun _ => []) 0 := by
  intro line rest
  have hline : (List.replicate n ' ').count '\n' = 0 :=
    List.count_eq_zero_of_not_mem fun h => absurd (List.eq_of_mem_replicate h) (by decide)
  rw [(spells_blanks n).tokenizeFrom_append, hline]
  rfl

theorem IsCut.tokenize_eq {s : List Char} {ts : Nat → List Token} {lines : Nat}
    (h : IsCut s ts lines) : tokenize (String.ofList s) = ⟨ts 1, none⟩ := by
  have hall := h 1 []
  rw [List.append_nil, tokenizeFrom_nil, Tokens.prepend, List.append_nil] at hall
  rw [tokenize, String.toList_ofList, hall]

/-! ### Pieces -/

/-- A piece is cut into the same tokens for every indent. -/
def Piece.IsSteady (p : Piece) : Prop :=
  ∃ (ts : Nat → List Token) (lines : Nat), ∀ indent, IsCut (p.render indent) ts lines

theorem isSteady_text {s : List Char} {ws : List Sign} (h : Spells s ws) :
    (Piece.text s).IsSteady := by
  obtain ⟨ts, -, hcut⟩ := h
  exact ⟨ts, s.count '\n', fun _ => hcut⟩

theorem isSteady_margin (depth : Nat) : (Piece.margin depth).IsSteady :=
  ⟨fun _ => [], 0, fun indent => isCut_blanks (indent * depth)⟩

/-- A piece without text. -/
theorem isSteady_of_render_eq_nil {p : Piece} (h : ∀ indent, p.render indent = []) :
    p.IsSteady :=
  ⟨fun _ => [], 0, fun indent => (h indent).symm ▸ .nil⟩

theorem exists_isCut_renderRow {ps : List Piece} (h : ∀ p ∈ ps, p.IsSteady) :
    ∃ (ts : Nat → List Token) (lines : Nat), ∀ indent, IsCut (renderRow indent ps) ts lines := by
  induction ps with
  | nil => exact ⟨_, _, fun _ => .nil⟩
  | cons p ps ih =>
    obtain ⟨⟨ts, m, hp⟩, hps⟩ := List.forall_mem_cons.1 h
    obtain ⟨us, n, hrow⟩ := ih hps
    exact ⟨_, _, fun indent => (hp indent).append (hrow indent)⟩

theorem isSteady_line {s : List Char} {ws : List Sign} (h : Spells (s ++ ['\n']) ws)
    (depth : Nat) : ∀ p ∈ Piece.line depth s, p.IsSteady :=
  List.forall_mem_cons.2 ⟨isSteady_margin depth, List.forall_mem_singleton.2 (isSteady_text h)⟩

theorem isSteady_closing {c : Char} (h : isMark c) (depth : Nat) :
    ∀ p ∈ Piece.line depth [c], p.IsSteady :=
  isSteady_line (s := [c]) (spells_mark_line h) depth

theorem isSteady_value {field : String} (hf : IsWord field.toList) (v : FieldValue)
    (depth : Nat) : ∀ p ∈ valuePieces depth field v, p.IsSteady := by
  have hopening := isSteady_line (spells_list_field hf) depth
  have hclosing := isSteady_closing (c := ']') rfl depth
  cases v with
  | one k v => exact isSteady_line (spells_item_field hf k v) depth
  | many k vs =>
    refine List.forall_mem_append.2 ⟨List.forall_mem_append.2 ⟨hopening, fun p hp => ?_⟩, hclosing⟩
    obtain ⟨v, -, hp⟩ := List.mem_flatMap.1 hp
    exact isSteady_line (spells_item k v) (depth + 1) p hp
  | node t =>
    have hnull : Spells (field.toList ++ " NULL".toList ++ ['\n'])
        [(.word, field), (.word, "NULL")] := by
      rw [List.append_assoc]
      exact spells_keyword field "NULL" hf (by decide) (c := '\n') (by decide)
    exact isSteady_line hnull depth
  | nodes ts => exact List.forall_mem_append.2 ⟨hopening, hclosing⟩

/-- A node that is used again has a name that is a word, or none. -/
theorem isSteady_use {name : String} (h : IsWord name.toList ∨ name = "") (depth : Nat) :
    ∀ p ∈ (Block.use (α := NodeId) name).pieces depth, p.IsSteady := by
  refine List.forall_mem_singleton.2 ?_
  rcases h with h | rfl
  · exact isSteady_text (spells_keyword "USE" name (by decide) h (c := '\n') (by decide))
  · have huse := spells_word (w := ['U', 'S', 'E']) (by decide) (c := ' ') (by decide)
    exact isSteady_text (huse.append (spells_separator (c := '\n') (by decide)))

theorem isSteady_definition {name : Option String} (h : ∀ n ∈ name, IsWord n.toList) :
    ∀ p ∈ definition name, p.IsSteady := by
  cases name with
  | none => exact fun p hp => absurd hp List.not_mem_nil
  | some n =>
    have hdef := spells_keyword "DEF" n (by decide) (h n rfl) (c := ' ') (by decide)
    exact List.forall_mem_singleton.2 (isSteady_text hdef)

/-! ### Outlines -/

variable {meet : Meeting}

/-- The blocks of a meeting have steady pieces, from every depth. -/
def IsSteadyMeeting (meet : Meeting) : Prop :=
  ∀ id met depth, ∀ b ∈ (meet id met).1, ∀ p ∈ b.pieces depth, p.IsSteady

theorem IsSteadyMeeting.list (h : IsSteadyMeeting meet) (ids met : List NodeId) (depth : Nat) :
    ∀ p ∈ (outlineList meet ids met).1.pieces depth, p.IsSteady := by
  induction ids generalizing met with
  | nil => exact fun p hp => absurd hp List.not_mem_nil
  | cons id ids ih =>
    have hmeet := h id met depth
    rw [outlineList]
    generalize meet id met = first at hmeet ⊢
    obtain ⟨b, met'⟩ := first
    cases b with
    | none => exact ih met'
    | some b =>
      exact List.forall_mem_append.2 ⟨List.forall_mem_cons.2 ⟨isSteady_margin depth, hmeet b rfl⟩,
        ih met'⟩

theorem IsSteadyMeeting.body (h : IsSteadyMeeting meet) {l : List (String × FieldValue)}
    (hl : ∀ p ∈ l, IsWord p.1.toList) (met : List NodeId) (depth : Nat) :
    ∀ p ∈ (outlineBody meet l met).1.pieces depth, p.IsSteady := by
  induction l generalizing met with
  | nil => exact fun p hp => absurd hp List.not_mem_nil
  | cons p l ih =>
    obtain ⟨field, v⟩ := p
    obtain ⟨hf, hrest⟩ := List.forall_mem_cons.1 hl
    have hnext := fun met' => ih hrest met'
    cases v with
    | one k x => exact List.forall_mem_append.2 ⟨isSteady_value hf _ depth, hnext met⟩
    | many k xs => exact List.forall_mem_append.2 ⟨isSteady_value hf _ depth, hnext met⟩
    | node t =>
      cases t with
      | none => exact List.forall_mem_append.2 ⟨isSteady_value hf _ depth, hnext met⟩
      | some id =>
        have hmeet := h id met depth
        simp only [outlineBody]
        generalize meet id met = first at hmeet ⊢
        obtain ⟨b, met'⟩ := first
        cases b with
        | none => exact List.forall_mem_append.2 ⟨isSteady_value hf (.node none) depth, hnext met'⟩
        | some b =>
          have hname := isSteady_text (spells_word hf (c := ' ') (by decide))
          exact List.forall_mem_append.2 ⟨List.forall_mem_cons.2 ⟨isSteady_margin depth,
            List.forall_mem_cons.2 ⟨hname, hmeet b rfl⟩⟩, hnext met'⟩
    | nodes ids =>
      have hopening := isSteady_line (spells_list_field hf) depth
      have hclosing := isSteady_closing (c := ']') rfl depth
      have hblocks := h.list ids met (depth + 1)
      exact List.forall_mem_append.2 ⟨List.forall_mem_append.2 ⟨List.forall_mem_append.2
        ⟨hopening, hblocks⟩, hclosing⟩, hnext _⟩

theorem isWord_of_mem_written {n : Node} {p : String × FieldValue} (h : p ∈ n.written) :
    IsWord p.1.toList := by
  obtain ⟨d, hd, hname, -⟩ := Node.mem_written_iff.1 h
  exact hname ▸ isWord_fields n.kind d (Node.mem_fields_of_mem_slots hd)

/-- **Every block of an outline has steady pieces**, if the names of the nodes are words. -/
theorem isSteadyMeeting_outlineNode (s : Scene) {names : List (NodeId × String)}
    (hnames : ∀ id name, names.lookup id = some name → IsWord name.toList) (bound : Nat) :
    IsSteadyMeeting (s.outlineNode names bound) := by
  induction bound with
  | zero => exact fun _ _ _ b hb => absurd hb (Option.not_mem_none b)
  | succ bound ih =>
    intro id met depth b hb
    rw [Scene.outlineNode] at hb
    by_cases hmet : met.contains id
    · rw [if_pos hmet] at hb
      obtain rfl := Option.some.inj hb
      refine isSteady_use ?_ depth
      cases hname : names.lookup id with
      | none => exact .inr rfl
      | some name => exact .inl (hnames id name hname)
    · rw [if_neg hmet] at hb
      cases hn : s.node? id with
      | none =>
        rw [hn] at hb
        exact absurd hb (Option.not_mem_none b)
      | some n =>
        rw [hn] at hb
        obtain rfl := Option.some.inj hb
        have hstart : ∀ p ∈ .begins id :: definition (names.lookup id), p.IsSteady :=
          List.forall_mem_cons.2 ⟨isSteady_of_render_eq_nil fun _ => rfl,
            isSteady_definition fun name hname => hnames id name hname⟩
        rw [Block.pieces]
        refine List.forall_mem_append.2 ⟨hstart, ?_⟩
        by_cases hk : n.kind.isRegistered = true
        · rw [if_pos hk, if_pos hk]
          have hclosing := isSteady_closing (c := '}') rfl depth
          have hbody := ih.body (fun p hp => isWord_of_mem_written (n := n) hp) (id :: met)
            (depth + 1)
          exact List.forall_mem_append.2 ⟨List.forall_mem_append.2 ⟨List.forall_mem_cons.2
            ⟨isSteady_text (spells_type n.kind), hbody⟩, hclosing⟩,
            List.forall_mem_singleton.2 (isSteady_of_render_eq_nil fun _ => rfl)⟩
        · rw [if_neg hk]
          exact List.forall_mem_singleton.2 (isSteady_of_render_eq_nil fun _ => rfl)

end Vrml

namespace Scene

theorem isSteady_filePieces (s : Scene) : ∀ p ∈ filePieces s.outline, p.IsSteady :=
  List.forall_mem_cons.2 ⟨isSteady_text spells_headerLine,
    (isSteadyMeeting_outlineNode s (fun _ _ hname => isWord_of_lookup hname) (s.size + 1)).list
      (s.children s.root) [] 0⟩

/-- **Indentation is only layout**: the writing of a scene stops or not for every indent alike, and
what is written is cut into the same tokens, on the same lines. -/
theorem tokenize_write (s : Scene) (i j : Nat) :
    (s.write i).failure = (s.write j).failure ∧
    tokenize (s.write i).text = tokenize (s.write j).text ∧
    (tokenize (s.write i).text).openString = none := by
  have hwritten : ∀ p ∈ (filePieces s.outline).takeWhile (!·.isRefused), p.IsSteady :=
    fun p hp => s.isSteady_filePieces p ((List.takeWhile_subset _) hp)
  obtain ⟨ts, lines, hcut⟩ := exists_isCut_renderRow hwritten
  have htokens : ∀ indent, tokenize (s.write indent).text = ⟨ts 1, none⟩ :=
    fun indent => (hcut indent).tokenize_eq
  exact ⟨rfl, (htokens i).trans (htokens j).symm, congrArg Tokens.openString (htokens i)⟩

end Scene

end SceneTidy
