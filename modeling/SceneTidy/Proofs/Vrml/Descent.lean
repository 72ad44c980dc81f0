import SceneTidy.Proofs.Vrml.Grammar
import SceneTidy.Proofs.Vrml.Reading

/-!
# What the reader accepts is in the grammar

A reader that succeeds passed over tokens (`Passed`); for each reader of the descent these are the
signs of the part of the grammar that it stands for.  Main statement: a statement that is read is a
statement of the grammar (`statement_sound`).
-/

namespace SceneTidy.Vrml

/-- Between two states of the reader it passed over tokens of some signs, and some names are known
afterwards. -/
structure Passed (st : ReadState) (ws : List Sign) (names : List String) (st' : ReadState) :
    Prop where
  tokens : ∃ ts, ts.map Token.sign = ws ∧ st.tokens = ts ++ st'.tokens
  names : st'.names = names

namespace Passed

variable {st st₁ st' : ReadState} {ws us : List Sign} {names names' : List String}

theorem refl (st : ReadState) : Passed st [] st.names st := ⟨⟨[], rfl, rfl⟩, rfl⟩

theorem trans (h : Passed st ws names st₁) (h' : Passed st₁ us names' st') :
    Passed st (ws ++ us) names' st' := by
  obtain ⟨ts, hts, he⟩ := h.tokens
  obtain ⟨ts', hts', he'⟩ := h'.tokens
  refine ⟨⟨ts ++ ts', ?_, ?_⟩, h'.names⟩
  · rw [List.map_append, hts, hts']
  · rw [he, he', List.append_assoc]

/-- One sign comes before the rest. -/
theorem cons {w : Sign} (h : Passed st [w] names st₁) (h' : Passed st₁ us names' st') :
    Passed st (w :: us) names' st' := h.trans h'

end Passed

namespace Reader

variable {α β : Type} {st st' : ReadState}

/-! ### One step -/

theorem bind_eq_ok {ε σ : Type} {st st' : σ} {r : EStateM ε σ α} {f : α → EStateM ε σ β} {b : β} :
    (r >>= f) st = .ok b st' ↔ ∃ a st₁, r st = .ok a st₁ ∧ f a st₁ = .ok b st' := by
  rw [bind_apply]
  cases r st with
  | ok a st₁ => simp
  | error e st₁ => simp

theorem pure_eq_ok {ε σ : Type} {st st' : σ} {a b : α} :
    (pure a : EStateM ε σ α) st = .ok b st' ↔ a = b ∧ st = st' := by
  show EStateM.Result.ok a st = _ ↔ _
  simp

theorem refuse_ne_ok {cause : Malformed} {a : α} : refuse cause st ≠ .ok a st' := nofun

theorem throw_ne_ok {e : SceneError} {a : α} : (throw e : Reader α) st ≠ .ok a st' := nofun

theorem peek_eq_ok {t : Token} :
    peek st = .ok t st' ↔ st = st' ∧ ∃ ts, st.tokens = t :: ts := by
  obtain ⟨tokens, names, notices⟩ := st
  cases tokens with
  | nil => simp [peek, bind_eq_ok, get_apply, refuse_ne_ok]
  | cons u us => simp [peek, bind_eq_ok, get_apply, pure_eq_ok, and_comm]

theorem passed_next {t : Token} (h : next st = .ok t st') : Passed st [t.sign] st.names st' := by
  obtain ⟨tokens, names, notices⟩ := st
  cases tokens with
  | nil => exact absurd h nofun
  | cons u us =>
    cases h
    exact ⟨⟨[t], rfl, rfl⟩, rfl⟩

/-- The token passed over is the one that was ahead. -/
theorem next_eq_of_peek {t u : Token} (hp : peek st = .ok t st) (h : next st = .ok u st') :
    u = t := by
  obtain ⟨-, ts, hts⟩ := peek_eq_ok.1 hp
  obtain ⟨us, hus, he⟩ := (passed_next h).tokens
  obtain ⟨tokens, names, notices⟩ := st
  cases tokens with
  | nil => cases hts
  | cons v vs =>
    cases h
    cases hts
    rfl

theorem passed_word {w : String} (h : word st = .ok w st') :
    Passed st [(.word, w)] st.names st' := by
  obtain ⟨t, st₁, hnext, h⟩ := bind_eq_ok.1 h
  split at h
  · next hk =>
    obtain ⟨rfl, rfl⟩ := pure_eq_ok.1 h
    rw [← hk]
    exact passed_next hnext
  · exact absurd h refuse_ne_ok

theorem passed_expectMark {c : Char} (h : expectMark c st = .ok () st') :
    Passed st [markSign c] st.names st' := by
  obtain ⟨t, st₁, hnext, h⟩ := bind_eq_ok.1 h
  split at h
  · next hc =>
    obtain ⟨-, rfl⟩ := pure_eq_ok.1 h
    rw [← isThisMark_iff.1 hc]
    exact passed_next hnext
  · exact absurd h refuse_ne_ok

/-- A mark that is ahead is passed over. -/
theorem passed_mark {t u : Token} {c : Char} (hp : peek st = .ok t st) (hc : t.isThisMark c)
    (h : next st = .ok u st') : Passed st [markSign c] st.names st' := by
  obtain rfl := next_eq_of_peek hp h
  rw [← isThisMark_iff.1 hc]
  exact passed_next h

theorem tell_eq_ok {n : Notice} (h : tell n st = .ok () st') : Passed st [] st.names st' := by
  cases h
  exact ⟨⟨[], rfl, rfl⟩, rfl⟩

theorem passed_skipRoute {t : Token} (hp : peek st = .ok t st) (hr : t.isThisWord "ROUTE")
    (h : skipRoute st = .ok () st') :
    ∃ source target, Passed st (routeSigns source target) st.names st' := by
  obtain ⟨u, st₁, hnext, h⟩ := bind_eq_ok.1 h
  obtain ⟨source, st₂, hsource, h⟩ := bind_eq_ok.1 h
  obtain ⟨link, st₃, hlink, h⟩ := bind_eq_ok.1 h
  split at h
  · next hto =>
    subst hto
    obtain ⟨target, st₄, htarget, h⟩ := bind_eq_ok.1 h
    obtain rfl := next_eq_of_peek hp hnext
    have hroute := passed_next hnext
    rw [isThisWord_iff.1 hr] at hroute
    have hall := hroute.cons ((passed_word hsource).cons ((passed_word hlink).cons
      ((passed_word htarget).cons (tell_eq_ok h))))
    refine ⟨source, target, hall.tokens, ?_⟩
    rw [hall.names, (passed_word htarget).names, (passed_word hlink).names,
      (passed_word hsource).names, hroute.names]
  · exact absurd h refuse_ne_ok

/-! ### Values -/

theorem passed_take {n : Nat} {ts : List Token} (h : take n st = .ok ts st') :
    ts.length = n ∧ Passed st (ts.map Token.sign) st.names st' := by
  induction n generalizing st ts with
  | zero =>
    obtain ⟨rfl, rfl⟩ := pure_eq_ok.1 h
    exact ⟨rfl, .refl st⟩
  | succ n ih =>
    obtain ⟨t, st₁, hnext, h⟩ := bind_eq_ok.1 h
    split at h
    · exact absurd h refuse_ne_ok
    · obtain ⟨us, st₂, htake, h⟩ := bind_eq_ok.1 h
      obtain ⟨rfl, rfl⟩ := pure_eq_ok.1 h
      obtain ⟨hlen, hpass⟩ := ih htake
      rw [(passed_next hnext).names] at hpass
      exact ⟨by simp [hlen], (passed_next hnext).cons hpass⟩

theorem passed_upToBracket {ts : List Token} (h : upToBracket st = .ok ts st') :
    Passed st (ts.map Token.sign ++ [markSign ']']) st.names st' := by
  rw [upToBracket, bind_apply, get_apply] at h
  simp only [List.span_eq_takeWhile_dropWhile] at h
  have hsplit := List.takeWhile_append_dropWhile (p := fun t => !t.isThisMark ']') (l := st.tokens)
  cases hrest : st.tokens.dropWhile fun t => !t.isThisMark ']' with
  | nil =>
    rw [hrest] at h
    cases h
  | cons t rest =>
    rw [hrest] at h hsplit
    cases h
    have hstop : t.isThisMark ']' = true := by
      have hne : st.tokens.dropWhile (fun t => !t.isThisMark ']') ≠ [] := by simp [hrest]
      have hhead := List.head_dropWhile_not (fun t : Token => !t.isThisMark ']') hne
      simpa [hrest] using hhead
    refine ⟨⟨st.tokens.takeWhile (fun t => !t.isThisMark ']') ++ [t], ?_, ?_⟩, rfl⟩
    · rw [List.map_append, List.map_singleton, isThisMark_iff.1 hstop]
    · simpa using hsplit.symm

theorem texts_eq_ok {kind : FieldKind} {ts : List Token} {parts : List String}
    (h : texts kind ts st = .ok parts st') :
    st = st' ∧
      ts.map Token.sign = parts.map fun p => (if kind.isText then .string else .word, p) := by
  induction ts generalizing parts st with
  | nil =>
    obtain ⟨rfl, rfl⟩ := pure_eq_ok.1 h
    exact ⟨rfl, rfl⟩
  | cons t ts ih =>
    by_cases hk : t.kind = if kind.isText then .string else .word
    · rw [texts, if_pos hk] at h
      obtain ⟨us, st₁, htexts, h⟩ := bind_eq_ok.1 h
      obtain ⟨rfl, rfl⟩ := pure_eq_ok.1 h
      obtain ⟨rfl, hmap⟩ := ih htexts
      refine ⟨rfl, ?_⟩
      rw [List.map_cons, List.map_cons, hmap, ← hk]
      rfl
    · rw [texts, if_neg hk] at h
      exact absurd h refuse_ne_ok

theorem decode_eq_ok {kind : FieldKind} {ts : List Token} {v : FieldValue}
    (h : decode kind ts st = .ok v st') : st = st' ∧ Decodes kind (ts.map Token.sign) v := by
  obtain ⟨parts, st₁, htexts, h⟩ := bind_eq_ok.1 h
  obtain ⟨rfl, hmap⟩ := texts_eq_ok htexts
  cases hread : kind.read parts with
  | ok w =>
    rw [hread] at h
    obtain ⟨rfl, rfl⟩ := pure_eq_ok.1 h
    exact ⟨rfl, parts, hmap, hread⟩
  | error e =>
    rw [hread] at h
    exact absurd h throw_ne_ok

theorem passed_take_decode {n : Nat} {kind : FieldKind} {v : FieldValue}
    (h : (take n >>= decode kind) st = .ok v st') :
    ∃ ws, ws.length = n ∧ Decodes kind ws v ∧ Passed st ws st.names st' := by
  obtain ⟨ts, st₁, htake, h⟩ := bind_eq_ok.1 h
  obtain ⟨rfl, hdec⟩ := decode_eq_ok h
  obtain ⟨hlen, hpass⟩ := passed_take htake
  exact ⟨_, by simp [hlen], hdec, hpass⟩

theorem passed_plainValue {kind : FieldKind} (hk : kind ≠ .node ∧ kind ≠ .nodes) {v : FieldValue}
    (h : plainValue kind st = .ok v st') :
    ∃ ws, IsPlainValue kind ws v ∧ Passed st ws st.names st' := by
  cases kind with
  | node => exact absurd rfl hk.1
  | nodes => exact absurd rfl hk.2
  | one k =>
    obtain ⟨t, st₁, hpeek, h⟩ := bind_eq_ok.1 h
    obtain ⟨rfl, -⟩ := peek_eq_ok.1 hpeek
    obtain ⟨ws, hlen, hdec, hpass⟩ := passed_take_decode h
    exact ⟨ws, .one hlen hdec, hpass⟩
  | many k =>
    obtain ⟨t, st₁, hpeek, h⟩ := bind_eq_ok.1 h
    obtain ⟨rfl, -⟩ := peek_eq_ok.1 hpeek
    by_cases hb : t.isThisMark '['
    · rw [if_pos (by simpa [FieldKind.isList] using hb)] at h
      obtain ⟨u, st₂, hnext, h⟩ := bind_eq_ok.1 h
      obtain ⟨ts, st₃, hup, h⟩ := bind_eq_ok.1 h
      obtain ⟨rfl, hdec⟩ := decode_eq_ok h
      have hopen := passed_mark hpeek hb hnext
      have hpass := hopen.cons (passed_upToBracket hup)
      rw [hopen.names] at hpass
      exact ⟨_, .list hdec, hpass⟩
    · rw [if_neg (by simpa [FieldKind.isList] using hb)] at h
      obtain ⟨ws, hlen, hdec, hpass⟩ := passed_take_decode h
      exact ⟨ws, .item hlen hdec, hpass⟩

/-! ### The start of a node -/

theorem nodeKind_eq_ok {type : String} {kind : NodeKind} (h : nodeKind type st = .ok kind st') :
    NodeKind.ofTypeName? type = some kind ∧ st = st' := by
  unfold nodeKind at h
  cases hk : NodeKind.ofTypeName? type with
  | none =>
    rw [hk] at h
    exact absurd h throw_ne_ok
  | some k =>
    rw [hk] at h
    obtain ⟨rfl, rfl⟩ := pure_eq_ok.1 h
    exact ⟨rfl, rfl⟩

/-- What the start of a written node says, once it has been passed over. -/
def HeadPassed (st : ReadState) : Head → ReadState → Prop
  | .null, st' => Passed st [(.word, "NULL")] st.names st'
  | .use name, st' => name ∈ st.names ∧ Passed st [(.word, "USE"), (.word, name)] st.names st'
  | .opens name kind, st' => ∃ type, NodeKind.ofTypeName? type = some kind ∧
      Passed st (definitionSigns name ++ [(.word, type), markSign '{']) (name.toList ++ st.names)
        st'

theorem headPassed {start : Head} (h : head st = .ok start st') : HeadPassed st start st' := by
  obtain ⟨first, st₁, hfirst, h⟩ := bind_eq_ok.1 h
  have hpass := passed_word hfirst
  by_cases hnull : first = "NULL"
  · subst hnull
    rw [if_pos rfl] at h
    obtain ⟨rfl, rfl⟩ := pure_eq_ok.1 h
    exact hpass
  rw [if_neg hnull] at h
  by_cases huse : first = "USE"
  · subst huse
    rw [if_pos rfl] at h
    obtain ⟨name, st₂, hname, h⟩ := bind_eq_ok.1 h
    obtain ⟨st₃, st₄, hget, h⟩ := bind_eq_ok.1 h
    cases hget
    have hword := passed_word hname
    rw [hpass.names] at hword
    split at h
    · next hc =>
      obtain ⟨rfl, rfl⟩ := pure_eq_ok.1 h
      refine ⟨?_, hpass.cons hword⟩
      rw [← hword.names]
      simpa using hc
    · exact absurd h throw_ne_ok
  rw [if_neg huse] at h
  by_cases hdef : first = "DEF"
  · subst hdef
    rw [if_pos rfl] at h
    obtain ⟨name, st₂, hname, h⟩ := bind_eq_ok.1 h
    obtain ⟨type, st₃, htype, h⟩ := bind_eq_ok.1 h
    obtain ⟨kind, st₄, hkind, h⟩ := bind_eq_ok.1 h
    obtain ⟨hk, rfl⟩ := nodeKind_eq_ok hkind
    obtain ⟨_, st₅, hmodify, h⟩ := bind_eq_ok.1 h
    obtain ⟨_, st₆, hmark, h⟩ := bind_eq_ok.1 h
    obtain ⟨rfl, rfl⟩ := pure_eq_ok.1 h
    have hmodified : Passed st₃ [] (name :: st₃.names) st₅ := by
      cases hmodify
      exact ⟨⟨[], rfl, rfl⟩, rfl⟩
    have hwords := (hpass.cons (passed_word hname)).trans (passed_word htype)
    have hall := hwords.trans (hmodified.trans (passed_expectMark hmark))
    refine ⟨type, hk, hall.tokens, ?_⟩
    rw [hall.names, hmodified.names, hwords.names, (passed_word hname).names, hpass.names]
    rfl
  · rw [if_neg hdef] at h
    obtain ⟨kind, st₂, hkind, h⟩ := bind_eq_ok.1 h
    obtain ⟨hk, rfl⟩ := nodeKind_eq_ok hkind
    obtain ⟨_, st₃, hmark, h⟩ := bind_eq_ok.1 h
    obtain ⟨rfl, rfl⟩ := pure_eq_ok.1 h
    have hall := hpass.cons (passed_expectMark hmark)
    refine ⟨first, hk, hall.tokens, ?_⟩
    rw [hall.names, hpass.names]
    rfl

theorem passed_fieldName {kind : NodeKind} {d : FieldDecl} (h : fieldName kind st = .ok d st') :
    kind.field? d.name = some d ∧ Passed st [(.word, d.name)] st.names st' := by
  obtain ⟨t, st₁, hnext, h⟩ := bind_eq_ok.1 h
  by_cases hk : t.kind = .word
  · rw [if_pos hk] at h
    cases hf : kind.field? t.text with
    | none =>
      rw [hf] at h
      exact absurd h refuse_ne_ok
    | some e =>
      rw [hf] at h
      obtain ⟨rfl, rfl⟩ := pure_eq_ok.1 h
      have hname : e.name = t.text := by simpa using List.find?_some hf
      have hsign : t.sign = (.word, e.name) := Prod.ext hk hname.symm
      refine ⟨by rw [hname, hf], ?_⟩
      rw [← hsign]
      exact passed_next hnext
  · rw [if_neg hk] at h
    exact absurd h refuse_ne_ok

/-! ### Nodes, bodies and lists -/

/-- A body that starts with the node that a field refers to. -/
def startNode (field : String) : Option (Block Unit) → Body Unit → Body Unit
  | none, rest => .value field (.node none) rest
  | some b, rest => .single field b rest

/-- A body that starts with the list of one node at most that a field refers to. -/
def startNodes (field : String) : Option (Block Unit) → Body Unit → Body Unit
  | none, rest => .list field .nil rest
  | some b, rest => .list field (.cons b .nil) rest

/-- Read the value of a field, with which the body starts. -/
def fieldValue (fuel : Nat) (d : FieldDecl) : Reader (Body Unit → Body Unit) :=
  match d.kind with
  | .node => return startNode d.name (← block fuel)
  | .nodes => do
    if (← peek).isThisMark '[' then
      let _ ← next
      return .list d.name (← blocks fuel)
    else return startNodes d.name (← block fuel)
  | plain => return .value d.name (← plainValue plain)

/-- The fields are read one by one: a route is dropped, and a value comes before the rest. -/
theorem fields_succ (fuel : Nat) (kind : NodeKind) : fields (fuel + 1) kind = (do
    let ahead ← peek
    if ahead.isThisMark '}' then
      let _ ← next
      return .done
    else if ahead.isThisWord "ROUTE" then
      skipRoute
      fields fuel kind
    else
      let d ← fieldName kind
      let first ← fieldValue fuel d
      return first (← fields fuel kind)) := by
  rw [fields]
  refine bind_congr fun ahead => ?_
  congr 1
  congr 1
  refine bind_congr fun d => ?_
  unfold fieldValue
  cases d.kind with
  | one k => simp
  | many k => simp
  | node =>
    simp only [bind_assoc, pure_bind]
    refine bind_congr fun b => ?_
    cases b <;> rfl
  | nodes =>
    simp only [bind_assoc]
    refine bind_congr fun t => ?_
    split
    · simp
    · simp only [bind_assoc, pure_bind]
      refine bind_congr fun b => ?_
      cases b <;> rfl

/-- Reading a node within a bound passes over the signs of a node. -/
def BlockSound (base : NodeId) (fuel : Nat) : Prop :=
  ∀ {st b st' opened}, block fuel st = .ok b st' → st.names = known opened →
    ∃ ws target made, IsNode base opened ws target made ∧
      Passed st ws (known (opened ++ made.map Made.name)) st'

/-- Reading fields within a bound passes over the signs of items and a closing brace. -/
def FieldsSound (base : NodeId) (fuel : Nat) : Prop :=
  ∀ {kind st body st' opened}, fields fuel kind st = .ok body st' → st.names = known opened →
    ∃ ws given made, IsItems base kind opened ws given made ∧
      Passed st (ws ++ [markSign '}']) (known (opened ++ made.map Made.name)) st'

/-- Reading a list of nodes within a bound passes over the signs of statements and a closing
bracket. -/
def BlocksSound (base : NodeId) (fuel : Nat) : Prop :=
  ∀ {st bs st' opened}, blocks fuel st = .ok bs st' → st.names = known opened →
    ∃ ws targets made, IsStatements base opened ws targets made ∧
      Passed st (ws ++ [markSign ']']) (known (opened ++ made.map Made.name)) st'

variable {base : NodeId} {fuel : Nat} {opened : List (Option String)}

theorem blockSound_succ (hf : FieldsSound base fuel) : BlockSound base (fuel + 1) := by
  intro st b st' opened h hnames
  rw [block] at h
  obtain ⟨start, st₁, hhead, h⟩ := bind_eq_ok.1 h
  have hpass := headPassed hhead
  cases start with
  | null =>
    obtain ⟨rfl, rfl⟩ := pure_eq_ok.1 h
    refine ⟨_, _, _, .null, ?_⟩
    have hnull : Passed st [(.word, "NULL")] st.names st₁ := hpass
    simpa [← hnames] using hnull
  | use name =>
    obtain ⟨rfl, rfl⟩ := pure_eq_ok.1 h
    obtain ⟨hknown, hpass⟩ := hpass
    obtain ⟨k, hk⟩ := exists_standsFor (hnames ▸ hknown)
    refine ⟨_, _, _, .use hk, ?_⟩
    simpa [← hnames] using hpass
  | opens name kind =>
    obtain ⟨type, hk, hpass⟩ := hpass
    obtain ⟨body, st₂, hbody, h⟩ := bind_eq_ok.1 h
    obtain ⟨rfl, rfl⟩ := pure_eq_ok.1 h
    -- the name of a node is known inside of its body
    have hopen : st₁.names = known (opened ++ [name]) := by
      rw [hpass.names, hnames, known_concat]
    obtain ⟨ws, given, made, hitems, hrest⟩ := hf hbody hopen
    refine ⟨_, _, _, .body hk hitems, ?_⟩
    have hall := hpass.trans hrest
    simpa using hall

theorem fieldValue_sound (hb : BlockSound base fuel) (hbs : BlocksSound base fuel) {d : FieldDecl}
    {first : Body Unit → Body Unit} (h : fieldValue fuel d st = .ok first st')
    (hnames : st.names = known opened) :
    ∃ ws v made, IsValue base d.kind opened ws v made ∧
      Passed st ws (known (opened ++ made.map Made.name)) st' := by
  have hplain : ∀ kind : FieldKind, kind ≠ .node ∧ kind ≠ .nodes →
      (do return Body.value d.name (← plainValue kind) : Reader _) st = .ok first st' →
      ∃ ws v made, IsValue base kind opened ws v made ∧
        Passed st ws (known (opened ++ made.map Made.name)) st' := by
    intro kind hk h
    obtain ⟨v, st₁, hvalue, h⟩ := bind_eq_ok.1 h
    obtain ⟨-, rfl⟩ := pure_eq_ok.1 h
    obtain ⟨ws, hws, hpass⟩ := passed_plainValue hk hvalue
    refine ⟨ws, v, [], .plain hws, ?_⟩
    simpa [← hnames] using hpass
  unfold fieldValue at h
  cases hk : d.kind with
  | one k =>
    rw [hk] at h
    exact hplain (.one k) ⟨nofun, nofun⟩ h
  | many k =>
    rw [hk] at h
    exact hplain (.many k) ⟨nofun, nofun⟩ h
  | node =>
    rw [hk] at h
    obtain ⟨b, st₁, hblock, h⟩ := bind_eq_ok.1 h
    obtain ⟨-, rfl⟩ := pure_eq_ok.1 h
    obtain ⟨ws, target, made, hnode, hpass⟩ := hb hblock hnames
    exact ⟨ws, _, made, .node hnode, hpass⟩
  | nodes =>
    rw [hk] at h
    obtain ⟨t, st₁, hpeek, h⟩ := bind_eq_ok.1 h
    obtain ⟨rfl, -⟩ := peek_eq_ok.1 hpeek
    split at h
    · next hbracket =>
      obtain ⟨u, st₂, hnext, h⟩ := bind_eq_ok.1 h
      obtain ⟨bs, st₃, hblocks, h⟩ := bind_eq_ok.1 h
      obtain ⟨-, rfl⟩ := pure_eq_ok.1 h
      have hopen := passed_mark hpeek hbracket hnext
      obtain ⟨ws, targets, made, hlist, hpass⟩ := hbs hblocks (hopen.names.trans hnames)
      exact ⟨_, _, made, .list hlist, hopen.cons hpass⟩
    · obtain ⟨b, st₂, hblock, h⟩ := bind_eq_ok.1 h
      obtain ⟨-, rfl⟩ := pure_eq_ok.1 h
      obtain ⟨ws, target, made, hnode, hpass⟩ := hb hblock hnames
      exact ⟨ws, _, made, .nodes hnode, hpass⟩

theorem fieldsSound_succ (hb : BlockSound base fuel) (hf : FieldsSound base fuel)
    (hbs : BlocksSound base fuel) : FieldsSound base (fuel + 1) := by
  intro kind st body st' opened h hnames
  rw [fields_succ] at h
  obtain ⟨t, st₁, hpeek, h⟩ := bind_eq_ok.1 h
  obtain ⟨rfl, -⟩ := peek_eq_ok.1 hpeek
  by_cases hstop : t.isThisMark '}'
  · rw [if_pos hstop] at h
    obtain ⟨u, st₂, hnext, h⟩ := bind_eq_ok.1 h
    obtain ⟨-, rfl⟩ := pure_eq_ok.1 h
    refine ⟨[], [], [], .nil, ?_⟩
    simpa [← hnames] using passed_mark hpeek hstop hnext
  rw [if_neg hstop] at h
  by_cases hroute : t.isThisWord "ROUTE"
  · rw [if_pos hroute] at h
    obtain ⟨_, st₂, hskip, h⟩ := bind_eq_ok.1 h
    obtain ⟨source, target, hpass⟩ := passed_skipRoute hpeek hroute hskip
    obtain ⟨ws, given, made, hitems, hrest⟩ := hf h (hpass.names.trans hnames)
    refine ⟨routeSigns source target ++ ws, given, made, .route hitems, ?_⟩
    rw [List.append_assoc]
    exact hpass.trans hrest
  · rw [if_neg hroute] at h
    obtain ⟨d, st₂, hfield, h⟩ := bind_eq_ok.1 h
    obtain ⟨first, st₃, hvalue, h⟩ := bind_eq_ok.1 h
    obtain ⟨rest, st₄, hrest, h⟩ := bind_eq_ok.1 h
    obtain ⟨-, rfl⟩ := pure_eq_ok.1 h
    obtain ⟨hd, hname⟩ := passed_fieldName hfield
    obtain ⟨us, v, made, hv, hpass⟩ := fieldValue_sound hb hbs hvalue (hname.names.trans hnames)
    obtain ⟨ws, given, more, hitems, hpass'⟩ := hf hrest hpass.names
    refine ⟨_, _, _, .field hd hv hitems, ?_⟩
    have hall := hname.cons (hpass.trans hpass')
    simpa using hall

theorem blocksSound_succ (hb : BlockSound base fuel) (hbs : BlocksSound base fuel) :
    BlocksSound base (fuel + 1) := by
  intro st bs st' opened h hnames
  rw [blocks] at h
  obtain ⟨t, st₁, hpeek, h⟩ := bind_eq_ok.1 h
  obtain ⟨rfl, -⟩ := peek_eq_ok.1 hpeek
  by_cases hstop : t.isThisMark ']'
  · rw [if_pos hstop] at h
    obtain ⟨u, st₂, hnext, h⟩ := bind_eq_ok.1 h
    obtain ⟨-, rfl⟩ := pure_eq_ok.1 h
    refine ⟨[], [], [], .nil, ?_⟩
    simpa [← hnames] using passed_mark hpeek hstop hnext
  rw [if_neg hstop] at h
  by_cases hroute : t.isThisWord "ROUTE"
  · rw [if_pos hroute] at h
    obtain ⟨_, st₂, hskip, h⟩ := bind_eq_ok.1 h
    obtain ⟨source, target, hpass⟩ := passed_skipRoute hpeek hroute hskip
    obtain ⟨ws, targets, made, hlist, hrest⟩ := hbs h (hpass.names.trans hnames)
    refine ⟨routeSigns source target ++ ws, targets, made, .route hlist, ?_⟩
    rw [List.append_assoc]
    exact hpass.trans hrest
  rw [if_neg hroute] at h
  split at h
  · exact absurd h throw_ne_ok
  · obtain ⟨b, st₂, hblock, h⟩ := bind_eq_ok.1 h
    obtain ⟨us, target, made, hnode, hpass⟩ := hb hblock hnames
    obtain ⟨bs', hrest⟩ : ∃ bs', blocks fuel st₂ = .ok bs' st' := by
      cases b with
      | none => exact ⟨_, h⟩
      | some b =>
        obtain ⟨bs', st₃, hblocks, h⟩ := bind_eq_ok.1 h
        obtain ⟨-, rfl⟩ := pure_eq_ok.1 h
        exact ⟨bs', hblocks⟩
    obtain ⟨ws, targets, more, hlist, hpass'⟩ := hbs hrest hpass.names
    refine ⟨_, _, _, .node hnode hlist, ?_⟩
    have hall := hpass.trans hpass'
    simpa using hall

/-- The three readers of the descent pass over what the grammar says, whatever bounds them. -/
theorem sound (base : NodeId) (fuel : Nat) :
    BlockSound base fuel ∧ FieldsSound base fuel ∧ BlocksSound base fuel := by
  induction fuel with
  | zero =>
    refine ⟨fun h => ?_, fun h => ?_, fun h => ?_⟩
    · rw [block] at h
      exact absurd h refuse_ne_ok
    · rw [fields] at h
      exact absurd h refuse_ne_ok
    · rw [blocks] at h
      exact absurd h refuse_ne_ok
  | succ fuel ih =>
    obtain ⟨hb, hf, hbs⟩ := ih
    exact ⟨blockSound_succ hf, fieldsSound_succ hb hf hbs, blocksSound_succ hb hbs⟩

/-- A statement that is read passes over the signs of one. -/
theorem statement_sound (base : NodeId) {b : Option (Block Unit)}
    (h : statement fuel st = .ok b st') (hnames : st.names = known opened) :
    ∃ ws target made, IsStatement base opened ws target made ∧
      Passed st ws (known (opened ++ made.map Made.name)) st' := by
  obtain ⟨t, st₁, hpeek, h⟩ := bind_eq_ok.1 h
  obtain ⟨rfl, -⟩ := peek_eq_ok.1 hpeek
  split at h
  · next hroute =>
    obtain ⟨_, st₂, hskip, h⟩ := bind_eq_ok.1 h
    obtain ⟨-, rfl⟩ := pure_eq_ok.1 h
    obtain ⟨source, target, hpass⟩ := passed_skipRoute hpeek hroute hskip
    refine ⟨routeSigns source target, none, [], .route, ?_⟩
    simpa [← hnames] using hpass
  · split at h
    · exact absurd h throw_ne_ok
    · obtain ⟨ws, target, made, hnode, hpass⟩ := (sound base fuel).1 h hnames
      exact ⟨ws, target, made, .node hnode, hpass⟩

end SceneTidy.Vrml.Reader
