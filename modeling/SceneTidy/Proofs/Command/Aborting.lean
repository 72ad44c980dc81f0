import SceneTidy.Command.Run
import SceneTidy.Proofs.Command.Files
import SceneTidy.Proofs.Pipeline
import SceneTidy.Proofs.Text.Utf8

/-!
# Runs that end with an error

What is told goes to the log file, and what is written to the output.  So a run whose log file is
not the input leaves the input as it was until it opens the output, and an error comes after that
only if the plan fails: a scene that was read and changed can be written.  If the output leads to
the input then nothing is in the way of opening it.  Main statement: after an error the input is
empty if the output leads to it and the plan fails on the scene that is read, and as it was in all
other cases (`read_input_of_run`).
-/

namespace SceneTidy.Command

open Text

namespace Console

variable {c d : Console} {path : Path} {p : Place} {bytes : List UInt8}

/-- A path holds bytes that a console does not write over. -/
structure Keeps (c : Console) (path : Path) (p : Place) (bytes : List UInt8) : Prop where
  holds : c.files.Holds path p bytes
  log : ∀ l ∈ c.log, l.place ≠ p

namespace Keeps

theorem say (h : c.Keeps path p bytes) (line : String) : (c.say line).Keeps path p bytes :=
  ⟨h.holds, h.log⟩

/-- To tell a notice leaves a file that is not the log file. -/
theorem tell (h : c.Keeps path p bytes) (n : Notice) : (c.tell n).Keeps path p bytes := by
  rw [Console.tell]
  split
  · cases hlog : c.log with
    | none => simpa only [Console.say, hlog] using h.say _
    | some l =>
      have hne : l.place ≠ p := h.log l hlog
      simp only [Console.say, hlog]
      exact ⟨h.holds.put_of_ne hne _, fun l' hl' => by
        obtain rfl := Option.some.inj hl'
        exact hne⟩
  · exact h

theorem tellAll (h : c.Keeps path p bytes) (ns : List Notice) :
    (c.tellAll ns).Keeps path p bytes := by
  induction ns generalizing c with
  | nil => exact h
  | cons n ns ih => exact ih (h.tell n)

/-- A console with other files keeps what the same place has there. -/
theorem withFiles (h : c.Keeps path p bytes) {fs : Files} {path' : Path} {other : List UInt8}
    (hfs : fs.Holds path' p other) : ({ c with files := fs } : Console).Keeps path' p other :=
  ⟨hfs, h.log⟩

end Keeps

/-- A path leads to where it led when something is told. -/
theorem place_tell (h : c.files.place path = .ok p) (n : Notice) :
    (c.tell n).files.place path = .ok p := by
  rw [Console.tell]
  split
  · cases hlog : c.log with
    | none => simpa only [Console.say, hlog] using h
    | some l =>
      simp only [Console.say, hlog]
      exact Files.place_put h _ _
  · exact h

theorem place_tellAll (h : c.files.place path = .ok p) (ns : List Notice) :
    (c.tellAll ns).files.place path = .ok p := by
  induction ns generalizing c with
  | nil => exact h
  | cons n ns ih => exact ih (place_tell h n)

/-- To open a log file elsewhere leaves a file. -/
theorem keeps_openLog (h : c.Keeps path p bytes) {logFile : Option Path}
    (hlog : ∀ log ∈ logFile, c.files.place log.collapsed ≠ .ok p)
    (hopen : c.openLog logFile = .ok d) : d.Keeps path p bytes := by
  cases logFile with
  | none =>
    obtain rfl := Except.ok.inj hopen
    exact h
  | some log =>
    rw [openLog] at hopen
    cases hcreate : c.files.create log.collapsed with
    | error e => simp [hcreate, bind, Except.bind] at hopen
    | ok created =>
      obtain ⟨place, files⟩ := created
      obtain ⟨hplace, -, rfl⟩ := Files.create_spec hcreate
      have hne : place ≠ p := by
        rintro rfl
        exact hlog log rfl hplace
      simp only [hcreate, bind, Except.bind] at hopen
      obtain rfl := Except.ok.inj hopen
      refine ⟨h.holds.put_of_ne hne [], fun l hl => ?_⟩
      obtain rfl := Option.some.inj hl
      exact hne

/-- An error that ends the run at the scene is only said. -/
theorem exists_say_of_failAtScene {e : SceneError} {code : Nat}
    (hend : c.failAtScene e = (.exited code, d)) : ∃ line, d = c.say line := by
  cases e <;> first
    | exact ⟨_, (Prod.mk.inj hend).2.symm⟩
    | exact absurd (Prod.mk.inj hend).1 (by simp)

/-- An error that ends the run at the output's file is only said. -/
theorem exists_say_of_failAtOutput {e : FileError} {code : Nat}
    (hend : c.failAtOutput e = (.exited code, d)) : ∃ line, d = c.say line := by
  cases e <;> first
    | exact ⟨_, (Prod.mk.inj hend).2.symm⟩
    | exact absurd (Prod.mk.inj hend).1 (by simp)

end Console

/-- A plan fails on the scene that a file is read as. -/
def FailsOn (plan : Plan) (path : Path) (bytes : List UInt8) : Prop :=
  (readScene path bytes).result = .ok () ∧
    ∃ e, ((readScene path bytes).scene.apply plan (readScene path bytes).scene.numbers).result =
      .error e

namespace Settings

/-- The output leads to the file that the input leads to. -/
def Aliased (st : Settings) (fs : Files) : Prop :=
  ∃ out ∈ st.output, fs.place out = fs.place st.input

/-- The plan that the settings ask for fails on the scene that the input is read as. -/
def FailsOn (st : Settings) (bytes : List UInt8) : Prop :=
  ∃ preset choices plan, st.choices = .ok (preset, choices) ∧
    choices.planFrom preset = .ok plan ∧ Command.FailsOn plan st.input bytes

/-- Settings that make a plan ask for this one. -/
theorem failsOn_iff {st : Settings} {bytes : List UInt8} {preset : String} {choices : Choices}
    {plan : Plan} (hchoices : st.choices = .ok (preset, choices))
    (hplan : choices.planFrom preset = .ok plan) :
    st.FailsOn bytes ↔ Command.FailsOn plan st.input bytes := by
  constructor
  · rintro ⟨preset', choices', plan', hchoices', hplan', hfails⟩
    obtain ⟨rfl, rfl⟩ := Prod.mk.inj (Except.ok.inj (hchoices.symm.trans hchoices'))
    obtain rfl := Except.ok.inj (hplan.symm.trans hplan')
    exact hfails
  · exact fun hfails => ⟨preset, choices, plan, hchoices, hplan, hfails⟩

/-- How an error leaves the input: empty if the output leads to it and something fails, and with the
bytes that it had otherwise. -/
structure Leaves (st : Settings) (bytes : List UInt8) (fails : Prop) (fs : Files) : Prop where
  kept : ¬(st.Aliased fs ∧ fails) → fs.read st.input = .ok bytes
  emptied : st.Aliased fs ∧ fails → fs.read st.input = .ok []

variable {st : Settings} {bytes : List UInt8} {fails fails' : Prop} {fs : Files}

theorem leaves_of_kept (h : fs.read st.input = .ok bytes) (hnot : ¬(st.Aliased fs ∧ fails)) :
    st.Leaves bytes fails fs :=
  ⟨fun _ => h, fun hboth => absurd hboth hnot⟩

theorem leaves_of_emptied (h : fs.read st.input = .ok []) (hboth : st.Aliased fs ∧ fails) :
    st.Leaves bytes fails fs :=
  ⟨fun hnot => absurd hboth hnot, fun _ => h⟩

theorem Leaves.congr (h : st.Leaves bytes fails fs) (hiff : fails ↔ fails') :
    st.Leaves bytes fails' fs :=
  propext hiff ▸ h

end Settings

variable {st : Settings} {plan : Plan} {s : Scene} {path : Path} {out p : Place} {c d : Console}
  {bytes : List UInt8}

/-- A scene file in UTF-8 is read as its text. -/
theorem readScene_of_decode {text : String} (hx : path.isX3d = false)
    (h : decode bytes = .ok text) :
    readScene path bytes = Scene.empty.readVrml (universalLines text) := by
  simp [readScene, hx, h]

/-- A scene file that is not in UTF-8 is not read. -/
theorem readScene_of_broken {broken : BrokenChar} (hx : path.isX3d = false)
    (h : decode bytes = .error broken) :
    readScene path bytes = ⟨.empty, [], .error (.malformed (.notUtf8 broken))⟩ := by
  simp [readScene, hx, h]

theorem isRead_readScene (h : (readScene path bytes).result = .ok ()) :
    (readScene path bytes).scene.IsRead := by
  rw [readScene] at h ⊢
  split
  · next hx =>
    rw [if_pos hx] at h
    cases hd : Xml.readFile bytes with
    | ok document =>
      simp only [hd] at h ⊢
      exact .x3d _ document h
    | error fault =>
      simp only [hd] at h
      cases h
  · next hx =>
    rw [if_neg hx] at h
    cases hd : decode bytes with
    | ok text =>
      simp only [hd] at h ⊢
      exact .vrml _ h
    | error broken =>
      simp only [hd] at h
      cases h

theorem ne_exited_report {nb : Numbering} {w : Writing} :
    report st s nb w c ≠ (.exited 1, d) := by
  rw [report]
  split
  · exact fun h => absurd (Prod.mk.inj h).1 (by simp)
  · exact fun h => absurd (Prod.mk.inj h).1 (by simp)

/-- If a run ends with an error when the output is open, the plan failed, and nothing is done but
that things are told. -/
theorem finish_spec (hs : s.Closed) (hend : finish st plan s path out c = (.exited 1, d)) :
    (∃ e, (s.apply plan s.numbers).result = .error e) ∧
      ∃ ns line, d = (c.tellAll ns).say line := by
  have hwritten := ((hs.follows_apply plan s.numbers).closed.write_spec plan.indent).1
  have hnumbers : (Numbering.empty.assign s s.root).number? = s.numbers := rfl
  simp only [finish, hnumbers] at hend
  cases hresult : (s.apply plan s.numbers).result with
  | error e =>
    simp only [hresult] at hend
    obtain ⟨line, rfl⟩ := Console.exists_say_of_failAtScene hend
    exact ⟨⟨e, rfl⟩, .nodesNumbered _ :: _, line, rfl⟩
  | ok _ =>
    simp only [hresult, hwritten] at hend
    exact absurd hend ne_exited_report

/-- An output that leads to the input is opened, and empty when the plan fails. -/
theorem leaves_of_openOutput (hs : s.Closed) (hkeeps : c.Keeps st.input p bytes)
    (hend : openOutput st plan s c = (.exited 1, d)) :
    st.Leaves bytes (∃ e, (s.apply plan s.numbers).result = .error e) d.files := by
  rw [openOutput] at hend
  cases hout : st.output with
  | none =>
    simp only [hout] at hend
    exact absurd (Prod.mk.inj hend).1 (by simp)
  | some path =>
    simp only [hout] at hend
    have hplace : ∀ {fs : Files}, fs.Holds st.input p bytes → st.Aliased fs →
        fs.Holds path p bytes := by
      rintro fs hholds ⟨out, hmem, hsame⟩
      obtain rfl : path = out := Option.some.inj (hout.symm.trans hmem)
      exact ⟨hsame.trans hholds.place, hholds.file, hholds.bytes⟩
    cases hparent : c.files.ensureParent path with
    | error cause =>
      simp only [hparent] at hend
      obtain ⟨line, rfl⟩ := Console.exists_say_of_failAtOutput hend
      refine Settings.leaves_of_kept (hkeeps.say line).holds.read fun ⟨halias, _⟩ => ?_
      have hthere := Files.ensureParent_of_place (hplace hkeeps.holds halias).place
      cases hparent.symm.trans hthere
    | ok files =>
      simp only [hparent] at hend
      have hgrown := hkeeps.holds.grow (Files.grows_ensureParent hparent)
      cases hcreate : files.create path with
      | error cause =>
        simp only [hcreate] at hend
        obtain ⟨line, rfl⟩ := Console.exists_say_of_failAtOutput hend
        refine Settings.leaves_of_kept ((hkeeps.withFiles hgrown).say line).holds.read
          fun ⟨halias, _⟩ => ?_
        cases hcreate.symm.trans (hplace hgrown halias).create
      | ok created =>
        obtain ⟨out, files'⟩ := created
        simp only [hcreate] at hend
        obtain ⟨hout', hfile, rfl⟩ := Files.create_spec hcreate
        obtain ⟨hfails, ns, line, rfl⟩ := finish_spec hs hend
        have hled := Console.place_tellAll (c := { c with files := files.put out [] })
          (Files.place_put hout' out []) ns
        by_cases he : out = p
        · -- the file that is opened is the input
          subst he
          have hemptied := hkeeps.withFiles (Files.holds_put hgrown.place hfile [])
          have hinput := (hemptied.tellAll ns).holds
          exact Settings.leaves_of_emptied hinput.read
            ⟨⟨path, hout, hled.trans hinput.place.symm⟩, hfails⟩
        · have hinput := ((hkeeps.withFiles (hgrown.put_of_ne he [])).tellAll ns).holds
          refine Settings.leaves_of_kept hinput.read fun ⟨halias, _⟩ => he ?_
          exact Except.ok.inj (hled.symm.trans (hplace hinput halias).place)

/-- An error comes from reading the input, or after it was read. -/
theorem leaves_of_process (hkeeps : c.Keeps st.input p bytes)
    (hend : process st plan c = (.exited 1, d)) :
    st.Leaves bytes (FailsOn plan st.input bytes) d.files := by
  have hnotice := hkeeps.tell (readingNotice st.input)
  have hread := hnotice.tellAll (readScene st.input bytes).notices
  simp only [process, hnotice.holds.read] at hend
  cases hresult : (readScene st.input bytes).result with
  | error e =>
    simp only [hresult] at hend
    obtain ⟨line, rfl⟩ := Console.exists_say_of_failAtScene hend
    refine Settings.leaves_of_kept (hread.say line).holds.read fun ⟨_, hok, _⟩ => ?_
    cases hresult.symm.trans hok
  | ok _ =>
    simp only [hresult] at hend
    exact (leaves_of_openOutput (isRead_readScene hresult).closed hread hend).congr
      ⟨fun hfails => ⟨hresult, hfails⟩, And.right⟩

/-- An error comes from the settings, which make no plan, or after that. -/
theorem leaves_of_planAndProcess (hkeeps : c.Keeps st.input p bytes)
    (hend : planAndProcess st c = (.exited 1, d)) :
    st.Leaves bytes (st.FailsOn bytes) d.files := by
  rw [planAndProcess] at hend
  cases hchoices : st.choices with
  | error f =>
    simp only [hchoices] at hend
    exact absurd (Prod.mk.inj hend).1 (by simp)
  | ok chosen =>
    obtain ⟨preset, choices⟩ := chosen
    simp only [hchoices] at hend
    cases hplan : choices.planFrom preset with
    | error e =>
      simp only [hplan] at hend
      obtain rfl := (Prod.mk.inj hend).2
      refine Settings.leaves_of_kept (hkeeps.say _).holds.read ?_
      rintro ⟨-, preset', choices', plan, hchoices', hplan', -⟩
      obtain ⟨rfl, rfl⟩ := Prod.mk.inj (Except.ok.inj (hchoices.symm.trans hchoices'))
      cases hplan.symm.trans hplan'
    | ok plan =>
      simp only [hplan] at hend
      have hnotice : (if !plan.dropJunk && st.asksForJunk then c.tell (.pruningUnused preset)
          else c).Keeps st.input p bytes := by
        split
        · exact hkeeps.tell _
        · exact hkeeps
      exact (leaves_of_process hnotice hend).congr (Settings.failsOn_iff hchoices hplan).symm

/-- **After an error the input is empty if the output leads to it and the plan fails on the scene
that is read, and otherwise it is as it was.** -/
theorem read_input_of_run {args : List String} {files : Files} {clock : String}
    (hst : Settings.ofArguments args = .ok st) (hread : files.read st.input = .ok bytes)
    (hlog : ∀ log ∈ st.logFile, files.place log.collapsed ≠ files.place st.input)
    (hrun : run args files clock = (.exited 1, c)) :
    (st.Aliased c.files ∧ st.FailsOn bytes → c.files.read st.input = .ok []) ∧
      (¬(st.Aliased c.files ∧ st.FailsOn bytes) → c.files.read st.input = .ok bytes) := by
  obtain ⟨p, hholds⟩ := Files.read_eq_ok_iff.1 hread
  have hfirst : Console.Keeps ⟨files, "", none, st.verbose, clock⟩ st.input p bytes :=
    ⟨hholds, nofun⟩
  have helsewhere : ∀ log ∈ st.logFile, files.place log.collapsed ≠ .ok p :=
    fun log hl => hholds.place ▸ hlog log hl
  simp only [run, hst, runWith] at hrun
  cases hopen : Console.openLog ⟨files, "", none, st.verbose, clock⟩ st.logFile with
  | error cause =>
    simp only [hopen] at hrun
    exact absurd (Prod.mk.inj hrun).1 (by simp)
  | ok opened =>
    have hkeeps := (Console.keeps_openLog hfirst helsewhere hopen).tell .loggingReady
    have hthere : (opened.tell .loggingReady).files.isAt st.input = .ok true := by
      simp [Files.isAt, hkeeps.holds.place, Files.isTaken, hkeeps.holds.bytes]
    simp only [hopen, hthere] at hrun
    have hleaves := leaves_of_planAndProcess hkeeps hrun
    exact ⟨hleaves.emptied, hleaves.kept⟩

/-! ### A run that loses its input -/

/-- A plan that drops junk and keeps a group fails on a scene without groups. -/
theorem apply_of_no_group {number : Option Int} (hon : plan.dropJunk = true)
    (hkeep : plan.rules.keep = some number) (hnone : ∀ x, s.isKind .group x = false)
    (numberOf : NodeId → Option Nat) :
    (s.apply plan numberOf).result = .error (.notReachableGroup number) := by
  have hgroup : s.findGroup numberOf s.root number = .error (.notReachableGroup number) := by
    rw [Scene.findGroup]
    split
    · next id _ => rw [hnone id, if_neg (by decide)]
    · rfl
  have hkept : s.keptGroup numberOf plan.rules s.root = .error (.notReachableGroup number) := by
    simp only [Scene.keptGroup, hkeep, hgroup]
    rfl
  have hdrop : (s.stage plan.dropJunk .prune fun s =>
      s.dropJunk numberOf plan.rules s.root).result = .error (.notReachableGroup number) := by
    simp only [Scene.stage, hon, if_true, Scene.dropJunk, hkept]
    rfl
  rw [Scene.apply, Change.andThen_of_error hdrop]

/-- A run ends with an error if its plan fails when the output is open. -/
theorem finish_of_error {number : Option Int}
    (h : (s.apply plan s.numbers).result = .error (.notReachableGroup number)) :
    (finish st plan s path out c).1 = .exited 1 := by
  have hnumbers : (Numbering.empty.assign s s.root).number? = s.numbers := rfl
  simp only [finish, hnumbers, h]
  rfl

/-- The bytes of a file with a shape and no group. -/
def loneBytes : List UInt8 := bytesOf "#VRML V2.0 utf8\nShape \x7b\x7d\n"

/-- The bytes of a file that is not in UTF-8. -/
def brokenBytes : List UInt8 := [0x23, 0xE9, 0x0A]

/-- Arguments that ask for a group to keep, and for the input as output. -/
def losingArguments : List String := ["in.wrl", "-o", "in.wrl", "--keep-group-id", "7"]

/-- The settings that these arguments make. -/
def losingSettings : Settings :=
  { Settings.usual with
    input := ⟨"", ["in.wrl"]⟩
    output := some ⟨"", ["in.wrl"]⟩
    keepGroup := some (some 7) }

/-- The choices that these settings make beside the preset. -/
def losingChoices : Choices :=
  { Choices.unmade with
    rules := some ⟨[], true, some (some 7)⟩
    ignoreWinding := some true
    indent := some 0 }

/-- A tree with an input of some bytes. -/
def inputFiles (bytes : List UInt8) : Files := .ofContents [(["in.wrl"], bytes)]

/-- The scene of the file with a shape. -/
def loneScene : Scene := (readScene losingSettings.input loneBytes).scene

theorem ofArguments_losing : Settings.ofArguments losingArguments = .ok losingSettings := by rfl

theorem choices_losing : losingSettings.choices = .ok ("unify", losingChoices) := by rfl

/-- The plan of these choices drops junk, and keeps a group. -/
theorem exists_plan_losing : ∃ plan, losingChoices.planFrom "unify" = .ok plan ∧
    plan.dropJunk = true ∧ plan.rules.keep = some (some 7) :=
  ⟨_, rfl, rfl, rfl⟩

theorem read_inputFiles (bytes : List UInt8) :
    (inputFiles bytes).read losingSettings.input = .ok bytes := by rfl

theorem readScene_lone : (readScene losingSettings.input loneBytes).result = .ok () ∧
    (readScene losingSettings.input loneBytes).notices = [] ∧
    ∀ n ∈ loneScene.nodes, n.kind ≠ .group := by
  rw [loneScene, loneBytes, readScene_of_decode (by rfl) (decode_eq_ok_iff.2 rfl)]
  decide +kernel

theorem readScene_brokenBytes : (readScene losingSettings.input brokenBytes).result =
    .error (.malformed (.notUtf8 ⟨1, [0xE9], .next⟩)) := by
  rw [readScene_of_broken (by rfl) (by rfl)]

/-- A console without a log file has some files. -/
structure Console.Quiet (c : Console) (fs : Files) : Prop where
  files : c.files = fs
  log : c.log = none

theorem Console.Quiet.tell {fs : Files} (h : c.Quiet fs) (n : Notice) : (c.tell n).Quiet fs := by
  obtain ⟨rfl, hlog⟩ := h
  rw [Console.tell]
  split
  · simp only [Console.say, hlog]
    exact ⟨rfl, rfl⟩
  · exact ⟨rfl, hlog⟩

/-- The run comes to where the input is read. -/
theorem exists_process_losing (bytes : List UInt8)
    (hplan : losingChoices.planFrom "unify" = .ok plan) (hon : plan.dropJunk = true) :
    ∃ c : Console, c.Quiet (inputFiles bytes) ∧
      run losingArguments (inputFiles bytes) "" = process losingSettings plan c := by
  let first : Console := ⟨inputFiles bytes, "", none, false, ""⟩
  have hfirst : (⟨inputFiles bytes, "", none, losingSettings.verbose, ""⟩ : Console) = first := rfl
  have hopen : first.openLog losingSettings.logFile = .ok first := rfl
  have hopened : (first.tell .loggingReady).Quiet (inputFiles bytes) :=
    Console.Quiet.tell ⟨rfl, rfl⟩ _
  have hthere : (inputFiles bytes).isAt losingSettings.input = .ok true := by rfl
  have hjunk : (!plan.dropJunk && losingSettings.asksForJunk) = false := by rw [hon]; rfl
  refine ⟨first.tell .loggingReady, hopened, ?_⟩
  simp only [run, ofArguments_losing, runWith, hfirst, hopen, hopened.files, hthere,
    planAndProcess, choices_losing, hplan, hjunk, Bool.false_eq_true, if_false]

/-- The run on the file with a shape comes to where the output is open, and empty. -/
theorem exists_finish_losing (hplan : losingChoices.planFrom "unify" = .ok plan)
    (hon : plan.dropJunk = true) :
    ∃ c : Console, c.Quiet ((inputFiles loneBytes).put ["in.wrl"] []) ∧
      run losingArguments (inputFiles loneBytes) "" =
        finish losingSettings plan loneScene losingSettings.input ["in.wrl"] c := by
  obtain ⟨c, hquiet, hrun⟩ := exists_process_losing loneBytes hplan hon
  have hreading := hquiet.tell (readingNotice losingSettings.input)
  obtain ⟨hresult, hnotices, -⟩ := readScene_lone
  have hout : losingSettings.output = some losingSettings.input := rfl
  have hparent : (inputFiles loneBytes).ensureParent losingSettings.input =
      .ok (inputFiles loneBytes) := by rfl
  have hcreate : (inputFiles loneBytes).create losingSettings.input =
      .ok (["in.wrl"], (inputFiles loneBytes).put ["in.wrl"] []) := by rfl
  refine ⟨{ c.tell (readingNotice losingSettings.input) with
    files := (inputFiles loneBytes).put ["in.wrl"] [] }, ⟨rfl, hreading.log⟩, ?_⟩
  simp only [hrun, process, hreading.files, read_inputFiles, hresult, hnotices, Console.tellAll,
    List.foldl_nil, openOutput, hout, hparent, hcreate]
  rfl

theorem isKind_lone (x : NodeId) : loneScene.isKind .group x = false := by
  obtain ⟨-, -, hnone⟩ := readScene_lone
  rw [Scene.isKind, Scene.kind?]
  cases hn : loneScene.node? x with
  | none => rfl
  | some n =>
    have hkind := hnone n (Array.mem_of_getElem? hn)
    simpa using hkind

/-- The plan fails on the file with a shape, but not on the one that is not read. -/
theorem failsOn_lone : losingSettings.FailsOn loneBytes := by
  obtain ⟨plan, hplan, hon, hkeep⟩ := exists_plan_losing
  exact (Settings.failsOn_iff choices_losing hplan).2
    ⟨readScene_lone.1, _, apply_of_no_group hon hkeep isKind_lone _⟩

theorem not_failsOn_broken : ¬losingSettings.FailsOn brokenBytes := by
  rintro ⟨_, _, _, -, -, hread, -⟩
  cases readScene_brokenBytes.symm.trans hread

/-- The run on the file with a shape ends with an error, and the input is empty. -/
theorem exists_run_losing : ∃ c, run losingArguments (inputFiles loneBytes) "" = (.exited 1, c) ∧
    c.files.read losingSettings.input = .ok [] := by
  obtain ⟨plan, hplan, hon, hkeep⟩ := exists_plan_losing
  obtain ⟨c, hquiet, hrun⟩ := exists_finish_losing hplan hon
  have hclosed := (isRead_readScene readScene_lone.1).closed
  have hexit : (run losingArguments (inputFiles loneBytes) "").1 = .exited 1 := by
    rw [hrun]
    exact finish_of_error (apply_of_no_group hon hkeep isKind_lone _)
  have hend : run losingArguments (inputFiles loneBytes) "" =
      (.exited 1, (run losingArguments (inputFiles loneBytes) "").2) := Prod.ext hexit rfl
  have hkeeps : c.Keeps losingSettings.input ["in.wrl"] [] := by
    refine ⟨?_, ?_⟩
    · rw [hquiet.files]
      exact Files.holds_put rfl rfl []
    · rw [hquiet.log]
      exact nofun
  obtain ⟨-, ns, line, hsaid⟩ := finish_spec hclosed (hrun.symm.trans hend)
  rw [hsaid] at hend
  exact ⟨_, hend, ((hkeeps.tellAll ns).say line).holds.read⟩

/-- The run on the file that is not in UTF-8 ends with an error. -/
theorem exists_run_broken :
    ∃ c, run losingArguments (inputFiles brokenBytes) "" = (.exited 1, c) := by
  obtain ⟨plan, hplan, hon, -⟩ := exists_plan_losing
  obtain ⟨c, hquiet, hrun⟩ := exists_process_losing brokenBytes hplan hon
  have hreading := hquiet.tell (readingNotice losingSettings.input)
  simp only [process, hreading.files, read_inputFiles, readScene_brokenBytes] at hrun
  exact ⟨_, hrun⟩

theorem read_input_of_run_lone : Settings.ofArguments losingArguments = .ok losingSettings ∧
    ((inputFiles loneBytes).read losingSettings.input = .ok loneBytes ∧
      (∀ log ∈ losingSettings.logFile, (inputFiles loneBytes).place log.collapsed ≠
        (inputFiles loneBytes).place losingSettings.input) ∧
      ∃ c, run losingArguments (inputFiles loneBytes) "" = (.exited 1, c) ∧
        losingSettings.Aliased c.files ∧ losingSettings.FailsOn loneBytes ∧
          c.files.read losingSettings.input = .ok []) ∧
    (inputFiles brokenBytes).read losingSettings.input = .ok brokenBytes ∧
      (∀ log ∈ losingSettings.logFile, (inputFiles brokenBytes).place log.collapsed ≠
        (inputFiles brokenBytes).place losingSettings.input) ∧
      ∃ c, run losingArguments (inputFiles brokenBytes) "" = (.exited 1, c) ∧
        losingSettings.Aliased c.files ∧ ¬losingSettings.FailsOn brokenBytes ∧
          c.files.read losingSettings.input = .ok brokenBytes := by
  have haliased : ∀ fs, losingSettings.Aliased fs := fun _ => ⟨losingSettings.input, rfl, rfl⟩
  obtain ⟨c, hrun, -⟩ := exists_run_losing
  obtain ⟨c', hrun'⟩ := exists_run_broken
  have hlost := read_input_of_run ofArguments_losing (read_inputFiles loneBytes) nofun hrun
  have hkept := read_input_of_run ofArguments_losing (read_inputFiles brokenBytes) nofun hrun'
  refine ⟨ofArguments_losing, ⟨read_inputFiles _, nofun, c, hrun, haliased _, failsOn_lone, ?_⟩,
    read_inputFiles _, nofun, c', hrun', haliased _, not_failsOn_broken, ?_⟩
  · exact hlost.1 ⟨haliased _, failsOn_lone⟩
  · exact hkept.2 fun hboth => not_failsOn_broken hboth.2

/-- Not every run that ends with an error leaves its input. -/
theorem not_read_input_of_run_lone : ¬∀ args files clock st bytes c,
    Settings.ofArguments args = .ok st → files.read st.input = .ok bytes →
    (∀ log ∈ st.logFile, files.place log.collapsed ≠ files.place st.input) →
    run args files clock = (.exited 1, c) → c.files.read st.input = .ok bytes := by
  intro h
  obtain ⟨c, hrun, hempty⟩ := exists_run_losing
  have hkept := h _ _ _ _ _ _ ofArguments_losing (read_inputFiles loneBytes) nofun hrun
  rw [hempty] at hkept
  exact absurd (Except.ok.inj hkept) (by decide +kernel)

end SceneTidy.Command
