import SceneTidy.Proofs.Command.Files
import SceneTidy.Proofs.Text.Utf8
import SceneTidy.Proofs.Vrml.LineEnds
import SceneTidy.Proofs.Vrml.Refusal

/-!
# Saved scenes read back

A scene is saved as the bytes of its text.  When a file is read, its bytes are decoded, and each
line end becomes a line feed; the text has line ends of its own in strings.  Main statement: what
the file is read as differs from what the text is read as in the line ends of strings only, and the
one is a copy of the other if and only if the scene shows no string with a carriage return
(`readVrml_saveScene`).
-/

namespace SceneTidy.Command

open Text Vrml

variable {s : Scene} {path : Path} {indent : Nat} {files files' : Files} {w : Writing}
  {told : List Notice}

/-- The file that a scene is saved in holds the bytes of its text. -/
theorem read_of_saveScene (h : saveScene s path indent files = .ok (w, told, files')) :
    w = s.write indent ∧ files'.read path = .ok (bytesOf (s.write indent).text) := by
  rw [saveScene] at h
  cases hcreate : files.create path with
  | error e => simp [hcreate, bind, Except.bind] at h
  | ok created =>
    obtain ⟨out, opened⟩ := created
    obtain ⟨hplace, hfile, rfl⟩ := Files.create_spec hcreate
    simp only [hcreate, bind, Except.bind] at h
    obtain ⟨rfl, hrest⟩ := Prod.mk.inj (Except.ok.inj h)
    obtain ⟨-, rfl⟩ := Prod.mk.inj hrest
    exact ⟨rfl, (Files.holds_put (Files.place_put hplace out []) hfile _).read⟩

/-- **A saved scene is read back as what its text is read as, but for the line ends of strings.**
The scene is any whose references lead to nodes and whose writing comes to its end.  The one is a
copy of the other exactly if the scene shows no string with a carriage return. -/
theorem readVrml_saveScene (hroot : s.kind? s.root = some .scene)
    (hwhole : ∀ a, s.ShownFrom s.root a → (s.node? a).isSome)
    (hsave : saveScene s path indent files = .ok (w, told, files')) (hend : w.failure = none) :
    ∃ bytes text, files'.read path = .ok bytes ∧ decode bytes = .ok text ∧
      (Scene.empty.readVrml (s.write indent).text).result = .ok () ∧
      (Scene.empty.readVrml (universalLines text)).result = .ok () ∧
      (Scene.empty.readVrml (universalLines text)).scene =
        (Scene.empty.readVrml (s.write indent).text).scene.lineFeeds ∧
      ((∃ f, (Scene.empty.readVrml (s.write indent).text).scene.IsCopy
          (Scene.empty.readVrml (universalLines text)).scene f) ↔
        ∀ t, s.ShowsString t → '\r' ∉ t.toList) := by
  obtain ⟨rfl, hread⟩ := read_of_saveScene hsave
  have hwritable := Scene.writable_of_write hroot hwhole hend
  exact ⟨_, _, hread, decode_eq_ok_iff.2 rfl, hwritable.readVrml_universalLines indent⟩

-- An X3D document puts a carriage return in a string by a reference, and it is written as it is.
example : ((readScene ⟨"", ["in.x3d"]⟩
    (bytesOf "<X3D><Scene><WorldInfo title='a&#13;b'/></Scene></X3D>")).scene.write 0).text =
      "#VRML V2.0 utf8\nWorldInfo \x7b\ntitle \"a\rb\"\n\x7d\n" := by decide +kernel

/-- A scene whose title has two lines with a carriage return between them. -/
def twoLines : Scene :=
  ⟨#[(Node.create .scene none).setChildren [1],
    (Node.create .worldInfo none).set "title" (.one .string "a\rb")], 0⟩

theorem refs_twoLines {a b : NodeId} (h : b ∈ twoLines.refs a) : a = 0 ∧ b = 1 := by
  match a with
  | 0 => exact ⟨rfl, List.mem_singleton.1 h⟩
  | 1 => exact absurd h List.not_mem_nil
  | _ + 2 => exact absurd h List.not_mem_nil

theorem writable_twoLines : twoLines.Writable := by
  refine ⟨rfl, fun a b _ hab => ?_⟩
  obtain ⟨-, rfl⟩ := refs_twoLines hab.refers
  exact ⟨.worldInfo, rfl, rfl⟩

theorem isSome_twoLines {a : NodeId} (h : twoLines.ShownFrom twoLines.root a) :
    (twoLines.node? a).isSome := by
  cases h with
  | refl => rfl
  | tail _ hab =>
    obtain ⟨-, rfl⟩ := refs_twoLines hab.refers
    rfl

/-- Nothing is in the way of saving the scene. -/
theorem exists_saveScene_twoLines : ∃ w told files',
    saveScene twoLines ⟨"", ["out.wrl"]⟩ 0 (.ofContents []) = .ok (w, told, files') ∧
      w.failure = none :=
  ⟨twoLines.write 0, _, _, rfl, (readText_write writable_twoLines 0).1⟩

theorem readVrml_saveScene_twoLines : ∃ w told files',
    saveScene twoLines ⟨"", ["out.wrl"]⟩ 0 (.ofContents []) = .ok (w, told, files') ∧
      w.failure = none ∧
      ∃ bytes text, files'.read ⟨"", ["out.wrl"]⟩ = .ok bytes ∧ decode bytes = .ok text ∧
        (Scene.empty.readVrml (twoLines.write 0).text).result = .ok () ∧
        (Scene.empty.readVrml (universalLines text)).result = .ok () ∧
        (Scene.empty.readVrml (universalLines text)).scene =
          (Scene.empty.readVrml (twoLines.write 0).text).scene.lineFeeds ∧
        ((∃ f, (Scene.empty.readVrml (twoLines.write 0).text).scene.IsCopy
            (Scene.empty.readVrml (universalLines text)).scene f) ↔
          ∀ t, twoLines.ShowsString t → '\r' ∉ t.toList) := by
  obtain ⟨w, told, files', hsave, hend⟩ := exists_saveScene_twoLines
  exact ⟨w, told, files', hsave, hend,
    readVrml_saveScene rfl (fun _ => isSome_twoLines) hsave hend⟩

theorem showsString_twoLines : twoLines.ShowsString "a\rb" := by
  have hchild : 1 ∈ twoLines.children twoLines.root := List.mem_singleton_self 1
  have hfield : .plain "title" (.one .string) ∈ NodeKind.worldInfo.fields :=
    List.mem_cons_of_mem _ (List.mem_singleton_self _)
  exact ⟨1, .single ((shows_root_iff rfl).2 hchild), _, rfl, _,
    Node.mem_slots_value hfield, rfl, by decide +kernel⟩

/-- Not every scene that is saved is read back as what its text is read as. -/
theorem not_isCopy_saveScene_twoLines : ¬∀ s path indent files w told files' bytes text,
    s.kind? s.root = some .scene → (∀ a, s.ShownFrom s.root a → (s.node? a).isSome) →
    saveScene s path indent files = .ok (w, told, files') → w.failure = none →
    files'.read path = .ok bytes → decode bytes = .ok text →
    ∃ f, (Scene.empty.readVrml (s.write indent).text).scene.IsCopy
      (Scene.empty.readVrml (universalLines text)).scene f := by
  intro h
  obtain ⟨w, told, files', hsave, hend⟩ := exists_saveScene_twoLines
  obtain ⟨-, hread⟩ := read_of_saveScene hsave
  have hcopy := h _ _ _ _ _ _ _ _ _ rfl (fun _ => isSome_twoLines) hsave hend hread
    (decode_eq_ok_iff.2 rfl)
  obtain ⟨-, -, -, hiff⟩ := writable_twoLines.readVrml_universalLines 0
  exact hiff.1 hcopy _ showsString_twoLines (by decide)

end SceneTidy.Command
