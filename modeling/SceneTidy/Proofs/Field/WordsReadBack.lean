import SceneTidy.Proofs.Numeric.ReadBack

/-!
# Field values read back

The words that an item is written with read back as the item, and so do the words of a list of
items, one item after the other (`ItemKind.read_words`, `ItemKind.readList_words`).
-/

namespace SceneTidy

namespace ItemKind

/-- The words of an item, as the reader gets them. -/
def parts (k : ItemKind) (v : k.Value) : List String := (k.words v).map String.ofList

theorem length_parts (k : ItemKind) (v : k.Value) : (k.parts v).length = k.components := by
  cases k <;> rfl

theorem read?_words (k : ItemKind) (v : k.Value) : k.read? (k.words v) = some v := by
  cases k with
  | bool => cases v <;> decide
  | int32 => exact readPrefixedInteger?_integerText v
  | float => exact readReal?_text v
  | time => exact readReal?_text v
  | string => exact congrArg some String.ofList_toList
  | vec2f => simp [words, read?, readReal?_text]
  | vec3f => simp [words, read?, readReal?_text]
  | color => simp [words, read?, readReal?_text]
  | rotation => simp [words, read?, readReal?_text]

/-- **The words of an item read back as the item.** -/
theorem read_words (k : ItemKind) (v : k.Value) : k.read (k.parts v) = .ok v := by
  have hlist : (k.parts v).map String.toList = k.words v := by
    simp [parts, Function.comp_def]
  rw [read, if_pos (length_parts k v), hlist, read?_words]

theorem length_flatMap_parts (k : ItemKind) (vs : List k.Value) :
    (vs.flatMap k.parts).length = vs.length * k.components := by
  induction vs with
  | nil => simp
  | cons v vs ih =>
    rw [List.flatMap_cons, List.length_append, ih, length_parts, List.length_cons, Nat.succ_mul,
      Nat.add_comm]

theorem readItems_words (k : ItemKind) (vs : List k.Value) :
    k.readItems vs.length (vs.flatMap k.parts) = .ok vs := by
  induction vs with
  | nil => rfl
  | cons v vs ih =>
    have htake : (k.parts v ++ vs.flatMap k.parts).take k.components = k.parts v := by
      rw [← length_parts k v, List.take_left]
    have hdrop : (k.parts v ++ vs.flatMap k.parts).drop k.components = vs.flatMap k.parts := by
      rw [← length_parts k v, List.drop_left]
    rw [List.flatMap_cons, List.length_cons, readItems, htake, hdrop, read_words, ih]
    rfl

/-- **The words of a list of items read back as the list.** -/
theorem readList_words (k : ItemKind) (vs : List k.Value) :
    k.readList (vs.flatMap k.parts) = .ok vs := by
  rw [readList, length_flatMap_parts, if_pos (Nat.mul_mod_left ..),
    Nat.mul_div_cancel _ k.components_pos, readItems_words]

end ItemKind

end SceneTidy
