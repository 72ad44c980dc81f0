import Mathlib.Algebra.Group.Nat.Defs
import SceneTidy.Text.Utf8

/-!
# Texts as bytes, and back

A character under way leads to the numbers that its bytes may still come to, and each of them is
that of a character which has these bytes first (`Begun.Means`).  Main statements: bytes are decoded
as a text if and only if they are the bytes of it (`decode_eq_ok_iff`), and other bytes are those of
a text up to a character that is broken, which is told with its place
(`exists_of_decode_eq_error`).
-/

namespace SceneTidy.Text

variable {b : UInt8} {c : Begun} {bytes r : List UInt8} {cs : List Char} {n place : Nat}

theorem bytesOf_ofList (cs : List Char) :
    bytesOf (String.ofList cs) = cs.flatMap String.utf8EncodeChar := by
  rw [bytesOf, String.toUTF8_eq_toByteArray, String.toByteArray_ofList, List.utf8Encode,
    List.toList_data_toByteArray]

/-! ### The bytes of a character -/

/-- The last bytes of the character with a number.  Each holds six bits of the number. -/
def lastBytes : Nat → Nat → List UInt8
  | 0, _ => []
  | k + 1, n => UInt8.ofNat (n / 64 ^ k % 64 + 0x80) :: lastBytes k n

theorem toNat_ofNat_val (h : n.isValidChar) : (Char.ofNat n).val.toNat = n := by
  rw [Char.ofNat, dif_pos h]
  rfl

theorem utf8EncodeChar_ofNat (h : n.isValidChar) : String.utf8EncodeChar (Char.ofNat n) =
    if n < 0x80 then [UInt8.ofNat n]
    else if n < 0x800 then UInt8.ofNat (n / 64 % 32 + 0xC0) :: lastBytes 1 n
    else if n < 0x10000 then UInt8.ofNat (n / 4096 % 16 + 0xE0) :: lastBytes 2 n
    else UInt8.ofNat (n / 262144 % 8 + 0xF0) :: lastBytes 3 n := by
  simp only [String.utf8EncodeChar, toNat_ofNat_val h, lastBytes, Nat.reducePow, Nat.div_one]
  simp only [Nat.lt_succ_iff.symm, Nat.reduceAdd, Nat.succ_eq_add_one]

/-! ### Characters under way -/

namespace Begun

/-- The character under way may come to a number. -/
def Leads (c : Begun) (n : Nat) : Prop :=
  n / 64 ^ c.missing = c.value ∧ ∀ k, c.missing = k + 1 →
    c.low ≤ n / 64 ^ k % 64 + 0x80 ∧ n / 64 ^ k % 64 + 0x80 ≤ c.high

/-- The next byte holds six bits, and what the character may come to has its bytes. -/
structure Means (c : Begun) : Prop where
  bounds : 0x80 ≤ c.low ∧ c.high < 0xC0
  encode : ∀ n, c.Leads n →
    String.utf8EncodeChar (Char.ofNat n) = c.bytes ++ lastBytes c.missing n

/-- A character that a byte starts has that byte and misses some. -/
theorem bytes_of_ofByte? (h : ofByte? b = some c) : c.bytes = [b] ∧ c.missing ≠ 0 := by
  simp only [ofByte?] at h
  split at h
  · cases h
  split at h
  · cases h
    exact ⟨rfl, by simp⟩
  split at h
  · cases h
    exact ⟨rfl, by simp⟩
  split at h
  · cases h
    exact ⟨rfl, by simp⟩
  · cases h

/-- What a first byte starts are characters that start with it. -/
theorem means_of_ofByte? (h : ofByte? b = some c) : c.Means := by
  simp only [ofByte?] at h
  split at h
  · cases h
  split at h
  · -- two bytes
    cases h
    refine ⟨⟨by simp, by simp⟩, fun n ⟨hvalue, _⟩ => ?_⟩
    simp only [Nat.reducePow] at hvalue
    have hfirst : n / 64 % 32 + 0xC0 = b.toNat := by omega
    rw [utf8EncodeChar_ofNat (.inl (by omega)), if_neg (by omega), if_pos (by omega), hfirst,
      UInt8.ofNat_toNat]
    rfl
  split at h
  · -- three bytes, which leave out the forms that two could take, and the halves of pairs
    cases h
    refine ⟨⟨by dsimp only; split <;> omega, by dsimp only; split <;> omega⟩,
      fun n ⟨hvalue, hnext⟩ => ?_⟩
    have hnext := hnext 1 rfl
    simp only [Nat.reducePow] at hvalue hnext
    have hfirst : n / 4096 % 16 + 0xE0 = b.toNat := by omega
    have hlong : 0x800 ≤ n := by split at hnext <;> omega
    have hpair : n < 0xD800 ∨ 0xDFFF < n := by split at hnext <;> split at hnext <;> omega
    have hvalid : n.isValidChar := hpair.imp id fun h => ⟨h, by omega⟩
    rw [utf8EncodeChar_ofNat hvalid, if_neg (by omega), if_neg (by omega), if_pos (by omega),
      hfirst, UInt8.ofNat_toNat]
    rfl
  split at h
  · -- four bytes, which leave out the forms that three could take, and end with the last character
    cases h
    refine ⟨⟨by dsimp only; split <;> omega, by dsimp only; split <;> omega⟩,
      fun n ⟨hvalue, hnext⟩ => ?_⟩
    have hnext := hnext 2 rfl
    simp only [Nat.reducePow] at hvalue hnext
    have hfirst : n / 262144 % 8 + 0xF0 = b.toNat := by omega
    have hlong : 0x10000 ≤ n := by split at hnext <;> omega
    have hlast : n < 0x110000 := by split at hnext <;> split at hnext <;> omega
    rw [utf8EncodeChar_ofNat (.inr ⟨by omega, hlast⟩), if_neg (by omega), if_neg (by omega),
      if_neg (by omega), hfirst, UInt8.ofNat_toNat]
    rfl
  · cases h

/-- A character goes on with a byte to a number if it leads to the number and has the byte next. -/
theorem leads_goOn_iff (hc : 0x80 ≤ c.low ∧ c.high < 0xC0) (hm : c.missing ≠ 0) :
    c.takes b = true ∧ (c.goOn b).Leads n ↔
      c.Leads n ∧ lastBytes c.missing n = b :: lastBytes (c.goOn b).missing n := by
  obtain ⟨k, hk⟩ := Nat.exists_eq_succ_of_ne_zero hm
  have hgo : (c.goOn b).missing = k := by rw [goOn, hk]; rfl
  have hbyte : UInt8.ofNat (n / 64 ^ k % 64 + 0x80) = b ↔ n / 64 ^ k % 64 + 0x80 = b.toNat := by
    rw [← UInt8.toNat_inj, UInt8.toNat_ofNat_of_lt' (show _ < 256 by omega)]
  have hdiv : n / 64 ^ (k + 1) = n / 64 ^ k / 64 := by rw [Nat.pow_succ, Nat.div_div_eq_div_mul]
  have hleads : c.Leads n ↔ n / 64 ^ k / 64 = c.value ∧
      c.low ≤ n / 64 ^ k % 64 + 0x80 ∧ n / 64 ^ k % 64 + 0x80 ≤ c.high := by
    rw [Leads, hk, hdiv]
    simp
  have hnext : (c.goOn b).Leads n ↔ n / 64 ^ k = 64 * c.value + b.toNat % 64 := by
    rw [Leads, hgo]
    refine and_iff_left fun j _ => ?_
    simp only [goOn]
    omega
  rw [hleads, hnext, hgo, hk, lastBytes, List.cons.injEq, hbyte]
  simp only [takes, Bool.and_eq_true, decide_eq_true_eq, and_true]
  omega

theorem Means.goOn (hc : c.Means) (hm : c.missing ≠ 0) (hb : c.takes b = true) :
    (c.goOn b).Means where
  bounds := by simp [Begun.goOn]
  encode n h := by
    obtain ⟨hleads, hlast⟩ := (leads_goOn_iff hc.bounds hm).1 ⟨hb, h⟩
    rw [hc.encode n hleads, hlast, Begun.goOn, List.append_assoc]
    rfl

/-- A character that no byte is missing of has the bytes that were read. -/
theorem Means.encode_value (hc : c.Means) (hm : c.missing = 0) :
    String.utf8EncodeChar (Char.ofNat c.value) = c.bytes := by
  rw [hc.encode c.value ⟨by rw [hm, Nat.pow_zero, Nat.div_one], fun k hk => absurd hk (by omega)⟩,
    hm, lastBytes, List.append_nil]

/-- A character of several bytes is started by its first one, which leads to its number. -/
theorem exists_ofByte? {ch : Char} (h : 0x80 ≤ ch.toNat) : ∃ b c, ofByte? b = some c ∧
    0x80 ≤ b.toNat ∧ c.Leads ch.toNat ∧
      String.utf8EncodeChar ch = b :: lastBytes c.missing ch.toNat := by
  have hvalid : ch.toNat.isValidChar := ch.valid
  generalize hn : ch.toNat = n at *
  obtain rfl : Char.ofNat n = ch := by rw [← hn, Char.ofNat_toNat]
  have hmax : n < 0x110000 := by rcases hvalid with hv | hv <;> omega
  rw [utf8EncodeChar_ofNat hvalid, if_neg (by omega)]
  split
  · have hb : (UInt8.ofNat (n / 64 % 32 + 0xC0)).toNat = n / 64 % 32 + 0xC0 :=
      UInt8.toNat_ofNat_of_lt' (show _ < 256 by omega)
    generalize UInt8.ofNat (n / 64 % 32 + 0xC0) = b at *
    refine ⟨b, ⟨[b], b.toNat % 32, 1, 0x80, 0xBF⟩, ?_, by omega, ⟨?_, ?_⟩, rfl⟩
    · simp only [ofByte?]
      rw [if_neg (by omega), if_pos (by omega)]
    · simp only [Nat.reducePow]
      omega
    · rintro k ⟨⟩
      dsimp only
      constructor <;> omega
  split
  · have hb : (UInt8.ofNat (n / 4096 % 16 + 0xE0)).toNat = n / 4096 % 16 + 0xE0 :=
      UInt8.toNat_ofNat_of_lt' (show _ < 256 by omega)
    generalize UInt8.ofNat (n / 4096 % 16 + 0xE0) = b at *
    refine ⟨b, ⟨[b], b.toNat % 16, 2, if b.toNat = 0xE0 then 0xA0 else 0x80,
      if b.toNat = 0xED then 0x9F else 0xBF⟩, ?_, by omega, ⟨?_, ?_⟩, rfl⟩
    · simp only [ofByte?]
      rw [if_neg (by omega), if_neg (by omega), if_pos (by omega)]
    · simp only [Nat.reducePow]
      omega
    · rintro k ⟨⟩
      dsimp only
      rcases hvalid with hv | hv
      · constructor <;> split <;> omega
      · constructor <;> split <;> omega
  · have hb : (UInt8.ofNat (n / 262144 % 8 + 0xF0)).toNat = n / 262144 % 8 + 0xF0 :=
      UInt8.toNat_ofNat_of_lt' (show _ < 256 by omega)
    generalize UInt8.ofNat (n / 262144 % 8 + 0xF0) = b at *
    refine ⟨b, ⟨[b], b.toNat % 8, 3, if b.toNat = 0xF0 then 0x90 else 0x80,
      if b.toNat = 0xF4 then 0x8F else 0xBF⟩, ?_, by omega, ⟨?_, ?_⟩, rfl⟩
    · simp only [ofByte?]
      rw [if_neg (by omega), if_neg (by omega), if_neg (by omega), if_pos (by omega)]
    · simp only [Nat.reducePow]
      omega
    · rintro k ⟨⟩
      dsimp only
      constructor <;> split <;> omega

end Begun

/-! ### Decoding -/

/-- A character under way is decoded as one that it may come to if the bytes of this one follow. -/
theorem decodeFrom_lastBytes (hc : 0x80 ≤ c.low ∧ c.high < 0xC0) (hm : c.missing ≠ 0)
    (hn : c.Leads n) :
    decodeFrom place (some c) (lastBytes c.missing n ++ r) =
      (decodeFrom (place + (c.bytes ++ lastBytes c.missing n).length) none r).map
        (Char.ofNat n :: ·) := by
  induction hk : c.missing generalizing c with
  | zero => exact absurd hk hm
  | succ k ih =>
    obtain ⟨b, hlast⟩ : ∃ b, lastBytes c.missing n = b :: lastBytes (c.goOn b).missing n :=
      ⟨UInt8.ofNat (n / 64 ^ k % 64 + 0x80), by rw [hk, Begun.goOn, hk]; rfl⟩
    obtain ⟨htakes, hgo⟩ := (Begun.leads_goOn_iff hc hm).2 ⟨hn, hlast⟩
    have hmissing : (c.goOn b).missing = k := by rw [Begun.goOn, hk]; rfl
    have hbytes : c.bytes ++ lastBytes c.missing n = (c.goOn b).bytes ++ lastBytes k n := by
      rw [hlast, hmissing, Begun.goOn, List.append_assoc]
      rfl
    rw [← hk, hbytes, hlast, List.cons_append, decodeFrom, htakes, hmissing]
    simp only [Bool.not_true, Bool.false_eq_true, if_false, hmissing]
    by_cases hk0 : k = 0
    · subst hk0
      have hvalue : (c.goOn b).value = n := by
        rw [← hgo.1, hmissing, Nat.pow_zero, Nat.div_one]
      rw [if_pos rfl, hvalue, lastBytes, List.append_nil]
      rfl
    · rw [if_neg hk0]
      exact ih (by simp [Begun.goOn]) (hmissing ▸ hk0) hgo hmissing

theorem decodeFrom_utf8EncodeChar (ch : Char) :
    decodeFrom place none (String.utf8EncodeChar ch ++ r) =
      (decodeFrom (place + (String.utf8EncodeChar ch).length) none r).map (ch :: ·) := by
  by_cases h : ch.toNat < 0x80
  · have hencode : String.utf8EncodeChar ch = [UInt8.ofNat ch.toNat] := by
      have hvalue := utf8EncodeChar_ofNat (n := ch.toNat) ch.valid
      rwa [Char.ofNat_toNat, if_pos h] at hvalue
    have hbyte : (UInt8.ofNat ch.toNat).toNat = ch.toNat :=
      UInt8.toNat_ofNat_of_lt' (show _ < 256 by omega)
    rw [hencode, List.singleton_append, decodeFrom, hbyte, if_pos h, Char.ofNat_toNat]
    rfl
  · obtain ⟨b, c, hbyte, hb, hn, hencode⟩ := Begun.exists_ofByte? (Nat.not_lt.1 h)
    obtain ⟨hbytes, hm⟩ := Begun.bytes_of_ofByte? hbyte
    have hbounds := (Begun.means_of_ofByte? hbyte).bounds
    rw [hencode, List.cons_append, decodeFrom, if_neg (by omega), hbyte]
    refine (decodeFrom_lastBytes hbounds hm hn).trans ?_
    rw [hbytes, Char.ofNat_toNat]
    rfl

/-- What is decoded from bytes at a place: characters that have these bytes, or a broken character
behind others that have the bytes before it. -/
def IsDecoding (place : Nat) (bytes : List UInt8) : Except BrokenChar (List Char) → Prop
  | .ok cs => bytes = cs.flatMap String.utf8EncodeChar
  | .error broken => ∃ (cs : List Char) (rest : List UInt8),
      bytes = cs.flatMap String.utf8EncodeChar ++ broken.bytes ++ rest ∧
        broken.place = place + (cs.flatMap String.utf8EncodeChar).length

theorem isDecoding_error (place : Nat) (bytes rest : List UInt8) (cause : Break) :
    IsDecoding place (bytes ++ rest) (.error ⟨place, bytes, cause⟩) :=
  ⟨[], rest, rfl, rfl⟩

theorem IsDecoding.cons {ch : Char} {decoded : Except BrokenChar (List Char)}
    (hch : String.utf8EncodeChar ch = bytes) (h : IsDecoding (place + bytes.length) r decoded) :
    IsDecoding place (bytes ++ r) (decoded.map (ch :: ·)) := by
  subst hch
  cases decoded with
  | ok cs => exact congrArg (String.utf8EncodeChar ch ++ ·) h
  | error broken =>
    obtain ⟨cs, rest, rfl, hplace⟩ := h
    refine ⟨ch :: cs, rest, by simp, ?_⟩
    rw [hplace, List.flatMap_cons, List.length_append, Nat.add_assoc]

/-- The bytes of a character under way, if there is one. -/
def bytesBegun : Option Begun → List UInt8
  | none => []
  | some c => c.bytes

theorem isDecoding_decodeFrom (place : Nat) (bytes : List UInt8) (c? : Option Begun)
    (hc : ∀ c ∈ c?, c.Means ∧ c.missing ≠ 0) :
    IsDecoding place (bytesBegun c? ++ bytes) (decodeFrom place c? bytes) := by
  fun_induction decodeFrom place c? bytes with
  | case1 => rfl
  | case2 place c => exact isDecoding_error place c.bytes [] _
  | case3 place b r hb ih =>
    have hencode := utf8EncodeChar_ofNat (n := b.toNat) (.inl (by omega))
    rw [if_pos hb, UInt8.ofNat_toNat] at hencode
    show IsDecoding place ([b] ++ r) _
    exact IsDecoding.cons hencode (ih (by simp))
  | case4 place b r => exact isDecoding_error place [b] r _
  | case5 place b r _ c hbyte ih =>
    obtain ⟨hbytes, hm⟩ := Begun.bytes_of_ofByte? hbyte
    have hrest := ih (by simpa using ⟨Begun.means_of_ofByte? hbyte, hm⟩)
    rwa [bytesBegun, hbytes] at hrest
  | case6 place c b r => exact isDecoding_error place c.bytes (b :: r) _
  | case7 place c b r htakes go hm ih =>
    obtain ⟨hmeans, hmissing⟩ := hc c rfl
    have hgo : go.Means := hmeans.goOn hmissing (by simpa using htakes)
    have hencode : String.utf8EncodeChar (Char.ofNat go.value) = c.bytes ++ [b] :=
      hgo.encode_value hm
    have hrest := IsDecoding.cons hencode (ih (by simp))
    rwa [List.append_assoc] at hrest
  | case8 place c b r htakes go hm ih =>
    obtain ⟨hmeans, hmissing⟩ := hc c rfl
    have hgo : go.Means := hmeans.goOn hmissing (by simpa using htakes)
    have hrest := ih (by simpa using ⟨hgo, hm⟩)
    have hbytes : bytesBegun (some go) ++ r = bytesBegun (some c) ++ b :: r := by
      show c.bytes ++ [b] ++ r = c.bytes ++ b :: r
      rw [List.append_assoc]
      rfl
    rwa [hbytes] at hrest

/-! ### Texts -/

theorem decodeFrom_flatMap (place : Nat) (cs : List Char) :
    decodeFrom place none (cs.flatMap String.utf8EncodeChar) = .ok cs := by
  induction cs generalizing place with
  | nil => rfl
  | cons ch cs ih => rw [List.flatMap_cons, decodeFrom_utf8EncodeChar, ih]; rfl

/-- **Bytes are decoded as a text exactly if they are those of the text.** -/
theorem decode_eq_ok_iff {text : String} : decode bytes = .ok text ↔ bytes = bytesOf text := by
  constructor
  · intro h
    have hdecoding := isDecoding_decodeFrom 0 bytes none (by simp)
    cases hfrom : decodeFrom 0 none bytes with
    | error broken => simp [decode, hfrom, Except.map] at h
    | ok cs =>
      obtain rfl : String.ofList cs = text := by simpa [decode, hfrom, Except.map] using h
      rw [hfrom] at hdecoding
      rw [bytesOf_ofList]
      exact hdecoding
  · rintro rfl
    rw [decode, ← String.ofList_toList (s := text), bytesOf_ofList, decodeFrom_flatMap]
    rfl

/-- Bytes that are not decoded are those of a text, a broken character at the place that is told,
and others. -/
theorem exists_of_decode_eq_error {broken : BrokenChar} (h : decode bytes = .error broken) :
    ∃ text rest, bytes = bytesOf text ++ broken.bytes ++ rest ∧
      broken.place = (bytesOf text).length := by
  have hdecoding := isDecoding_decodeFrom 0 bytes none (by simp)
  cases hfrom : decodeFrom 0 none bytes with
  | ok cs => simp [decode, hfrom, Except.map] at h
  | error broken' =>
    obtain rfl : broken' = broken := by simpa [decode, hfrom, Except.map] using h
    rw [hfrom] at hdecoding
    obtain ⟨cs, rest, hbytes, hplace⟩ := hdecoding
    refine ⟨String.ofList cs, rest, ?_, ?_⟩
    · rwa [bytesOf_ofList]
    · rw [bytesOf_ofList, hplace, Nat.zero_add]

-- A character has no form that is longer than it needs.
example : decode [0x41, 0xE0, 0x80, 0x80] = .error ⟨1, [0xE0], .next⟩ := by rfl

end SceneTidy.Text
