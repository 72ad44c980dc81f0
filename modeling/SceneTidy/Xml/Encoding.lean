import SceneTidy.Xml.CodePage

/-!
# Encodings

How the bytes of a file stand for the characters of a document.  A file in sixteen-bit units shows
it by a zero among its first two bytes.  Any other is in UTF-8, unless the document names another
encoding at its start; then that name tells how the bytes are read.
-/

namespace SceneTidy.Xml

/-- How bytes stand for characters: in UTF-8, in sixteen-bit units, in the first Latin alphabet
under its own name, in some code page, or in ASCII but for one character. -/
inductive Encoding
  | utf8
  | wide (littleEndian : Bool)
  | latin
  | page (p : CodePage)
  | asciiWithout (c : Char)

/-- Why a file holds no document. -/
inductive Fault
  | notWellFormed
  | unknownEncoding
  | multibyteEncoding
  | deniedEncoding (reason : String)
  deriving DecidableEq, Repr

namespace Encoding

/-! ### Sixteen-bit units -/

/-- The sixteen-bit unit of two bytes. -/
def unit (littleEndian : Bool) (a b : UInt8) : Nat :=
  if littleEndian then a.toNat + 256 * b.toNat else 256 * a.toNat + b.toNat

/-- The sixteen-bit units of bytes. -/
def units? (littleEndian : Bool) : List UInt8 → Option (List Nat)
  | [] => some []
  | [_] => none
  | a :: b :: r => (units? littleEndian r).map (unit littleEndian a b :: ·)

/-- The characters of units: a unit from D800 on is the first half of a character, and one from DC00
on cannot be the first. -/
def unitChars? : List Nat → Option (List Char)
  | [] => some []
  | u :: r =>
    if u < 0xD800 ∨ 0xE000 ≤ u then (unitChars? r).map (Char.ofNat u :: ·)
    else if 0xDC00 ≤ u then none
    else
      match r with
      | [] => none
      | v :: r =>
        (unitChars? r).map (Char.ofNat (0x10000 + 0x400 * (u % 0x400) + v % 0x400) :: ·)

/-- The characters that bytes stand for. -/
def decode? (e : Encoding) (bytes : List UInt8) : Option (List Char) :=
  match e with
  | utf8 => (String.fromUTF8? ⟨bytes.toArray⟩).map String.toList
  | wide littleEndian => (units? littleEndian bytes).bind unitChars?
  | latin => CodePage.latin.decode? bytes
  | page p => p.decode? bytes
  | asciiWithout c => (CodePage.ascii.decode? bytes).filter (!·.contains c)

/-- The number of bytes that a character takes. -/
def width : Encoding → Char → Nat
  | utf8, c => c.utf8Size
  | wide _, c => if c.toNat < 0x10000 then 2 else 4
  | _, _ => 1

/-- The number of bytes that a text takes. -/
def size (e : Encoding) (s : List Char) : Nat := s.foldl (fun n c => n + e.width c) 0

/-- Whether the ordinal signs and the micro sign are letters: they are in the first Latin alphabet
and in sixteen-bit units, which go on from it. -/
def hasLetterSigns : Encoding → Bool
  | wide _ | latin => true
  | _ => false

/-- The ASCII characters that sixteen-bit units start with. -/
def wideStart (littleEndian : Bool) : List UInt8 → List Char
  | a :: b :: r =>
    let u := unit littleEndian a b
    if u < 128 then Char.ofNat u :: wideStart littleEndian r else []
  | _ => []

/-- The ASCII characters that bytes start with; they can be told though later bytes stand for
nothing. -/
def asciiStart (e : Encoding) (bytes : List UInt8) : List Char :=
  match e with
  | wide littleEndian => wideStart littleEndian bytes
  | _ => (bytes.takeWhile (· < 128)).map fun b => Char.ofNat b.toNat

/-- The encoding that the first bytes of a file show. -/
def ofStart : List UInt8 → Encoding
  | a :: b :: _ => if a = 0 then wide false else if b = 0 then wide true else utf8
  | _ => utf8

/-! ### Names -/

/-- The name of an encoding with single low lines between its parts. -/
def simpleName (name : List Char) : List Char :=
  let isNamed (c : Char) : Bool := c.isAlphanum || c = '.'
  let step (c : Char) (acc : List Char) : List Char :=
    if isNamed c then c.toLower :: acc
    else
      match acc with
      | [] => []
      | d :: _ => if d = '_' then acc else '_' :: acc
  (name.foldr step []).dropWhile (· = '_')

/-- The encodings in which a character may take several bytes. -/
def multibyte : List String := [
  "big5", "big5_hkscs", "big5_tw", "big5hkscs", "chinese", "cp1361", "cp932", "cp936", "cp949",
  "cp950", "csbig5", "csiso2022kr", "csiso58gb231280", "csshiftjis", "euc_cn", "euc_jis2004",
  "euc_jis_2004", "euc_jisx0213", "euc_jp", "euc_kr", "euccn", "eucgb2312_cn", "eucjis2004",
  "eucjisx0213", "eucjp", "euckr", "gb18030", "gb18030_2000", "gb2312", "gb2312_1980", "gb2312_80",
  "gbk", "hkscs", "iso2022_kr", "iso2022kr", "iso_2022_kr", "iso_ir_58", "jisx0213", "johab",
  "korean", "ks_c_5601", "ks_c_5601_1987", "ks_x_1001", "ksc5601", "ksx1001", "ms1361", "ms932",
  "ms936", "ms949", "ms950", "ms_kanji", "mskanji", "s_jis", "s_jis_2004", "s_jisx0213",
  "shift_jis", "shift_jis_2004", "shift_jisx0213", "shiftjis", "shiftjis2004", "shiftjisx0213",
  "sjis", "sjis_2004", "sjisx0213", "u16", "u32", "u7", "u_jis", "uhc", "ujis", "unicode_1_1_utf_7",
  "unicodebigunmarked", "unicodelittleunmarked", "utf16", "utf32", "utf7", "utf_16", "utf_16_be",
  "utf_16_le", "utf_16be", "utf_16le", "utf_32", "utf_32_be", "utf_32_le", "utf_32be", "utf_32le",
  "utf_7", "x_mac_japanese", "x_mac_korean", "x_mac_simp_chinese", "x_mac_trad_chinese"]

/-- The encodings that have other characters in the places of ASCII. -/
def foreign : List String := [
  "cp037", "cp1026", "cp1140", "cp273", "cp424", "cp500", "cp864", "cp875", "csibm037", "csibm1026",
  "csibm273", "csibm424", "csibm500", "csibm864", "ebcdic_cp_be", "ebcdic_cp_ca", "ebcdic_cp_ch",
  "ebcdic_cp_he", "ebcdic_cp_nl", "ebcdic_cp_us", "ebcdic_cp_wt", "ibm037", "ibm039", "ibm1026",
  "ibm1140", "ibm273", "ibm424", "ibm500", "ibm864", "mac_arabic", "mac_farsi"]

/-- The encodings that are ASCII but for the tilde, which stands for nothing by itself. -/
def tildeless : List String := ["hz", "hz_gb", "hz_gb_2312", "hzgb"]

/-- The encodings in which single bytes cannot be looked up, with what is said then of an encoding
that was called by a name. -/
def denied : List (String × (String → String)) := [
  ("idna", fun name =>
    s!"decoding with '{name}' codec failed (UnicodeError: Unsupported error handling replace)"),
  ("punycode", fun _ =>
    "'ascii' codec can't decode byte 0x80 in position 82: ordinal not in range(128)"),
  ("undefined", fun name =>
    s!"decoding with '{name}' codec failed (UnicodeError: undefined encoding)")]

/-- The names whose low lines cannot be written as dots. -/
def undotted : List String := [
  "euc_jis_2004", "euc_jisx0213", "euc_jp", "euc_kr", "hp_roman8", "iso2022_jp", "iso2022_jp_1",
  "iso2022_jp_2", "iso2022_jp_2004", "iso2022_jp_3", "iso2022_jp_ext", "iso2022_kr", "iso8859_10",
  "iso8859_11", "iso8859_13", "iso8859_14", "iso8859_15", "iso8859_16", "iso8859_2", "iso8859_3",
  "iso8859_4", "iso8859_5", "iso8859_6", "iso8859_7", "iso8859_8", "iso8859_9", "koi8_r",
  "koi8_t", "koi8_u", "latin_1", "mac_arabic", "mac_croatian", "mac_cyrillic", "mac_farsi",
  "mac_greek", "mac_iceland", "mac_latin2", "mac_roman", "mac_romanian", "mac_turkish",
  "raw_unicode_escape", "shift_jis", "shift_jis_2004", "shift_jisx0213", "tis_620",
  "unicode_escape", "utf_16", "utf_16_be", "utf_16_le", "utf_32", "utf_32_be", "utf_32_le",
  "utf_7", "utf_8", "utf_8_sig"]

/-- The encoding of a simple name, given the name as it was written. -/
def ofSimpleName (written name : String) : Except Fault Encoding :=
  match CodePage.all.find? (·.names.contains name) with
  | some p => .ok (page p)
  | none =>
    if tildeless.contains name then .ok (asciiWithout '~')
    else if multibyte.contains name then .error .multibyteEncoding
    else if foreign.contains name then .error .notWellFormed
    else
      match denied.lookup name with
      | some reason => .error (.deniedEncoding (reason written))
      | none => .error .unknownEncoding

/-- The encoding of a name that is not one of the usual ones.  A dot counts as a low line unless the
name is known with it. -/
def ofName (written : List Char) : Except Fault Encoding :=
  let name := simpleName written
  let dotless := String.ofList (name.map fun c => if c = '.' then '_' else c)
  match ofSimpleName (String.ofList written) (String.ofList name) with
  | .error .unknownEncoding =>
    if undotted.contains dotless then .error .unknownEncoding
    else ofSimpleName (String.ofList written) dotless
  | found => found

/-- Whether the name is that of sixteen-bit units in the order of an encoding. -/
def isWideName (littleEndian : Bool) (name : String) : Bool :=
  name = "utf-16" || name = (if littleEndian then "utf-16le" else "utf-16be")

/-- The encoding of a document whose start shows one encoding and names another.  Sixteen-bit units
and single bytes do not go together. -/
def named (shown : Encoding) (name : List Char) : Except Fault Encoding :=
  let usual := String.ofList (name.map Char.toLower)
  let isWide := ["utf-16", "utf-16le", "utf-16be"].contains usual
  let isNarrow := ["utf-8", "us-ascii", "iso-8859-1"].contains usual
  match shown with
  | wide littleEndian =>
    if isWideName littleEndian usual then .ok shown
    else if isWide || isNarrow then .error .notWellFormed
    else (ofName name).bind fun _ => .error .notWellFormed
  | _ =>
    if isWide then .error .notWellFormed
    else if usual = "utf-8" then .ok utf8
    else if usual = "iso-8859-1" then .ok latin
    else ofName name

end Encoding

end SceneTidy.Xml
