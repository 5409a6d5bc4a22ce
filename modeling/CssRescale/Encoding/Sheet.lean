import CssRescale.Encoding.CodePage
import CssRescale.Encoding.Utf8
import CssRescale.Encoding.Utf16

/-!
Contract: encodings, their labels, and the text of a style sheet's bytes.

A byte order mark decides the encoding whatever else was asked for. Without
one, bytes are UTF-8 if they are well formed; else the encoding is the one
that a rule at the very start of the sheet names, if its label is known; else
it is windows-1252.

All labels are known but those of the encodings of several bytes for a character that
need a table of their own: big5, euc-jp, euc-kr, gb18030, gbk, iso-2022-jp and shift_jis.
The tables are not here, so malformed bytes whose rule names one of these are
windows-1252.

Owns: the type `Encoding`, its labels, and `Encoding.decodeSheet`.
-/

set_option autoImplicit false

namespace CssRescale

/-- An encoding of text. -/
inductive Encoding where
  | utf8
  | utf16 (order : Utf16.ByteOrder)
  | codePage (page : CodePage)
  /-- Bytes from 128 on are private-use characters. -/
  | userDefined
  /-- Bytes, if there are any, stand for no characters. -/
  | replacement
deriving DecidableEq, Repr

namespace Encoding

/-- The private-use character of a byte from 128 on. -/
def userDefinedChar (byte : UInt8) : Char :=
  if byte < 0x80 then Char.ofNat byte.toNat else Char.ofNat (0xF700 + byte.toNat)

/-- Decodes bytes without a byte order mark. -/
def decodeUnmarked : Encoding → Bytes → Decoded
  | utf8, bytes => Utf8.decode bytes
  | utf16 order, bytes => Utf16.decode order bytes
  | codePage page, bytes => page.decode bytes
  | userDefined, bytes => bytes.map fun byte => some (userDefinedChar byte)
  | replacement, bytes => if bytes.isEmpty then [] else [none]

/-- The encoding that a byte order mark gives, and the bytes after the mark. -/
def ofMark? : Bytes → Option (Encoding × Bytes)
  | 0xEF :: 0xBB :: 0xBF :: rest => some (utf8, rest)
  | 0xFF :: 0xFE :: rest => some (utf16 .littleEndian, rest)
  | 0xFE :: 0xFF :: rest => some (utf16 .bigEndian, rest)
  | _ => none

/-- Decodes bytes; a byte order mark is removed and decides the encoding. -/
def decode (encoding : Encoding) (bytes : Bytes) : Decoded :=
  match ofMark? bytes with
  | some (marked, rest) => marked.decodeUnmarked rest
  | none => encoding.decodeUnmarked bytes

def labels : List (Encoding × List String) :=
  [
    (.utf8, ["unicode-1-1-utf-8", "unicode11utf8", "unicode20utf8", "utf-8", "utf8",
      "x-unicode20utf8"]),
    (.utf16 .littleEndian, ["csunicode", "iso-10646-ucs-2", "ucs-2", "unicode", "unicodefeff",
      "utf-16", "utf-16le"]),
    (.utf16 .bigEndian, ["unicodefffe", "utf-16be"]),
    (.codePage .ibm866, ["866", "cp866", "csibm866", "ibm866"]),
    (.codePage .latin2, ["csisolatin2", "iso-8859-2", "iso-ir-101", "iso8859-2", "iso88592",
      "iso_8859-2", "iso_8859-2:1987", "l2", "latin2"]),
    (.codePage .latin3, ["csisolatin3", "iso-8859-3", "iso-ir-109", "iso8859-3", "iso88593",
      "iso_8859-3", "iso_8859-3:1988", "l3", "latin3"]),
    (.codePage .latin4, ["csisolatin4", "iso-8859-4", "iso-ir-110", "iso8859-4", "iso88594",
      "iso_8859-4", "iso_8859-4:1988", "l4", "latin4"]),
    (.codePage .latinCyrillic, ["csisolatincyrillic", "cyrillic", "iso-8859-5", "iso-ir-144",
      "iso8859-5", "iso88595", "iso_8859-5", "iso_8859-5:1988"]),
    (.codePage .latinArabic, ["arabic", "asmo-708", "csiso88596e", "csiso88596i",
      "csisolatinarabic", "ecma-114", "iso-8859-6", "iso-8859-6-e", "iso-8859-6-i",
      "iso-ir-127", "iso8859-6", "iso88596", "iso_8859-6", "iso_8859-6:1987"]),
    (.codePage .latinGreek, ["csisolatingreek", "ecma-118", "elot_928", "greek", "greek8",
      "iso-8859-7", "iso-ir-126", "iso8859-7", "iso88597", "iso_8859-7", "iso_8859-7:1987",
      "sun_eu_greek"]),
    (.codePage .latinHebrew, ["csiso88598e", "csiso88598i", "csisolatinhebrew", "hebrew",
      "iso-8859-8", "iso-8859-8-e", "iso-8859-8-i", "iso-ir-138", "iso8859-8", "iso88598",
      "iso_8859-8", "iso_8859-8:1988", "logical", "visual"]),
    (.codePage .latin6, ["csisolatin6", "iso-8859-10", "iso-ir-157", "iso8859-10", "iso885910",
      "l6", "latin6"]),
    (.codePage .latin7, ["iso-8859-13", "iso8859-13", "iso885913"]),
    (.codePage .latin8, ["iso-8859-14", "iso8859-14", "iso885914"]),
    (.codePage .latin9, ["csisolatin9", "iso-8859-15", "iso8859-15", "iso885915", "iso_8859-15",
      "l9"]),
    (.codePage .latin10, ["iso-8859-16"]),
    (.codePage .koi8r, ["cskoi8r", "koi", "koi8", "koi8-r", "koi8_r"]),
    (.codePage .koi8u, ["koi8-ru", "koi8-u"]),
    (.codePage .macRoman, ["csmacintosh", "mac", "macintosh", "x-mac-roman"]),
    (.codePage .macCyrillic, ["x-mac-cyrillic", "x-mac-ukrainian"]),
    (.codePage .windows874, ["dos-874", "iso-8859-11", "iso8859-11", "iso885911", "tis-620",
      "windows-874"]),
    (.codePage .windows1250, ["cp1250", "windows-1250", "x-cp1250"]),
    (.codePage .windows1251, ["cp1251", "windows-1251", "x-cp1251"]),
    (.codePage .windows1252, ["ansi_x3.4-1968", "ascii", "cp1252", "cp819", "csisolatin1",
      "ibm819", "iso-8859-1", "iso-ir-100", "iso8859-1", "iso88591", "iso_8859-1",
      "iso_8859-1:1987", "l1", "latin1", "us-ascii", "windows-1252", "x-cp1252"]),
    (.codePage .windows1253, ["cp1253", "windows-1253", "x-cp1253"]),
    (.codePage .windows1254, ["cp1254", "csisolatin5", "iso-8859-9", "iso-ir-148", "iso8859-9",
      "iso88599", "iso_8859-9", "iso_8859-9:1989", "l5", "latin5", "windows-1254", "x-cp1254"]),
    (.codePage .windows1255, ["cp1255", "windows-1255", "x-cp1255"]),
    (.codePage .windows1256, ["cp1256", "windows-1256", "x-cp1256"]),
    (.codePage .windows1257, ["cp1257", "windows-1257", "x-cp1257"]),
    (.codePage .windows1258, ["cp1258", "windows-1258", "x-cp1258"]),
    (.userDefined, ["x-user-defined"]),
    (.replacement, ["csiso2022kr", "hz-gb-2312", "iso-2022-cn", "iso-2022-cn-ext",
      "iso-2022-kr", "replacement"])
  ]

/-- A text without the blanks around it. -/
def trim (text : Text) : Text :=
  ((text.dropWhile isBlank).reverse.dropWhile isBlank).reverse

/-- The encoding of a label, without regard to case and blanks around it. -/
def ofLabel? (label : Text) : Option Encoding :=
  (labels.find? fun entry =>
    entry.2.any fun known => Text.equalIgnoringCase known.toList (trim label)).map Prod.fst

/-- The bytes before the label of a rule that names the encoding. -/
def ruleStart : Bytes := Utf8.encode "@charset \"".toList

/-- The label of the rule that names the encoding, if the bytes start with one. -/
def ruleLabel? (bytes : Bytes) : Option Text :=
  if ruleStart.isPrefixOf bytes then
    let rest := bytes.drop ruleStart.length
    let label := rest.takeWhile (· != 0x22)
    match rest.dropWhile (· != 0x22) with
    | 0x22 :: 0x3B :: _ => some (label.map fun byte => Char.ofNat byte.toNat)
    | _ => none
  else
    none

/-- The encoding of bytes that are not well-formed UTF-8. -/
def declared (bytes : Bytes) : Encoding :=
  ((ruleLabel? bytes).bind ofLabel?).getD (codePage .windows1252)

/-- The text of a style sheet's bytes. -/
def decodeSheet (bytes : Bytes) : Text :=
  if (utf8.decode bytes).isMalformed then ((declared bytes).decode bytes).text
  else (utf8.decode bytes).text

end Encoding

end CssRescale
