/-!
Bytes of texts: UTF-8, in which files are read and reports are written, and Latin-1, in which
every byte is one character.
-/

namespace FormulaReader.Text

/-- The bytes of `text` in UTF-8. -/
def utf8 (text : String) : List UInt8 :=
  text.toList.flatMap String.utf8EncodeChar

/-- The text that `bytes` are in UTF-8, if they are one. -/
def ofUtf8? (bytes : List UInt8) : Option String :=
  String.fromUTF8? bytes.toByteArray

/-- The character of one byte in Latin-1. -/
def latin1 (byte : UInt8) : Char :=
  Char.ofNat byte.toNat

end FormulaReader.Text
