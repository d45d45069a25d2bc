import JvsSharp.Conversion
import JvsSharp.Text.Lines
import JvsSharp.Text.Utf8

/-!
# Converting the bytes of a file
-/

set_option autoImplicit false

namespace JvsSharp

def sourceLines (bytes : List UInt8) : List Line := Text.lines (Utf8.decodeLossy bytes)

def Conversion.convertBytes (c : Conversion) (bytes : List UInt8) : Nat × List Char :=
  let converted := c.run (sourceLines bytes)
  (converted.length, Text.unlines converted)

end JvsSharp
