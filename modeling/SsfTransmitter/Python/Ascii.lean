import SsfTransmitter.Python.Text

/-!
# A runtime for ASCII text

Case mapping and printability as the interpreter has them for ASCII; floats keep
their literal.
-/

namespace SsfTransmitter.Python.Ascii

/-- `str.lower()` for one ASCII code point. -/
def lowerPoint (point : CodePoint) : CodePoint :=
  if 65 ≤ point.val ∧ point.val ≤ 90 then point + 32 else point

scoped instance runtime : PyRuntime where
  lower := List.map lowerPoint
  lower_nil := rfl
  isPrintable point := 32 ≤ point.val && point.val ≤ 126
  floatRepr literal := literal

end SsfTransmitter.Python.Ascii
