import CapFixture.Code

/-!
# Guards

The text about a signature is compiled only where all symbols of its blocks are defined.
-/

namespace CapFixture.Forwarder

def banner : String := "/* Generated by combostorm */"

/-- The condition that all symbols are defined. -/
def condition (defines : List String) : String := " && ".intercalate defines

/-- Puts the text between a condition and its end, if there are symbols to ask for. -/
def guarded (defines : List String) (body : Code) : Code :=
  if defines.isEmpty then body
  else
    Code.line ("#if " ++ condition defines) ++ body ++
      Code.line ("#endif /* " ++ condition defines ++ " */")

end CapFixture.Forwarder
