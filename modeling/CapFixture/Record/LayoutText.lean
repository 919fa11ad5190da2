import CapFixture.Code
import CapFixture.Layout

/-!
# Layouts as records

Layouts are written as a list of records over many lines, with a comma after every element.
-/

namespace CapFixture.Record

/-- The kind as the name of a value. -/
def kindName : Kind → String
  | .int => "Int"
  | .ptr => "Ptr"
  | .padding => "Padding"

/-- Puts elements between an opening and a closing line, or both on one line if there are none. -/
def enclose (opening closing : String) (elements : Code) : Code :=
  if elements.isEmpty then Code.line (opening ++ closing)
  else Code.line opening ++ Code.indented elements ++ Code.line closing

def fieldCode (f : Field) : Code :=
  enclose "(" ")," <|
    Code.line ("offset: " ++ toString f.offset ++ ",") ++
    Code.line ("kind: " ++ kindName f.kind ++ ",") ++
    Code.line ("size: " ++ toString f.size ++ ",")

def layoutCode (l : Layout) : Code :=
  enclose "(" ")," (enclose "fields: [" "]," (l.fields.flatMap fieldCode))

/-- The text of some layouts, without a newline at its end. -/
def writeLayouts (ls : List Layout) : String :=
  "\n".intercalate ((enclose "[" "]" (ls.flatMap layoutCode)).map Line.indentedText)

end CapFixture.Record
