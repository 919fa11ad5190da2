import CapFixture.Forwarder.Thunk

/-!
# The source

The source defines, for each signature, its thunk, the object that stands for the function, and
the getter that gives the object out.
-/

namespace CapFixture.Forwarder

/-- The name of the object that stands for a function. -/
def objectName (name : String) : String := "function_object_" ++ name

def functionObject (name : String) : Code :=
  Code.line ("static filc_object " ++ objectName name ++ " = \x7b") ++
  Code.indented
    (Code.line (".lower = " ++ Thunk.functionName name ++ ",") ++
     Code.line (".upper = (char*)" ++ Thunk.functionName name ++ " + FILC_WORD_SIZE,") ++
     Code.line ".flags = FILC_OBJECT_FLAG_GLOBAL | FILC_OBJECT_FLAG_SPECIAL," ++
     Code.line ".word_types = \x7b FILC_WORD_TYPE_FUNCTION \x7d") ++
  Code.line "\x7d;"

/-- The function that gives out a pointer to the object of a function. -/
def getter (name : String) : Code :=
  Code.line ("filc_ptr pizlonated_" ++ name ++ "(filc_global_initialization_context* context)") ++
  Code.block
    (Code.line "PAS_UNUSED_PARAM(context);" ++
     Code.line "return filc_ptr_create_with_ptr_and_manual_tracking(" ++
     Code.indented
       (Code.line ("&" ++ objectName name ++ ",") ++
        Code.line ("&" ++ Thunk.functionName name ++ ");")))

/-- The guarded definitions, without what comes before them. -/
def implementations (ss : List Signature) : Code :=
  ss.flatMap fun s =>
    guarded s.defines ((Thunk.ofSignature s).code ++ functionObject s.name ++ getter s.name)

def sourceCode (ss : List Signature) : Code :=
  Code.line banner ++ Code.line "#include \"filc_native.h\"" ++ implementations ss

/-- The text of the source. -/
def source (ss : List Signature) : String := (sourceCode ss).render

end CapFixture.Forwarder
