import CapFixture.Command.Arguments
import CapFixture.Command.Run
import CapFixture.Record.LayoutText
import CapFixture.Record.VariantText

/-!
# Libraries to run the program with
-/

namespace CapFixture.Command

def Libraries.standard : Libraries where
  readArguments := Command.readArguments
  readVariant := Variant.codec.read
  writeLayouts ls := .ok (Record.writeLayouts ls)

end CapFixture.Command
