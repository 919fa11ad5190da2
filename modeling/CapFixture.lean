import CapFixture.Files.Tree
import CapFixture.Main
import CapFixture.Proofs.Enumeration
import CapFixture.Proofs.Enumeration.Grid
import CapFixture.Proofs.Enumeration.Run
import CapFixture.Proofs.Enumeration.Search
import CapFixture.Proofs.LayoutSet
import CapFixture.Proofs.Mutation
import CapFixture.Proofs.Pipeline
import CapFixture.Proofs.Table.Lexemes
import CapFixture.Proofs.Table.Parsing
import CapFixture.Proofs.TestSuite
import CapFixture.Proofs.Variant.Validity
import CapFixture.Proofs.Variant.Loading
import CapFixture.Proofs.TestProgram.Access
import CapFixture.Proofs.TestProgram.Bytes
import CapFixture.Proofs.TestProgram.Machine
import CapFixture.Proofs.TestProgram.Run
import CapFixture.Proofs.Mutation.Swallowed
import CapFixture.Proofs.TestSuite.RoundTrips
import CapFixture.Proofs.TestSuite.OutOfBounds
import CapFixture.Proofs.TestSuite.Confusions
import CapFixture.Proofs.TestSuite.ConfusedWrites
import CapFixture.Proofs.Files.Path
import CapFixture.Proofs.Text.Decimal
import CapFixture.Proofs.TestSuite.Files
import CapFixture.Proofs.Files.Tree
import CapFixture.Proofs.Table.Names
import CapFixture.Proofs.Table.Writing
import CapFixture.Proofs.Forwarder.Reading
import CapFixture.Proofs.Forwarder.Lines
import CapFixture.Proofs.Forwarder.Guards
import CapFixture.Proofs.Forwarder.Body
import CapFixture.Proofs.Forwarder.Calls
import CapFixture.Proofs.Enumeration.Failure
import CapFixture.Proofs.Files.Places
import CapFixture.Proofs.Files.Writing
import CapFixture.Proofs.Command.Run
import CapFixture.Proofs.Enumeration.Inclusion
import CapFixture.Proofs.Table.Spacing
import CapFixture.Proofs.Table.Joining
import CapFixture.Proofs.Table.Positions
import CapFixture.Proofs.Record.Number
import CapFixture.Proofs.Record.Spelling
import CapFixture.Proofs.Record.Quoted
import CapFixture.Proofs.Record.Entries
import CapFixture.Proofs.Record.VariantText
import CapFixture.Proofs.Mutation.Slots
import CapFixture.Proofs.Enumeration.Words
import CapFixture.Proofs.Enumeration.Progression
import CapFixture.Proofs.Files.Names
import CapFixture.Proofs.Files.Conflicts
import CapFixture.Proofs.Files.Nested
import CapFixture.Proofs.Enumeration.Overlap
import CapFixture.Proofs.TestSuite.Groups
import CapFixture.Proofs.Table.Blame
import CapFixture.Proofs.Table.EarlyEnd
import CapFixture.Proofs.Table.Errors
import CapFixture.Proofs.Forwarder.Frames
import CapFixture.Proofs.Layout.Steps
import CapFixture.Proofs.Forwarder.HeaderReading
import CapFixture.Proofs.TestProgram.ReadingBack
import CapFixture.Proofs.TestSuite.ToldApart
import CapFixture.Proofs.TestSuite.Widths
import CapFixture.Proofs.Text.Parts
import CapFixture.Proofs.Listing
import CapFixture.Proofs.Table.Order
import CapFixture.Proofs.Table.Guarded
import CapFixture.Proofs.Table.GuardedTokens
import CapFixture.Proofs.Table.GuardedParsing
