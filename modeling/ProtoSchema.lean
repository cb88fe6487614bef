import ProtoSchema.CommandLine
import ProtoSchema.CommandLine.Arguments
import ProtoSchema.Compilation
import ProtoSchema.CompileError
import ProtoSchema.Declaration.Field
import ProtoSchema.Declaration.File
import ProtoSchema.Declaration.Message
import ProtoSchema.Descriptor
import ProtoSchema.Descriptor.Draft
import ProtoSchema.Descriptor.Encode
import ProtoSchema.Descriptor.Inspect
import ProtoSchema.Descriptor.Keyword
import ProtoSchema.FieldNumber
import ProtoSchema.FileTree
import ProtoSchema.FileTree.Access
import ProtoSchema.FileTree.Path
import ProtoSchema.Main
import ProtoSchema.Proofs.CommandLine
import ProtoSchema.Proofs.Compilation.Batch
import ProtoSchema.Proofs.Compilation.History
import ProtoSchema.Proofs.Declaration.Concatenation
import ProtoSchema.Proofs.Declaration.Drive
import ProtoSchema.Proofs.Declaration.FieldNumber
import ProtoSchema.Proofs.Declaration.Finish
import ProtoSchema.Proofs.Declaration.FirstError
import ProtoSchema.Proofs.Declaration.Insertion
import ProtoSchema.Proofs.Declaration.Layout
import ProtoSchema.Proofs.Declaration.ReadTrace
import ProtoSchema.Proofs.Declaration.Readings
import ProtoSchema.Proofs.Declaration.Recursion
import ProtoSchema.Proofs.Declaration.Safeguards
import ProtoSchema.Proofs.Declaration.Skipping
import ProtoSchema.Proofs.Declaration.Stage
import ProtoSchema.Proofs.Declaration.UnknownContent
import ProtoSchema.Proofs.Declaration.WholeDeclarations
import ProtoSchema.Proofs.Descriptor.Record
import ProtoSchema.Proofs.Descriptor.RoundTrip
import ProtoSchema.Proofs.ErrorPlace
import ProtoSchema.Proofs.FileTree.Writing
import ProtoSchema.Proofs.Grammar.Derivation
import ProtoSchema.Proofs.Grammar.Recognition
import ProtoSchema.Proofs.Grammar.Rendering
import ProtoSchema.Proofs.Grammar.ViablePrefix
import ProtoSchema.Proofs.Numeral
import ProtoSchema.Proofs.SearchOrder
import ProtoSchema.Proofs.Text.Bytes
import ProtoSchema.Proofs.Token.Blanking
import ProtoSchema.Proofs.Token.Excerpt
import ProtoSchema.Proofs.Token.Insertion
import ProtoSchema.Proofs.Token.Joining
import ProtoSchema.Proofs.Token.Lookahead
import ProtoSchema.Proofs.Token.Redelivery
import ProtoSchema.Proofs.Token.ScanExact
import ProtoSchema.Proofs.Token.Tiling
import ProtoSchema.Proofs.Token.Writing
import ProtoSchema.Resolver
import ProtoSchema.SyntaxError
import ProtoSchema.Text.Inspect
import ProtoSchema.Text.Quoted
import ProtoSchema.Text.Unprintable
import ProtoSchema.Text.Utf8
import ProtoSchema.Token
import ProtoSchema.Token.Cursor
import ProtoSchema.Token.Scanner
import ProtoSchema.Wire
