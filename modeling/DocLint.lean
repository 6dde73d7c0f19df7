import DocLint.Arguments
import DocLint.Ascending
import DocLint.ChangedLines
import DocLint.Code
import DocLint.Command.Check
import DocLint.Command.Init
import DocLint.Command.Run
import DocLint.Declaration
import DocLint.Declaration.Shape
import DocLint.DocBlock
import DocLint.Extraction
import DocLint.FileError
import DocLint.FileTree
import DocLint.Finding
import DocLint.Git
import DocLint.Glob
import DocLint.Glob.Expression
import DocLint.Glob.Matching
import DocLint.Json
import DocLint.Json.Reader
import DocLint.Json.Record
import DocLint.Json.Writer
import DocLint.Line
import DocLint.LintResult
import DocLint.Linter
import DocLint.Locate
import DocLint.Main
import DocLint.Nesting
import DocLint.Patch
import DocLint.PathText
import DocLint.Pattern
import DocLint.Proofs.BlockOutcomes
import DocLint.Proofs.BlockOwnership
import DocLint.Proofs.Blocks
import DocLint.Proofs.BraceMatching
import DocLint.Proofs.BuiltMaps
import DocLint.Proofs.ChangedCheck
import DocLint.Proofs.CodeContents
import DocLint.Proofs.CodeSamples
import DocLint.Proofs.CollectedChanges
import DocLint.Proofs.CommentedRules
import DocLint.Proofs.CommentedShapes
import DocLint.Proofs.CommentedText
import DocLint.Proofs.Continuations
import DocLint.Proofs.CountedHunks
import DocLint.Proofs.DiffReading
import DocLint.Proofs.DistinctWords
import DocLint.Proofs.EnclosingBlocks
import DocLint.Proofs.GeneratorHeaders
import DocLint.Proofs.GeneratorMethods
import DocLint.Proofs.GroupedViolations
import DocLint.Proofs.KeyedLines
import DocLint.Proofs.LineKinds
import DocLint.Proofs.LinesBelow
import DocLint.Proofs.LoweredText
import DocLint.Proofs.MarkedLines
import DocLint.Proofs.MemberHeaders
import DocLint.Proofs.MemberParameters
import DocLint.Proofs.Names
import DocLint.Proofs.NearestDeclaration
import DocLint.Proofs.NestedText
import DocLint.Proofs.OpenParentheses
import DocLint.Proofs.Ownership
import DocLint.Proofs.PairedBraces
import DocLint.Proofs.PairedLines
import DocLint.Proofs.PartialSettings
import DocLint.Proofs.PassCondition
import DocLint.Proofs.PatternReading
import DocLint.Proofs.ReadOnlyWorlds
import DocLint.Proofs.Records
import DocLint.Proofs.RepeatedReports
import DocLint.Proofs.ReportAgreement
import DocLint.Proofs.ReportSections
import DocLint.Proofs.SplitChanges
import DocLint.Proofs.TagCompleteness
import DocLint.Proofs.TextLines
import DocLint.Proofs.TrailingComments
import DocLint.Proofs.UnmovedFiles
import DocLint.Proofs.UnreadFiles
import DocLint.Proofs.ValidatedOnce
import DocLint.Proofs.Validations
import DocLint.Proofs.Verdicts
import DocLint.Proofs.WholeWords
import DocLint.Proofs.WrittenDiff
import DocLint.Proofs.WrittenJson
import DocLint.Proofs.WrittenReports
import DocLint.Proofs.WrittenSignature
import DocLint.Prose
import DocLint.Report
import DocLint.Report.Sarif
import DocLint.Report.Summary
import DocLint.Report.Terminal
import DocLint.Scope
import DocLint.Settings
import DocLint.Settings.Decoder
import DocLint.Settings.Discovery
import DocLint.Settings.Documents
import DocLint.Settings.Template
import DocLint.Settings.Validity
import DocLint.Signature
import DocLint.Text.Blank
import DocLint.Text.CodeSet
import DocLint.Text.Lines
import DocLint.Text.Lowercase
import DocLint.Text.Quoted
import DocLint.Text.Search
import DocLint.Text.Word
import DocLint.Validation
import DocLint.World
import DocLint.Yaml.Cursor
import DocLint.Yaml.Node
import DocLint.Yaml.Property
import DocLint.Yaml.Scalar
import DocLint.Yaml.Token
import DocLint.Yaml.TokenStream
