import Fieldmap.Builtin
import Fieldmap.CommandLine.Directory
import Fieldmap.CommandLine.Files
import Fieldmap.CommandLine.Help
import Fieldmap.CommandLine.Options
import Fieldmap.CommandLine.Program
import Fieldmap.CommandLine.Run
import Fieldmap.DumpFormat
import Fieldmap.Error
import Fieldmap.Event
import Fieldmap.FieldType
import Fieldmap.Json
import Fieldmap.Main
import Fieldmap.NameSet
import Fieldmap.Overrides
import Fieldmap.Record.Basic
import Fieldmap.Record.Dump
import Fieldmap.Record.Table
import Fieldmap.Record.Validity
import Fieldmap.Spec.Compile
import Fieldmap.Spec.Error
import Fieldmap.Spec.FieldmapBlock
import Fieldmap.Spec.Reader
import Fieldmap.Text.Blank
import Fieldmap.Text.DecimalDigit
import Fieldmap.Text.Identifier
import Fieldmap.Text.Layout
import Fieldmap.Text.Literal
import Fieldmap.Text.Number
import Fieldmap.Text.Position
import Fieldmap.Text.Quoted
import Fieldmap.Text.Span
import Fieldmap.Text.WordChar
import Fieldmap.Token.Basic
import Fieldmap.Token.Lexeme
import Fieldmap.Token.Mark
import Fieldmap.Token.Stream
import Fieldmap.Traced
import Fieldmap.Proofs.Grammar.Basic
import Fieldmap.Proofs.Grammar.Draft
import Fieldmap.Proofs.CharClass
import Fieldmap.Proofs.TokenClass
import Fieldmap.Proofs.Grammar.Completeness
import Fieldmap.Proofs.Grammar.Soundness
import Fieldmap.Proofs.Grammar.Acceptance
import Fieldmap.Proofs.Validity
import Fieldmap.Proofs.Tables
import Fieldmap.Proofs.CompileSound
import Fieldmap.Proofs.LexemeShape
import Fieldmap.Proofs.Spelling
import Fieldmap.Proofs.QuotedLiteral
import Fieldmap.Proofs.Relocation
import Fieldmap.Proofs.ReadBack
import Fieldmap.Proofs.Expressible
import Fieldmap.Proofs.FirstViolation
import Fieldmap.Proofs.DumpFields
import Fieldmap.Proofs.PastedBlock
import Fieldmap.Proofs.FormatRoundTrip
import Fieldmap.Proofs.Coordinates
import Fieldmap.Proofs.Tiling
import Fieldmap.Proofs.TokenPlaces
import Fieldmap.Proofs.ErrorPlaces
import Fieldmap.Proofs.Respacing
import Fieldmap.Proofs.Seam
import Fieldmap.Proofs.Concatenation
import Fieldmap.Proofs.TableLines
import Fieldmap.Proofs.TableContent
import Fieldmap.Proofs.InTurn
import Fieldmap.Proofs.TableRun
import Fieldmap.Proofs.Targets
import Fieldmap.Proofs.ErrorLines
import Fieldmap.Proofs.EarliestError
import Fieldmap.Proofs.FileWrites
import Fieldmap.Proofs.ProgramOutcome
import Fieldmap.Proofs.GivenOptions
import Fieldmap.Proofs.RunEffect
import Fieldmap.Proofs.IrrelevantOptions
import Fieldmap.Proofs.Pattern
import Fieldmap.Proofs.TextTiling
import Fieldmap.Proofs.FormatEntry
import Fieldmap.Proofs.FormatLanguage
import Fieldmap.Proofs.ForcedTypes
import Fieldmap.Proofs.Grammar.FieldsKept
import Fieldmap.Proofs.SplicedDefault
import Fieldmap.Proofs.AtomicDefaults
import Fieldmap.Proofs.Respelling
import Fieldmap.Proofs.LexicalClasses
import Fieldmap.Proofs.LosslessDump
import Fieldmap.Proofs.OverrideEvents
import Fieldmap.Proofs.IndexedReader
import Fieldmap.Proofs.WalkRules
import Fieldmap.Proofs.ReaderBounds
