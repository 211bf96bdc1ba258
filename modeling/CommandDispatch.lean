import CommandDispatch.Main
import CommandDispatch.Sample.Kinds
import CommandDispatch.Proofs.Arguments.Bundle
import CommandDispatch.Proofs.Arguments.Concatenation
import CommandDispatch.Proofs.Arguments.Cut
import CommandDispatch.Proofs.Arguments.Division
import CommandDispatch.Proofs.Arguments.FlagName
import CommandDispatch.Proofs.Arguments.Frame
import CommandDispatch.Proofs.Arguments.Integer
import CommandDispatch.Proofs.Arguments.Quotation
import CommandDispatch.Proofs.Arguments.Quoting
import CommandDispatch.Proofs.Arguments.SliceCut
import CommandDispatch.Proofs.CommandLine.Run
import CommandDispatch.Proofs.Dispatcher.Callee
import CommandDispatch.Proofs.Dispatcher.CalleeText
import CommandDispatch.Proofs.Dispatcher.Check
import CommandDispatch.Proofs.Dispatcher.Completeness
import CommandDispatch.Proofs.Dispatcher.Documentation
import CommandDispatch.Proofs.Dispatcher.Exhaustion
import CommandDispatch.Proofs.Dispatcher.Expressions
import CommandDispatch.Proofs.Dispatcher.Fault
import CommandDispatch.Proofs.Dispatcher.Frame
import CommandDispatch.Proofs.Dispatcher.Hygiene
import CommandDispatch.Proofs.Dispatcher.ItemLines
import CommandDispatch.Proofs.Dispatcher.Items
import CommandDispatch.Proofs.Dispatcher.Lookup
import CommandDispatch.Proofs.Dispatcher.Module
import CommandDispatch.Proofs.Dispatcher.Outcome
import CommandDispatch.Proofs.Dispatcher.Realize
import CommandDispatch.Proofs.Dispatcher.Renaming
import CommandDispatch.Proofs.Dispatcher.RoundTrip
import CommandDispatch.Proofs.Dispatcher.Settable
import CommandDispatch.Proofs.Dispatcher.Start
import CommandDispatch.Proofs.Dispatcher.Statements
import CommandDispatch.Proofs.Dispatcher.Table
import CommandDispatch.Proofs.Dispatcher.Violation
import CommandDispatch.Proofs.Except
import CommandDispatch.Proofs.Files.Tree
import CommandDispatch.Proofs.Layout.Lines
import CommandDispatch.Proofs.Layout.Reading
import CommandDispatch.Proofs.Layout.Renaming
import CommandDispatch.Proofs.Layout.TokenText
import CommandDispatch.Proofs.Layout.Writing
import CommandDispatch.Proofs.Naming.Allocator
import CommandDispatch.Proofs.Naming.Capacity
import CommandDispatch.Proofs.Naming.History
import CommandDispatch.Proofs.Naming.Identifier
import CommandDispatch.Proofs.Naming.Stream
import CommandDispatch.Proofs.Naming.Word
import CommandDispatch.Proofs.Scan.Clash
import CommandDispatch.Proofs.Scan.Collection
import CommandDispatch.Proofs.Scan.Command
import CommandDispatch.Proofs.Scan.Directives
import CommandDispatch.Proofs.Scan.Layout
import CommandDispatch.Proofs.Scan.Line
import CommandDispatch.Proofs.Scan.Program
import CommandDispatch.Proofs.Scan.Rename
import CommandDispatch.Proofs.Scan.Revision
import CommandDispatch.Proofs.Scan.Signature
import CommandDispatch.Proofs.Scan.Sources
import CommandDispatch.Proofs.Source.Bare
import CommandDispatch.Proofs.Source.ExpressionTokens
import CommandDispatch.Proofs.Source.Items
import CommandDispatch.Proofs.Source.Lexeme
import CommandDispatch.Proofs.Source.Lexer
import CommandDispatch.Proofs.Source.Literal
import CommandDispatch.Proofs.Source.Name
import CommandDispatch.Proofs.Source.Parser
import CommandDispatch.Proofs.Source.PathText
import CommandDispatch.Proofs.Source.PatternTokens
import CommandDispatch.Proofs.Source.Phrase
import CommandDispatch.Proofs.Source.PlainPath
import CommandDispatch.Proofs.Source.Readable
import CommandDispatch.Proofs.Source.Rules
import CommandDispatch.Proofs.Source.StatementTokens
import CommandDispatch.Proofs.Source.StringLiteral
import CommandDispatch.Proofs.Source.Taking
import CommandDispatch.Proofs.Source.TypeTokens
import CommandDispatch.Proofs.Text.AsciiCase
import CommandDispatch.Proofs.Text.Blank
import CommandDispatch.Proofs.Text.ByteOrder
import CommandDispatch.Proofs.Text.Layout
import CommandDispatch.Proofs.Text.LowerCase
