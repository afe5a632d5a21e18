import MessageCatalog.Bundle.Compiled
import MessageCatalog.Bundle.Module
import MessageCatalog.Bundle.Resource
import MessageCatalog.Bundle.Template
import MessageCatalog.Command.Arguments
import MessageCatalog.Command.Run
import MessageCatalog.Config.Options
import MessageCatalog.Config.Setting
import MessageCatalog.Config.Target
import MessageCatalog.Config.Toml
import MessageCatalog.Content
import MessageCatalog.Failure
import MessageCatalog.Files.Glob
import MessageCatalog.Files.Path
import MessageCatalog.Files.Tree
import MessageCatalog.Json.Reader
import MessageCatalog.Json.Value
import MessageCatalog.Json.Writer
import MessageCatalog.Keyed
import MessageCatalog.Locale.Name
import MessageCatalog.Locale.Rule
import MessageCatalog.Locale.RuleTable
import MessageCatalog.Main
import MessageCatalog.Markup.Element
import MessageCatalog.Markup.Event
import MessageCatalog.Markup.Minify
import MessageCatalog.Markup.Reference
import MessageCatalog.Markup.ReferenceTable
import MessageCatalog.Markup.Render
import MessageCatalog.Markup.Sanitize
import MessageCatalog.Markup.StartTag
import MessageCatalog.Markup.Tokenizer
import MessageCatalog.Markup.Tree
import MessageCatalog.Message.Basic
import MessageCatalog.Message.Compile
import MessageCatalog.Message.Engine
import MessageCatalog.Message.Parser
import MessageCatalog.Message.Walk
import MessageCatalog.Number.Double
import MessageCatalog.Number.Shortest
import MessageCatalog.Occurrence.Basic
import MessageCatalog.Occurrence.Call
import MessageCatalog.Occurrence.Inner
import MessageCatalog.Occurrence.Page
import MessageCatalog.Occurrence.Source
import MessageCatalog.Pattern.Basic
import MessageCatalog.Pattern.Match
import MessageCatalog.Pattern.Reader
import MessageCatalog.Project.Build
import MessageCatalog.Project.File
import MessageCatalog.Project.Run
import MessageCatalog.Project.Session
import MessageCatalog.Project.Sheets
import MessageCatalog.Project.Update
import MessageCatalog.Proofs.Basic
import MessageCatalog.Proofs.Bundle.Filled
import MessageCatalog.Proofs.Bundle.Independent
import MessageCatalog.Proofs.Bundle.Rendered
import MessageCatalog.Proofs.Bundle.Wrapped
import MessageCatalog.Proofs.Content
import MessageCatalog.Proofs.Files.Follow
import MessageCatalog.Proofs.Files.Inside
import MessageCatalog.Proofs.Files.Overwrite
import MessageCatalog.Proofs.Files.Proper
import MessageCatalog.Proofs.Files.Resolved
import MessageCatalog.Proofs.Files.Search
import MessageCatalog.Proofs.Files.Shape
import MessageCatalog.Proofs.Files.Write
import MessageCatalog.Proofs.Json.Faithful
import MessageCatalog.Proofs.Json.Numeral
import MessageCatalog.Proofs.Json.Quoted
import MessageCatalog.Proofs.Json.Written
import MessageCatalog.Proofs.Keyed
import MessageCatalog.Proofs.Markup.Again
import MessageCatalog.Proofs.Markup.Attributes
import MessageCatalog.Proofs.Markup.Chunk
import MessageCatalog.Proofs.Markup.Construct
import MessageCatalog.Proofs.Markup.Escaped
import MessageCatalog.Proofs.Markup.Event
import MessageCatalog.Proofs.Markup.Fault
import MessageCatalog.Proofs.Markup.KeptText
import MessageCatalog.Proofs.Markup.Legible
import MessageCatalog.Proofs.Markup.Lossless
import MessageCatalog.Proofs.Markup.Minified
import MessageCatalog.Proofs.Markup.Names
import MessageCatalog.Proofs.Markup.Nesting
import MessageCatalog.Proofs.Markup.Orderly
import MessageCatalog.Proofs.Markup.Pass
import MessageCatalog.Proofs.Markup.Place
import MessageCatalog.Proofs.Markup.PlainText
import MessageCatalog.Proofs.Markup.Proper
import MessageCatalog.Proofs.Markup.RawText
import MessageCatalog.Proofs.Markup.Rebuilt
import MessageCatalog.Proofs.Markup.Rendered
import MessageCatalog.Proofs.Markup.Reread
import MessageCatalog.Proofs.Markup.Reworded
import MessageCatalog.Proofs.Markup.Runs
import MessageCatalog.Proofs.Markup.Sanitize
import MessageCatalog.Proofs.Markup.Slice
import MessageCatalog.Proofs.Markup.Space
import MessageCatalog.Proofs.Markup.Spelled
import MessageCatalog.Proofs.Markup.Stack
import MessageCatalog.Proofs.Markup.StartTag
import MessageCatalog.Proofs.Markup.TagText
import MessageCatalog.Proofs.Markup.TextContent
import MessageCatalog.Proofs.Markup.Token
import MessageCatalog.Proofs.Markup.Tree
import MessageCatalog.Proofs.Message.Exact
import MessageCatalog.Proofs.Message.Filling
import MessageCatalog.Proofs.Message.Grammar
import MessageCatalog.Proofs.Message.Lossless
import MessageCatalog.Proofs.Message.Printer
import MessageCatalog.Proofs.Message.Scanner
import MessageCatalog.Proofs.Message.Walk
import MessageCatalog.Proofs.Message.WellFormed
import MessageCatalog.Proofs.Number.Rounding
import MessageCatalog.Proofs.Number.Shortest
import MessageCatalog.Proofs.Number.Written
import MessageCatalog.Proofs.Occurrence.Call
import MessageCatalog.Proofs.Occurrence.Inner
import MessageCatalog.Proofs.Occurrence.Line
import MessageCatalog.Proofs.Occurrence.Order
import MessageCatalog.Proofs.Occurrence.Scan
import MessageCatalog.Proofs.Occurrence.Source
import MessageCatalog.Proofs.Pattern.Match
import MessageCatalog.Proofs.Project.Action
import MessageCatalog.Proofs.Project.Again
import MessageCatalog.Proofs.Project.Alongside
import MessageCatalog.Proofs.Project.Contained
import MessageCatalog.Proofs.Project.Gathered
import MessageCatalog.Proofs.Project.Loaded
import MessageCatalog.Proofs.Project.LocalePath
import MessageCatalog.Proofs.Project.Mode
import MessageCatalog.Proofs.Project.Purge
import MessageCatalog.Proofs.Project.Success
import MessageCatalog.Proofs.Project.Taken
import MessageCatalog.Proofs.Project.Takes
import MessageCatalog.Proofs.Project.Travel
import MessageCatalog.Proofs.Project.Update
import MessageCatalog.Proofs.Project.WorkingSet
import MessageCatalog.Proofs.Script.Denotes
import MessageCatalog.Proofs.Script.Encoded
import MessageCatalog.Proofs.Script.Literal
import MessageCatalog.Proofs.Script.Walk
import MessageCatalog.Proofs.Sheet.Dialect
import MessageCatalog.Proofs.Sheet.Lines
import MessageCatalog.Proofs.Sheet.RoundTrip
import MessageCatalog.Proofs.Sheet.Rows
import MessageCatalog.Proofs.Store.Broken
import MessageCatalog.Proofs.Store.Meaning
import MessageCatalog.Proofs.Store.Merge
import MessageCatalog.Proofs.Store.Order
import MessageCatalog.Proofs.Store.Stable
import MessageCatalog.Proofs.Store.Written
import MessageCatalog.Proofs.Text.Cursor
import MessageCatalog.Proofs.Text.Lowercase
import MessageCatalog.Proofs.Text.Run
import MessageCatalog.Proofs.Text.Search
import MessageCatalog.Proofs.Text.Utf8
import MessageCatalog.Proofs.Tidy
import MessageCatalog.Proofs.Walk
import MessageCatalog.Report.Log
import MessageCatalog.Report.Problem
import MessageCatalog.Script.Automaton
import MessageCatalog.Script.Grammar
import MessageCatalog.Script.Grammar.Expression
import MessageCatalog.Script.Grammar.Fragment
import MessageCatalog.Script.Grammar.Markup
import MessageCatalog.Script.Grammar.Object
import MessageCatalog.Script.Grammar.Statement
import MessageCatalog.Script.Item
import MessageCatalog.Script.Lexeme
import MessageCatalog.Script.Literal
import MessageCatalog.Script.Production
import MessageCatalog.Script.Reading
import MessageCatalog.Script.Rule
import MessageCatalog.Script.Scan
import MessageCatalog.Script.Stack
import MessageCatalog.Script.Terminal
import MessageCatalog.Script.Token
import MessageCatalog.Script.Tree
import MessageCatalog.Script.Walk
import MessageCatalog.Sheet.Import
import MessageCatalog.Sheet.Reader
import MessageCatalog.Sheet.Writer
import MessageCatalog.Store.Basic
import MessageCatalog.Store.Entry
import MessageCatalog.Text.CaseTable
import MessageCatalog.Text.Character
import MessageCatalog.Text.Cursor
import MessageCatalog.Text.PrintTable
import MessageCatalog.Text.Quoted
import MessageCatalog.Text.Search
import MessageCatalog.Text.Surrogate
import MessageCatalog.Text.Utf8
import MessageCatalog.Text.WordTable
