import QuantumRisk.About
import QuantumRisk.Analysis
import QuantumRisk.Ast.Fault
import QuantumRisk.Ast.Graph
import QuantumRisk.Ast.Node
import QuantumRisk.Ast.SyntaxTree
import QuantumRisk.Ast.TypeName
import QuantumRisk.Ast.Walk
import QuantumRisk.Ast.WellFormed
import QuantumRisk.Console.Arguments
import QuantumRisk.Console.Form
import QuantumRisk.Console.Run
import QuantumRisk.Diagnostic
import QuantumRisk.Event
import QuantumRisk.Failure
import QuantumRisk.Fault
import QuantumRisk.FileSystem.Actions
import QuantumRisk.FileSystem.Basic
import QuantumRisk.FileSystem.Disk
import QuantumRisk.FileSystem.RealPath
import QuantumRisk.Finding
import QuantumRisk.Grammar.KindSet
import QuantumRisk.Grammar.Lookahead
import QuantumRisk.Grammar.Network
import QuantumRisk.Grammar.Parser
import QuantumRisk.Grammar.Phrase
import QuantumRisk.Grammar.Prediction
import QuantumRisk.Grammar.Stacks
import QuantumRisk.Grammar.Tree
import QuantumRisk.Json.Basic
import QuantumRisk.Json.Display
import QuantumRisk.Json.Limits
import QuantumRisk.Json.Printer
import QuantumRisk.Json.Reader
import QuantumRisk.Log.Record
import QuantumRisk.Log.Setup
import QuantumRisk.Log.Time
import QuantumRisk.Main
import QuantumRisk.Match
import QuantumRisk.Number.Binary64
import QuantumRisk.Number.Fixed
import QuantumRisk.Number.Shortest
import QuantumRisk.Path
import QuantumRisk.Proofs.Analysis.AllOrNothing
import QuantumRisk.Proofs.Analysis.Clean
import QuantumRisk.Proofs.Analysis.LineEnds
import QuantumRisk.Proofs.Analysis.Outcomes
import QuantumRisk.Proofs.Analysis.Surroundings
import QuantumRisk.Proofs.Ast.DepthFirst
import QuantumRisk.Proofs.Ast.Loop
import QuantumRisk.Proofs.Ast.Placed
import QuantumRisk.Proofs.Ast.Rearrangement
import QuantumRisk.Proofs.Ast.TypeShape
import QuantumRisk.Proofs.Ast.TypeText
import QuantumRisk.Proofs.FileSystem.Actions
import QuantumRisk.Proofs.FileSystem.Canonical
import QuantumRisk.Proofs.FileSystem.Hidden
import QuantumRisk.Proofs.FileSystem.OneFile
import QuantumRisk.Proofs.FileSystem.PlainNames
import QuantumRisk.Proofs.FileSystem.Table
import QuantumRisk.Proofs.FileSystem.Walk
import QuantumRisk.Proofs.Grammar.Conforming
import QuantumRisk.Proofs.Grammar.Parts
import QuantumRisk.Proofs.Json.Leaves
import QuantumRisk.Proofs.Json.Limits
import QuantumRisk.Proofs.Json.Literals
import QuantumRisk.Proofs.Json.Numerals
import QuantumRisk.Proofs.Json.RoundTrip
import QuantumRisk.Proofs.Json.Visible
import QuantumRisk.Proofs.Log.Line
import QuantumRisk.Proofs.Match.Counting
import QuantumRisk.Proofs.Match.Counts
import QuantumRisk.Proofs.Match.Dispatch
import QuantumRisk.Proofs.Match.Extension
import QuantumRisk.Proofs.Match.Findings
import QuantumRisk.Proofs.Match.Nodes
import QuantumRisk.Proofs.Match.OrderIndependence
import QuantumRisk.Proofs.Match.Places
import QuantumRisk.Proofs.Path
import QuantumRisk.Proofs.Report.Build
import QuantumRisk.Proofs.Report.Invariant
import QuantumRisk.Proofs.Report.RoundTrip
import QuantumRisk.Proofs.Solidity.Build
import QuantumRisk.Proofs.Solidity.Clean
import QuantumRisk.Proofs.Solidity.Ensures
import QuantumRisk.Proofs.Solidity.Legible
import QuantumRisk.Proofs.Solidity.Places
import QuantumRisk.Proofs.Store.Chronicle
import QuantumRisk.Proofs.Store.Concurrent
import QuantumRisk.Proofs.Store.Damage
import QuantumRisk.Proofs.Store.Faults
import QuantumRisk.Proofs.Store.FirstFree
import QuantumRisk.Proofs.Store.Hidden
import QuantumRisk.Proofs.Store.Listing
import QuantumRisk.Proofs.Store.Load
import QuantumRisk.Proofs.Store.Lookup
import QuantumRisk.Proofs.Store.Names
import QuantumRisk.Proofs.Store.Tokens
import QuantumRisk.Proofs.Store.Write
import QuantumRisk.Proofs.Store.Writers
import QuantumRisk.Proofs.Text.RoundTrip
import QuantumRisk.Proofs.Web.Agreement
import QuantumRisk.Proofs.Web.Confinement
import QuantumRisk.Proofs.Workspace.Load
import QuantumRisk.Report
import QuantumRisk.Risk
import QuantumRisk.Rule
import QuantumRisk.Settings.Basic
import QuantumRisk.Settings.Dotenv
import QuantumRisk.Solidity.Ast
import QuantumRisk.Solidity.Grammar
import QuantumRisk.Solidity.Lexer
import QuantumRisk.Solidity.Parse
import QuantumRisk.Solidity.Vocabulary
import QuantumRisk.SourceUnit
import QuantumRisk.Store.Basic
import QuantumRisk.Store.Summary
import QuantumRisk.Store.Token
import QuantumRisk.Text.Blank
import QuantumRisk.Text.Case
import QuantumRisk.Text.Integer
import QuantumRisk.Text.Lines
import QuantumRisk.Text.Percent
import QuantumRisk.Text.Printable
import QuantumRisk.Text.Quoted
import QuantumRisk.Text.Template
import QuantumRisk.Text.Utf8
import QuantumRisk.Validation
import QuantumRisk.Web.Address
import QuantumRisk.Web.Description
import QuantumRisk.Web.Problem
import QuantumRisk.Web.Service
import QuantumRisk.Workspace
