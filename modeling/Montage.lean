import Montage.Arithmetic
import Montage.Calendar
import Montage.CommandLine.Arguments
import Montage.CommandLine.Flag
import Montage.CommandLine.Help
import Montage.CommandLine.Run
import Montage.Compiler
import Montage.Config
import Montage.Config.Settings
import Montage.Decimal.Binary
import Montage.Decimal.FloatText
import Montage.Decimal.Numeral
import Montage.Decimal.Shortest
import Montage.Failure
import Montage.Files.Change
import Montage.Files.Lookup
import Montage.Files.Real
import Montage.Files.Tree
import Montage.Filter
import Montage.Graph.Basic
import Montage.Graph.Builder
import Montage.Graph.Label
import Montage.Host.Action
import Montage.Host.Basic
import Montage.Host.Limit
import Montage.Json.Reader
import Montage.Main
import Montage.Media
import Montage.Number
import Montage.OutputName
import Montage.Path
import Montage.Plan.Assemble
import Montage.Plan.Basic
import Montage.Plan.Command
import Montage.Plan.Edit
import Montage.Plan.Join
import Montage.Plan.Recipes
import Montage.Plan.Sound
import Montage.Proofs.Alike
import Montage.Proofs.CommandLine.Loading
import Montage.Proofs.CommandLine.Status
import Montage.Proofs.Compiler.Crash
import Montage.Proofs.Compiler.Draft
import Montage.Proofs.Compiler.Effects
import Montage.Proofs.Compiler.Failures
import Montage.Proofs.Compiler.FiniteNumbers
import Montage.Proofs.Compiler.Handlers
import Montage.Proofs.Compiler.Inputs
import Montage.Proofs.Compiler.ListTexts
import Montage.Proofs.Compiler.Lookups
import Montage.Proofs.Compiler.Plans
import Montage.Proofs.Compiler.Probing
import Montage.Proofs.Compiler.Reading
import Montage.Proofs.Compiler.SoundSources
import Montage.Proofs.Compiler.Spellings
import Montage.Proofs.Config.NoValue
import Montage.Proofs.Config.Usable
import Montage.Proofs.Crash
import Montage.Proofs.Decimal.Double
import Montage.Proofs.Decimal.Numeral
import Montage.Proofs.Decimal.Order
import Montage.Proofs.Decimal.Overflow
import Montage.Proofs.Decimal.Rounding
import Montage.Proofs.Decimal.Whole
import Montage.Proofs.Ends
import Montage.Proofs.Failure
import Montage.Proofs.Files.Change
import Montage.Proofs.Files.Lookup
import Montage.Proofs.Files.Real
import Montage.Proofs.Graph.Builder
import Montage.Proofs.Graph.Label
import Montage.Proofs.Graph.Reading
import Montage.Proofs.Graph.Refused
import Montage.Proofs.Graph.Signal
import Montage.Proofs.Graph.Text
import Montage.Proofs.Graph.WellFormed
import Montage.Proofs.Host.Action
import Montage.Proofs.Host.Limit
import Montage.Proofs.Json.Reader
import Montage.Proofs.Json.Writable
import Montage.Proofs.Media
import Montage.Proofs.Media.Duration
import Montage.Proofs.Number
import Montage.Proofs.OutputName
import Montage.Proofs.Path
import Montage.Proofs.Plan.Acceptance
import Montage.Proofs.Plan.Assemble
import Montage.Proofs.Plan.Call
import Montage.Proofs.Plan.ClipLabels
import Montage.Proofs.Plan.Closed
import Montage.Proofs.Plan.CommandReading
import Montage.Proofs.Plan.Crash
import Montage.Proofs.Plan.DroppedSettings
import Montage.Proofs.Plan.Edit
import Montage.Proofs.Plan.EditFlow
import Montage.Proofs.Plan.FiniteNumbers
import Montage.Proofs.Plan.GraphText
import Montage.Proofs.Plan.Join
import Montage.Proofs.Plan.JoinFlow
import Montage.Proofs.Plan.Numbers
import Montage.Proofs.Plan.Parts
import Montage.Proofs.Plan.PlannedGraphs
import Montage.Proofs.Plan.Recipes
import Montage.Proofs.Plan.RecipesAsEdits
import Montage.Proofs.Plan.SingleUse
import Montage.Proofs.Plan.SoundSources
import Montage.Proofs.Plan.Sync
import Montage.Proofs.Render.Bar
import Montage.Proofs.Render.Cleanup
import Montage.Proofs.Render.Escapes
import Montage.Proofs.Render.Modes
import Montage.Proofs.Render.Outcome
import Montage.Proofs.Render.Survival
import Montage.Proofs.Request.Fields
import Montage.Proofs.Request.FilterText
import Montage.Proofs.Request.Refusals
import Montage.Proofs.Resize
import Montage.Proofs.Resize.Canonical
import Montage.Proofs.Resolver
import Montage.Proofs.Tempo
import Montage.Proofs.Tempo.Endless
import Montage.Proofs.Tempo.Stages
import Montage.Proofs.Text.CodePoint
import Montage.Proofs.Text.Trim
import Montage.Proofs.Value.Text
import Montage.Proofs.Yaml.Keys
import Montage.Render
import Montage.Request.Fields
import Montage.Request.File
import Montage.Resize
import Montage.Resolver
import Montage.Tempo
import Montage.Text.Alphanumeric
import Montage.Text.Blank
import Montage.Text.Case
import Montage.Text.CharSet
import Montage.Text.CodePoint
import Montage.Text.Digit
import Montage.Text.Lines
import Montage.Text.Quoted
import Montage.Text.ShellWord
import Montage.Text.Visible
import Montage.Value.Basic
import Montage.Value.Numeral
import Montage.Value.Text
import Montage.Yaml.Cursor
import Montage.Yaml.Document
import Montage.Yaml.File
import Montage.Yaml.Node
import Montage.Yaml.Printer
import Montage.Yaml.Scalar
import Montage.Yaml.Scalars
import Montage.Yaml.Tag
import Montage.Yaml.Token
