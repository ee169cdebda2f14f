import ImportAtlas.Analysis.Batch
import ImportAtlas.Analysis.Document
import ImportAtlas.Analysis.Entry
import ImportAtlas.Analysis.EntrySearch
import ImportAtlas.Analysis.Pool
import ImportAtlas.Analysis.Result
import ImportAtlas.Assoc
import ImportAtlas.Command.Analyze
import ImportAtlas.Command.Arguments
import ImportAtlas.Command.Configure
import ImportAtlas.Command.Inspect
import ImportAtlas.Command.Option
import ImportAtlas.Command.Outcome
import ImportAtlas.Command.Place
import ImportAtlas.Command.Request
import ImportAtlas.Command.Run
import ImportAtlas.Command.Watch
import ImportAtlas.Console.Library
import ImportAtlas.Console.Printing
import ImportAtlas.Decimal.Double
import ImportAtlas.Decimal.Reader
import ImportAtlas.Decimal.Shortest
import ImportAtlas.Disk.Basic
import ImportAtlas.Disk.Change
import ImportAtlas.Disk.Edit
import ImportAtlas.Disk.Fault
import ImportAtlas.Folder.Drawing
import ImportAtlas.Folder.Probe
import ImportAtlas.Graph.Basic
import ImportAtlas.Graph.Group
import ImportAtlas.Json.Reader
import ImportAtlas.Json.Writer
import ImportAtlas.Main
import ImportAtlas.Path.Basic
import ImportAtlas.Path.Kind
import ImportAtlas.Project.Boundary
import ImportAtlas.Project.Context
import ImportAtlas.Proofs.Analysis.Entry
import ImportAtlas.Proofs.Analysis.Isolation
import ImportAtlas.Proofs.Analysis.Merging
import ImportAtlas.Proofs.Analysis.Outcomes
import ImportAtlas.Proofs.Analysis.Pool
import ImportAtlas.Proofs.Analysis.Totals
import ImportAtlas.Proofs.Analysis.Validation
import ImportAtlas.Proofs.Assoc
import ImportAtlas.Proofs.Command.Analyze
import ImportAtlas.Proofs.Command.Configure
import ImportAtlas.Proofs.Command.SettingsTable
import ImportAtlas.Proofs.Console.Printing
import ImportAtlas.Proofs.Disk.Below
import ImportAtlas.Proofs.Disk.Edit
import ImportAtlas.Proofs.Disk.Elsewhere
import ImportAtlas.Proofs.Disk.Files
import ImportAtlas.Proofs.Disk.Look
import ImportAtlas.Proofs.Folder.Probe
import ImportAtlas.Proofs.Graph.Counting
import ImportAtlas.Proofs.Graph.Faithful
import ImportAtlas.Proofs.Graph.Groups
import ImportAtlas.Proofs.Graph.Merge
import ImportAtlas.Proofs.Graph.Totals
import ImportAtlas.Proofs.Json.Lines
import ImportAtlas.Proofs.Json.Number
import ImportAtlas.Proofs.Json.RoundTrip
import ImportAtlas.Proofs.Json.Strings
import ImportAtlas.Proofs.Path.Normal
import ImportAtlas.Proofs.Path.Walk
import ImportAtlas.Proofs.Project.Boundary
import ImportAtlas.Proofs.Project.Inside
import ImportAtlas.Proofs.Project.Naming
import ImportAtlas.Proofs.Project.Pattern
import ImportAtlas.Proofs.Reference.Alias
import ImportAtlas.Proofs.Reference.Clauses
import ImportAtlas.Proofs.Reference.Declarations
import ImportAtlas.Proofs.Reference.Dynamic
import ImportAtlas.Proofs.Reference.Extraction
import ImportAtlas.Proofs.Reference.Items
import ImportAtlas.Proofs.Reference.Layout
import ImportAtlas.Proofs.Reference.Located
import ImportAtlas.Proofs.Reference.Scanning
import ImportAtlas.Proofs.Report.Block
import ImportAtlas.Proofs.Report.Headings
import ImportAtlas.Proofs.Report.LastUpdate
import ImportAtlas.Proofs.Report.Lines
import ImportAtlas.Proofs.Report.OneSection
import ImportAtlas.Proofs.Report.Section
import ImportAtlas.Proofs.Report.Shown
import ImportAtlas.Proofs.Report.Update
import ImportAtlas.Proofs.Settings.Calls
import ImportAtlas.Proofs.Settings.Judging
import ImportAtlas.Proofs.Settings.Opened
import ImportAtlas.Proofs.Settings.Reload
import ImportAtlas.Proofs.Settings.Reset
import ImportAtlas.Proofs.Settings.Saved
import ImportAtlas.Proofs.Standard.Markup
import ImportAtlas.Proofs.Standard.Settings
import ImportAtlas.Proofs.Text.LineEnds
import ImportAtlas.Proofs.Text.Trim
import ImportAtlas.Proofs.Tree.Lines
import ImportAtlas.Proofs.Tree.Nesting
import ImportAtlas.Proofs.Tree.Placing
import ImportAtlas.Proofs.Tree.Reading
import ImportAtlas.Proofs.Walk.Account
import ImportAtlas.Proofs.Walk.Boundary
import ImportAtlas.Proofs.Walk.Call
import ImportAtlas.Proofs.Walk.DepthFirst
import ImportAtlas.Proofs.Walk.Expansion
import ImportAtlas.Proofs.Walk.Growth
import ImportAtlas.Proofs.Walk.Limit
import ImportAtlas.Proofs.Walk.Lists
import ImportAtlas.Proofs.Walk.Locality
import ImportAtlas.Proofs.Walk.Order
import ImportAtlas.Proofs.Walk.Reach
import ImportAtlas.Proofs.Walk.Shared
import ImportAtlas.Proofs.Watch.Interleaving
import ImportAtlas.Proofs.Watch.Settling
import ImportAtlas.Proofs.Watch.Tracked
import ImportAtlas.Reference.Extract
import ImportAtlas.Reference.Form
import ImportAtlas.Reference.Resolve
import ImportAtlas.Reference.Token
import ImportAtlas.Report.Markdown
import ImportAtlas.Report.Section
import ImportAtlas.Settings.Key
import ImportAtlas.Settings.Library
import ImportAtlas.Settings.Store
import ImportAtlas.Standard.Console
import ImportAtlas.Standard.Convert
import ImportAtlas.Standard.EnvFile
import ImportAtlas.Standard.Markup
import ImportAtlas.Standard.Screen
import ImportAtlas.Standard.Settings
import ImportAtlas.Standard.Table
import ImportAtlas.Text.Blank
import ImportAtlas.Text.Digit
import ImportAtlas.Text.Point
import ImportAtlas.Text.PrintableTable
import ImportAtlas.Text.Quoted
import ImportAtlas.Text.Search
import ImportAtlas.Text.Utf8
import ImportAtlas.Text.Width
import ImportAtlas.Text.WidthTable
import ImportAtlas.Text.Word
import ImportAtlas.Tree.Basic
import ImportAtlas.Tree.Render
import ImportAtlas.Walk.Basic
import ImportAtlas.Walk.Outline
import ImportAtlas.Watch.Debounce
import ImportAtlas.Watch.Event
import ImportAtlas.Watch.Loop
import ImportAtlas.Watch.Session
import ImportAtlas.Watch.Watcher
