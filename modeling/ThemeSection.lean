import ThemeSection.Artifact.Consistency
import ThemeSection.Artifact.QuoteRepair
import ThemeSection.Assets
import ThemeSection.Block.Binding
import ThemeSection.Block.Collapse
import ThemeSection.Block.Definition
import ThemeSection.Block.Detection
import ThemeSection.Block.Instance
import ThemeSection.Block.Parts
import ThemeSection.Block.Pattern
import ThemeSection.Block.Reading
import ThemeSection.Change
import ThemeSection.Chars.Blank
import ThemeSection.Chars.Case
import ThemeSection.Chars.CaseTable
import ThemeSection.Chars.Cluster
import ThemeSection.Chars.ClusterTable
import ThemeSection.Chars.Code
import ThemeSection.Chars.Search
import ThemeSection.Chars.Word
import ThemeSection.Chars.WordTable
import ThemeSection.Command.Arguments
import ThemeSection.Command.Run
import ThemeSection.Conversion
import ThemeSection.Decimal.Read
import ThemeSection.Decimal.Shortest
import ThemeSection.Digest.Sha256
import ThemeSection.Document.Basic
import ThemeSection.Document.Edit
import ThemeSection.FeaturedProducts
import ThemeSection.Fragment.Nesting
import ThemeSection.Fragment.Siblings
import ThemeSection.Fragment.Signal
import ThemeSection.Head.Merger
import ThemeSection.Head.Resource
import ThemeSection.Head.Version
import ThemeSection.Json.Printer
import ThemeSection.Json.Reader
import ThemeSection.Json.Shape
import ThemeSection.Json.Value
import ThemeSection.Liquid.Basic
import ThemeSection.Liquid.Segment
import ThemeSection.Liquid.Template
import ThemeSection.Main
import ThemeSection.Markup.Content
import ThemeSection.Markup.Draft.Basic
import ThemeSection.Markup.Draft.Foreign
import ThemeSection.Markup.Draft.Formatting
import ThemeSection.Markup.Draft.Mode
import ThemeSection.Markup.Entity
import ThemeSection.Markup.EntityTable
import ThemeSection.Markup.Parse
import ThemeSection.Markup.Place
import ThemeSection.Markup.Printer
import ThemeSection.Markup.Token
import ThemeSection.Markup.Tree
import ThemeSection.Options
import ThemeSection.PageSettings.Scope
import ThemeSection.PageSettings.Sweep
import ThemeSection.PageType
import ThemeSection.PageType.Classify
import ThemeSection.Proofs.Artifact.Consistency
import ThemeSection.Proofs.Artifact.QuoteRepair
import ThemeSection.Proofs.Block.Binding
import ThemeSection.Proofs.Block.Collapse
import ThemeSection.Proofs.Block.Definition
import ThemeSection.Proofs.Block.Detection
import ThemeSection.Proofs.Block.Keys
import ThemeSection.Proofs.Block.Naming
import ThemeSection.Proofs.Chars.Search
import ThemeSection.Proofs.Content
import ThemeSection.Proofs.Conversion
import ThemeSection.Proofs.Document.Basic
import ThemeSection.Proofs.Document.Edit
import ThemeSection.Proofs.Document.Printed
import ThemeSection.Proofs.Document.Rewrite
import ThemeSection.Proofs.Document.Sound
import ThemeSection.Proofs.Json.RoundTrip
import ThemeSection.Proofs.Json.Search
import ThemeSection.Proofs.Json.Shape
import ThemeSection.Proofs.Json.Value
import ThemeSection.Proofs.Liquid.Nesting
import ThemeSection.Proofs.Liquid.Reference
import ThemeSection.Proofs.Liquid.Segment
import ThemeSection.Proofs.Liquid.Token
import ThemeSection.Proofs.Liquid.Written
import ThemeSection.Proofs.Markup.Places
import ThemeSection.Proofs.Markup.Update
import ThemeSection.Proofs.PageSettings.Sweep
import ThemeSection.Proofs.Schema.Basic
import ThemeSection.Proofs.Schema.BlockId
import ThemeSection.Proofs.Schema.Setting
import ThemeSection.Proofs.Style.Background
import ThemeSection.Proofs.Text.Slug
import ThemeSection.Schema.Basic
import ThemeSection.Schema.Block
import ThemeSection.Schema.Default
import ThemeSection.Schema.Kind
import ThemeSection.Schema.PageConfiguration
import ThemeSection.Schema.Setting
import ThemeSection.Selector.Basic
import ThemeSection.Selector.Match
import ThemeSection.Selector.Reader
import ThemeSection.Selector.Token
import ThemeSection.Style.Background
import ThemeSection.Text.Basic
import ThemeSection.Text.Label
import ThemeSection.Text.Mention
import ThemeSection.Text.Slug
import ThemeSection.Toml.Reader
import ThemeSection.Toml.Table
import ThemeSection.Proofs.Assets
import ThemeSection.Proofs.Block.Pass
import ThemeSection.Proofs.Content.Output
import ThemeSection.Proofs.Document.Frame
import ThemeSection.Proofs.PageSettings.Kept
import ThemeSection.Proofs.PageSettings.Follows
import ThemeSection.Proofs.PageSettings.Shown
import ThemeSection.Proofs.Head.Merger
import ThemeSection.Proofs.Artifact.Reprint
import ThemeSection.Proofs.Artifact.Agreement
import ThemeSection.Proofs.Head.Remerge
import ThemeSection.Proofs.Command.Outputs
import ThemeSection.Proofs.Head.Resources
import ThemeSection.Proofs.Content.Rejection
import ThemeSection.Proofs.Block.Faithful
import ThemeSection.Proofs.Artifact.BareQuotes
import ThemeSection.Proofs.Block.Defaults
import ThemeSection.Proofs.PageSettings.Allocation
import ThemeSection.Proofs.PageSettings.Repeat
import ThemeSection.Proofs.PageSettings.InPlace
import ThemeSection.Proofs.Block.Paragraphs
import ThemeSection.Proofs.Block.Members
import ThemeSection.Proofs.Block.Items
import ThemeSection.Proofs.Document.Written
import ThemeSection.Proofs.Block.ColumnParts
import ThemeSection.Proofs.Block.Columns
import ThemeSection.Proofs.Head.Families
import ThemeSection.Proofs.Block.Injection
import ThemeSection.Proofs.FeaturedProducts.Loop
import ThemeSection.Proofs.Chars.Case
import ThemeSection.Proofs.Chars.Separated
import ThemeSection.Proofs.Block.Types
import ThemeSection.Proofs.Liquid.Hook
import ThemeSection.Proofs.Text.Label
import ThemeSection.Proofs.Liquid.Script
import ThemeSection.Proofs.Style.Token
import ThemeSection.Proofs.Fragment.Nesting
import ThemeSection.Proofs.Fragment.Siblings
import ThemeSection.Proofs.Block.Enclosed
