import NotebookTree.Main
import NotebookTree.Proofs.Outcome
import NotebookTree.Proofs.Prose.Conservation
import NotebookTree.Proofs.Frontmatter
import NotebookTree.Proofs.Notebook.Isolation
import NotebookTree.Proofs.Notebook.Shape
import NotebookTree.Proofs.Notebook.Leniency
import NotebookTree.Proofs.Notebook.RoundTrip
import NotebookTree.Proofs.Prose.Height
import NotebookTree.Proofs.Prose.Nesting
import NotebookTree.Proofs.Prose.Limit
import NotebookTree.Proofs.Prose.Joining
import NotebookTree.Proofs.Prose.Meaning
import NotebookTree.Proofs.Prose.Text
import NotebookTree.Proofs.Prose.Elements
import NotebookTree.Proofs.Prose.Table
import NotebookTree.Proofs.Prose.Image
import NotebookTree.Proofs.Html.Spine
import NotebookTree.Proofs.Html.Steady
import NotebookTree.Proofs.Html.Adoption
import NotebookTree.Proofs.Html.Moves.Adoption
import NotebookTree.Proofs.Html.Moves.Body
import NotebookTree.Proofs.Html.Moves.Modes
import NotebookTree.Proofs.Html.Tags
import NotebookTree.Proofs.Html.StandIn
import NotebookTree.Proofs.Html.Reading
import NotebookTree.Proofs.Html.TextElement
import NotebookTree.Proofs.Html.Fragment
import NotebookTree.Proofs.Html.Writing
import NotebookTree.Proofs.Html.Path
import NotebookTree.Proofs.Html.RoundTrip
import NotebookTree.Proofs.Html.Frame.Basic
import NotebookTree.Proofs.Html.Frame.Tags
import NotebookTree.Proofs.Html.Frame.Flow
import NotebookTree.Proofs.Html.Arrival
import NotebookTree.Proofs.Html.Table
import NotebookTree.Proofs.Html.Cell
import NotebookTree.Proofs.Html.Selection
import NotebookTree.Proofs.Html.Template
import NotebookTree.Proofs.Html.TextContent
import NotebookTree.Proofs.Html.Context
import NotebookTree.Proofs.Html.Rendering
import NotebookTree.Proofs.Html.Relabeling.Basic
import NotebookTree.Proofs.Html.Relabeling.Building
import NotebookTree.Proofs.Html.Relabeling.Adoption
import NotebookTree.Proofs.Html.Relabeling.Body
import NotebookTree.Proofs.Html.Relabeling.Modes
import NotebookTree.Proofs.Html.Relabeling.Slots
import NotebookTree.Proofs.Html.Relabeling.Respelling
import NotebookTree.Proofs.Prose.Reparse
import NotebookTree.Proofs.Prose.Hygiene
import NotebookTree.Proofs.Notebook.Metadata
import NotebookTree.Proofs.Json.Text
import NotebookTree.Proofs.Json.Reading
import NotebookTree.Proofs.Record
import NotebookTree.Proofs.Siblings
import NotebookTree.Proofs.Markdown.Regular
import NotebookTree.Proofs.Command
import NotebookTree.Proofs.Node.Markup
import NotebookTree.Proofs.Configuration.Store
import NotebookTree.Proofs.Prose.Balance
import NotebookTree.Proofs.Node.Splicing
import NotebookTree.Proofs.Html.Lowering
import NotebookTree.Proofs.Html.Sourced.Building
import NotebookTree.Proofs.Html.Sourced.Moves
import NotebookTree.Proofs.Html.Attributes
import NotebookTree.Proofs.Text.Lines
import NotebookTree.Proofs.Prose.Metadata
import NotebookTree.Proofs.Yaml.Keys
import NotebookTree.Proofs.Prose.Frontmatter
import NotebookTree.Proofs.Html.Families
import NotebookTree.Proofs.Html.Apart.Stack
import NotebookTree.Proofs.Html.Apart.Building
import NotebookTree.Proofs.Html.Apart.Adoption
import NotebookTree.Proofs.Html.Apart.Moves
import NotebookTree.Proofs.Html.Siblings
import NotebookTree.Proofs.Prose.Siblings
import NotebookTree.Proofs.Node.Form
import NotebookTree.Proofs.Toml.Setting
import NotebookTree.Proofs.Toml.Value
import NotebookTree.Proofs.Configuration.Override
import NotebookTree.Proofs.Toml.Line
import NotebookTree.Proofs.Configuration.RoundTrip
