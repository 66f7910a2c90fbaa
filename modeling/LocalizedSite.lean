import LocalizedSite.Command.Arguments
import LocalizedSite.Command.Basic
import LocalizedSite.Command.Message
import LocalizedSite.Command.Run
import LocalizedSite.Config.Basic
import LocalizedSite.Config.Fault
import LocalizedSite.Config.Read
import LocalizedSite.Config.Setting
import LocalizedSite.Dictionary.Basic
import LocalizedSite.Dictionary.Merge
import LocalizedSite.Dictionary.Refresh
import LocalizedSite.Dictionary.Store
import LocalizedSite.Entries
import LocalizedSite.Extract.Body
import LocalizedSite.Extract.Frame
import LocalizedSite.Extract.Harvest
import LocalizedSite.Extract.Head
import LocalizedSite.Extract.Key
import LocalizedSite.Extract.OpaqueRegion
import LocalizedSite.Extract.Page
import LocalizedSite.Extract.StructuredData
import LocalizedSite.Extract.Vocabulary
import LocalizedSite.Extract.Worth
import LocalizedSite.Files.Path
import LocalizedSite.Files.Tree
import LocalizedSite.Html.Document
import LocalizedSite.Html.Entity
import LocalizedSite.Html.EntityTable
import LocalizedSite.Html.Lexer
import LocalizedSite.Html.Token
import LocalizedSite.Json.Basic
import LocalizedSite.Json.Fault
import LocalizedSite.Json.Read
import LocalizedSite.Json.Write
import LocalizedSite.Locale
import LocalizedSite.Main
import LocalizedSite.Number.Binary64
import LocalizedSite.Number.DecimalText
import LocalizedSite.Number.IntegerText
import LocalizedSite.Page
import LocalizedSite.Placeholder
import LocalizedSite.Render.Markup
import LocalizedSite.Render.Page
import LocalizedSite.Render.Registry
import LocalizedSite.Render.Sitemap
import LocalizedSite.Site.Action
import LocalizedSite.Site.Build
import LocalizedSite.Site.Extraction
import LocalizedSite.Text.Basic
import LocalizedSite.Text.Blank
import LocalizedSite.Text.DecimalDigit
import LocalizedSite.Text.LetterCase
import LocalizedSite.Text.Occurrence
import LocalizedSite.Text.Printable
import LocalizedSite.Text.Quoted
import LocalizedSite.Text.Slot
import LocalizedSite.Text.WordCharacter
import LocalizedSite.Translate.Service
import LocalizedSite.Verify.Document
import LocalizedSite.Verify.Link
import LocalizedSite.Verify.Page
import LocalizedSite.Verify.Report
import LocalizedSite.Verify.Site
import LocalizedSite.Yaml.Base64
import LocalizedSite.Yaml.Block
import LocalizedSite.Yaml.Cursor
import LocalizedSite.Yaml.Document
import LocalizedSite.Yaml.Fault
import LocalizedSite.Yaml.Lexer
import LocalizedSite.Yaml.Moment
import LocalizedSite.Yaml.Node
import LocalizedSite.Yaml.Plain
import LocalizedSite.Yaml.Quoted
import LocalizedSite.Yaml.ScalarValue
import LocalizedSite.Yaml.Token
import LocalizedSite.Yaml.Value
import LocalizedSite.Proofs.Text.Search
import LocalizedSite.Proofs.Text.Lines
import LocalizedSite.Proofs.Text.Occurrence
import LocalizedSite.Proofs.Text.Blanks
import LocalizedSite.Proofs.Placeholder
import LocalizedSite.Proofs.Placeholder.Grammar
import LocalizedSite.Proofs.Text.Slot
import LocalizedSite.Proofs.Extract.Framing
import LocalizedSite.Proofs.Entries
import LocalizedSite.Proofs.Extract.Gathering
import LocalizedSite.Proofs.Extract.Rewriting
import LocalizedSite.Proofs.Extract.Restoration
import LocalizedSite.Proofs.Extract.Keys
import LocalizedSite.Proofs.Extract.RoundTrip
import LocalizedSite.Proofs.Extract.Settled
import LocalizedSite.Proofs.Extract.Clashes
import LocalizedSite.Proofs.Extract.Opened
import LocalizedSite.Proofs.Extract.Stability
import LocalizedSite.Proofs.Number.Binary64
import LocalizedSite.Proofs.Number.Decimal
import LocalizedSite.Proofs.Number.Layout
import LocalizedSite.Proofs.Json.Number
import LocalizedSite.Proofs.Json.RoundTrip
import LocalizedSite.Proofs.Json.LineBreaks
import LocalizedSite.Proofs.Dictionary.Refresh
import LocalizedSite.Proofs.Outcome
import LocalizedSite.Proofs.Files.Tree
import LocalizedSite.Proofs.Dictionary.Store
import LocalizedSite.Proofs.Dictionary.Resume
import LocalizedSite.Proofs.Dictionary.Apart
import LocalizedSite.Proofs.Dictionary.Finishing
import LocalizedSite.Proofs.Dictionary.Repeat
import LocalizedSite.Proofs.Render.Consistency
import LocalizedSite.Proofs.Json.Accepted
import LocalizedSite.Proofs.Render.LinkedData
import LocalizedSite.Proofs.Extract.Intact
import LocalizedSite.Proofs.Render.OnePass
import LocalizedSite.Proofs.Verify.LeftOver
import LocalizedSite.Proofs.Extract.Origin
import LocalizedSite.Proofs.Extract.Links
import LocalizedSite.Proofs.Extract.Readable
import LocalizedSite.Proofs.Dictionary.Account
import LocalizedSite.Proofs.Json.Literal
import LocalizedSite.Proofs.Extract.Known
import LocalizedSite.Proofs.Extract.KnownData
import LocalizedSite.Proofs.Extract.KeySurface
import LocalizedSite.Proofs.Dictionary.Merge
import LocalizedSite.Proofs.Site.Extraction
import LocalizedSite.Proofs.Site.KeySurface
import LocalizedSite.Proofs.Extract.HeadMarks
import LocalizedSite.Proofs.Html.Elements
import LocalizedSite.Proofs.Html.Entity
import LocalizedSite.Proofs.Html.Progress
import LocalizedSite.Proofs.Html.Reading
import LocalizedSite.Proofs.Render.HeadTags
import LocalizedSite.Proofs.Dictionary.Header
import LocalizedSite.Proofs.Dictionary.Snapshot
import LocalizedSite.Proofs.Dictionary.StoredValue
import LocalizedSite.Proofs.Files.Agreement
import LocalizedSite.Proofs.Files.Copying
import LocalizedSite.Proofs.Files.Outline
import LocalizedSite.Proofs.Site.Build
import LocalizedSite.Proofs.Site.Isolation
import LocalizedSite.Proofs.Translate.Served
import LocalizedSite.Proofs.Site.Writable
import LocalizedSite.Proofs.Verify.LocaleTags
import LocalizedSite.Proofs.Verify.RenderedHead
import LocalizedSite.Proofs.Files.Path
import LocalizedSite.Proofs.Verify.PageLinks
import LocalizedSite.Proofs.Verify.Completion
import LocalizedSite.Proofs.Html.Building
import LocalizedSite.Proofs.Html.ClosedTag
import LocalizedSite.Proofs.Render.SitemapDocument
import LocalizedSite.Proofs.Verify.Sitemap
import LocalizedSite.Proofs.Site.Determined
import LocalizedSite.Proofs.NameOrder
import LocalizedSite.Proofs.Dictionary.Merged
import LocalizedSite.Proofs.Dictionary.PageOrder
import LocalizedSite.Proofs.Files.Written
import LocalizedSite.Proofs.Site.Outcomes
import LocalizedSite.Proofs.Site.Stopped
import LocalizedSite.Proofs.Site.Again
import LocalizedSite.Proofs.Dictionary.Session
import LocalizedSite.Proofs.Dictionary.Current
import LocalizedSite.Proofs.Verify.CheckedTemplate
import LocalizedSite.Proofs.Extract.OpaqueLines
import LocalizedSite.Proofs.Dictionary.Precedence
import LocalizedSite.Proofs.Json.Texts
import LocalizedSite.Proofs.Json.Sides
import LocalizedSite.Proofs.Translate.Reply
import LocalizedSite.Proofs.Html.RawText
import LocalizedSite.Proofs.Verify.Undefined
import LocalizedSite.Proofs.Extract.Numbering
import LocalizedSite.Proofs.Config.Faults
