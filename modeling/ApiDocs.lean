import ApiDocs.Main
import ApiDocs.Proofs.ClassNames
import ApiDocs.Proofs.Command.Batch
import ApiDocs.Proofs.Command.Early
import ApiDocs.Proofs.Command.Merged
import ApiDocs.Proofs.Command.Reordered
import ApiDocs.Proofs.Command.Separate
import ApiDocs.Proofs.Command.Ways
import ApiDocs.Proofs.Contents
import ApiDocs.Proofs.Files.Alike
import ApiDocs.Proofs.Files.Sound
import ApiDocs.Proofs.Headings
import ApiDocs.Proofs.Html.Ids
import ApiDocs.Proofs.Html.Passages
import ApiDocs.Proofs.Html.Replacements
import ApiDocs.Proofs.Html.Rewording
import ApiDocs.Proofs.Json.Recovery
import ApiDocs.Proofs.Links
import ApiDocs.Proofs.Locality
import ApiDocs.Proofs.Markdown.Strays
import ApiDocs.Proofs.Markdown.Table
import ApiDocs.Proofs.Namespace.Closure
import ApiDocs.Proofs.Namespace.Stable
import ApiDocs.Proofs.Text.Words
import ApiDocs.Proofs.Xml.Balance
import ApiDocs.Proofs.Xml.Continuation
import ApiDocs.Proofs.Xml.Document
import ApiDocs.Proofs.Xml.Nesting
import ApiDocs.Proofs.Xml.RoundTrip
