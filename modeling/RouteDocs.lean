import RouteDocs.Main
import RouteDocs.Render.Output
import RouteDocs.Scan
import RouteDocs.Proofs.Handler.Tiling
import RouteDocs.Proofs.Files.Tree
import RouteDocs.Proofs.Scan
import RouteDocs.Proofs.Json.Quoted
import RouteDocs.Proofs.Text.Utf8
import RouteDocs.Proofs.Json.Number
import RouteDocs.Proofs.Json.Fits
import RouteDocs.Proofs.Json.Reader
import RouteDocs.Proofs.Json.RoundTrip
import RouteDocs.Proofs.Json.Decode
import RouteDocs.Proofs.Docs.Codec
import RouteDocs.Proofs.Render.Document
import RouteDocs.Proofs.Json.Limits
import RouteDocs.Proofs.Docs.Limits
import RouteDocs.Proofs.Editor.Run
import RouteDocs.Proofs.Handler.Isolation
import RouteDocs.Proofs.Render.OpenApi
import RouteDocs.Proofs.Route.Url
import RouteDocs.Proofs.Editor.Frame
import RouteDocs.Proofs.Infer.Authentication
import RouteDocs.Proofs.Handler.Signature
import RouteDocs.Proofs.Route.Settled
import RouteDocs.Proofs.Render.Folder
import RouteDocs.Proofs.Editor.Saved
import RouteDocs.Proofs.Editor.Overlap
import RouteDocs.Proofs.Yaml.Value
import RouteDocs.Proofs.Yaml.Brackets
import RouteDocs.Proofs.Settings
import RouteDocs.Proofs.Render.Inside
import RouteDocs.Proofs.Render.OperationId
import RouteDocs.Proofs.Infer.Examples
import RouteDocs.Proofs.Command.Scan
import RouteDocs.Proofs.Render.Encodings
import RouteDocs.Proofs.Infer.Body
import RouteDocs.Proofs.Infer.Status
import RouteDocs.Proofs.Infer.Annotation
import RouteDocs.Proofs.Infer.Answers
import RouteDocs.Proofs.Infer.Usable
import RouteDocs.Proofs.Infer.NoteLines
import RouteDocs.Proofs.Handler.Title
import RouteDocs.Proofs.Handler.Nearest
import RouteDocs.Proofs.Infer.ParamNote
import RouteDocs.Proofs.Infer.Headers
import RouteDocs.Proofs.Handler.ExportList
import RouteDocs.Proofs.Infer.Declaration
import RouteDocs.Proofs.Infer.PropertyRead
import RouteDocs.Proofs.Settings.Load
import RouteDocs.Proofs.Route.Tags
import RouteDocs.Proofs.Render.Operation
import RouteDocs.Proofs.Render.Table
import RouteDocs.Proofs.Route.Ignore
import RouteDocs.Proofs.Infer.Union
import RouteDocs.Proofs.Infer.Binding
