import Componentry.Command.Run
import Componentry.Component.Instance
import Componentry.Main
import Componentry.Proofs.Command.Build
import Componentry.Proofs.Component.Agreement
import Componentry.Proofs.Component.Annotation
import Componentry.Proofs.Component.Build
import Componentry.Proofs.Component.DataLiteral
import Componentry.Proofs.Component.HookImports
import Componentry.Proofs.Component.Instance
import Componentry.Proofs.Component.Interpolation
import Componentry.Proofs.Component.PlainForm
import Componentry.Proofs.Component.PropertyName
import Componentry.Proofs.Component.Sharing
import Componentry.Proofs.Component.Termination
import Componentry.Proofs.Component.Totality
import Componentry.Proofs.Document.Parse
import Componentry.Proofs.Script.Annotation
import Componentry.Proofs.Script.Grouping
import Componentry.Proofs.Script.Shape
import Componentry.Proofs.Script.Template
import Componentry.Proofs.Snippet
import Componentry.Proofs.Snippet.Ink
import Componentry.Proofs.Snippet.Operator
import Componentry.Proofs.Snippet.Quotation
import Componentry.Proofs.Snippet.RoundTrip
import Componentry.Proofs.Yaml.PlainScalar
import Componentry.Proofs.Yaml.Resolution
import Componentry.Proofs.Path.Output
import Componentry.Proofs.Json.Reader
import Componentry.Proofs.Toml.Reader
import Componentry.Proofs.Command.Context
import Componentry.Proofs.Yaml.ScalarKeys
import Componentry.Proofs.FileTree.Blocking
import Componentry.Proofs.Json.Printer
import Componentry.Proofs.Command.Transpile
import Componentry.Proofs.Script.LiteralGrammar
import Componentry.Proofs.Script.Shift
import Componentry.Proofs.Script.OneLine
import Componentry.Proofs.Script.Indentation
