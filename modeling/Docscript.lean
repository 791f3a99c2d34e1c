import Docscript.Adapter
import Docscript.Adapter.ValidationErrors
import Docscript.Binary64
import Docscript.Binary64.Scaling
import Docscript.Binary64.Shortest
import Docscript.CommandLine
import Docscript.CommandLine.Arguments
import Docscript.CommandLine.Files
import Docscript.ConditionBlock
import Docscript.Config
import Docscript.Context
import Docscript.Document
import Docscript.Engine
import Docscript.Entries
import Docscript.Error
import Docscript.Event
import Docscript.Expression
import Docscript.Expression.Evaluation
import Docscript.Expression.Parser
import Docscript.Expression.Token
import Docscript.Json.NumberText
import Docscript.Json.Reader
import Docscript.Json.Writer
import Docscript.Key
import Docscript.Loop.Expansion
import Docscript.Loop.Scopes
import Docscript.Main
import Docscript.Number
import Docscript.Operation
import Docscript.Operation.Name
import Docscript.Operation.Registry
import Docscript.Path
import Docscript.Pipeline
import Docscript.Proofs.Adapter.Normalisation
import Docscript.Proofs.ConditionBlock.Keys
import Docscript.Proofs.ConditionBlock.Shape
import Docscript.Proofs.Context.Expansion
import Docscript.Proofs.Context.Frame
import Docscript.Proofs.Context.Lookup
import Docscript.Proofs.Context.Resolution
import Docscript.Proofs.Context.Shadowing
import Docscript.Proofs.Context.Unfolding
import Docscript.Proofs.Context.Writing
import Docscript.Proofs.Document.Elimination
import Docscript.Proofs.Document.Joining
import Docscript.Proofs.Document.Keys
import Docscript.Proofs.Document.Options
import Docscript.Proofs.Document.Splicing
import Docscript.Proofs.Document.Templates
import Docscript.Proofs.Expression.Connectives
import Docscript.Proofs.Expression.Equality
import Docscript.Proofs.Expression.Grammar
import Docscript.Proofs.Expression.Integers
import Docscript.Proofs.Expression.Joints
import Docscript.Proofs.Expression.Parsing
import Docscript.Proofs.Expression.Printing
import Docscript.Proofs.Expression.Scanning
import Docscript.Proofs.Expression.Written
import Docscript.Proofs.Key.Overlap
import Docscript.Proofs.Loop.Announced
import Docscript.Proofs.Loop.Collections
import Docscript.Proofs.Loop.Counting
import Docscript.Proofs.Loop.Declaration
import Docscript.Proofs.Loop.Grammar
import Docscript.Proofs.Loop.Printing
import Docscript.Proofs.Loop.Pulling
import Docscript.Proofs.Loop.Ranges
import Docscript.Proofs.Loop.Variables
import Docscript.Proofs.Operation.Folding
import Docscript.Proofs.Operation.History
import Docscript.Proofs.Operation.Lookup
import Docscript.Proofs.Operation.Names
import Docscript.Proofs.Operation.NormalForm
import Docscript.Proofs.Operation.Refolding
import Docscript.Proofs.Operation.Reinstalling
import Docscript.Proofs.Operation.Spelling
import Docscript.Proofs.Path.Brackets
import Docscript.Proofs.Pipeline.Course
import Docscript.Proofs.Pipeline.Discipline
import Docscript.Proofs.Pipeline.Shapes
import Docscript.Proofs.Pipeline.Stage
import Docscript.Proofs.Pipeline.Threading
import Docscript.Proofs.Pipeline.Variables
import Docscript.Proofs.Pipeline.Warnings
import Docscript.Proofs.Template.Options
import Docscript.Proofs.Template.Placeholder
import Docscript.Proofs.Template.Substitution
import Docscript.Proofs.Text.LetterCase
import Docscript.Proofs.Text.Numeral
import Docscript.Proofs.Value.Equality
import Docscript.Proofs.Value.IntegerText
import Docscript.Template
import Docscript.Text.Blank
import Docscript.Text.CharRange
import Docscript.Text.LetterCase
import Docscript.Text.Listed
import Docscript.Text.Numeral
import Docscript.Value
