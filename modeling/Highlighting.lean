import Highlighting.Arena
import Highlighting.Baseline
import Highlighting.Builder
import Highlighting.Catalog
import Highlighting.Category
import Highlighting.Cells
import Highlighting.Command
import Highlighting.Command.Folder
import Highlighting.Command.Invocation
import Highlighting.Decimal.Nearest
import Highlighting.Decimal.Shortest
import Highlighting.Digest
import Highlighting.Evaluation
import Highlighting.Event
import Highlighting.Highlight
import Highlighting.Highlight.Json
import Highlighting.Highlighter
import Highlighting.Html
import Highlighting.Json
import Highlighting.Json.Decode
import Highlighting.Json.Numeral
import Highlighting.Json.Printer
import Highlighting.Json.Reader
import Highlighting.Language
import Highlighting.Language.CSharp.Catalog
import Highlighting.Language.CSharp.Kind
import Highlighting.Language.CSharp.Rule
import Highlighting.Language.Cpp.Catalog
import Highlighting.Language.Cpp.Kind
import Highlighting.Language.Cpp.Rule
import Highlighting.Language.JavaScript.Catalog
import Highlighting.Language.JavaScript.Kind
import Highlighting.Language.JavaScript.Rule
import Highlighting.Language.Vocabulary
import Highlighting.Lexicon
import Highlighting.Main
import Highlighting.Oracle
import Highlighting.Oracle.Survey
import Highlighting.Override
import Highlighting.Parse
import Highlighting.Predictor
import Highlighting.Proofs.ArenaLinks
import Highlighting.Proofs.ArenaTrees
import Highlighting.Proofs.BaselineCells
import Highlighting.Proofs.BaselineDecoding
import Highlighting.Proofs.Batches
import Highlighting.Proofs.Brackets
import Highlighting.Proofs.ClassNames
import Highlighting.Proofs.Classification
import Highlighting.Proofs.Cue
import Highlighting.Proofs.Deficit
import Highlighting.Proofs.Descendants
import Highlighting.Proofs.Engine
import Highlighting.Proofs.EngineHistory
import Highlighting.Proofs.Grammar
import Highlighting.Proofs.HighlightCodec
import Highlighting.Proofs.HtmlDecoding
import Highlighting.Proofs.Invocations
import Highlighting.Proofs.JsonEmbedding
import Highlighting.Proofs.JsonReading
import Highlighting.Proofs.Landing
import Highlighting.Proofs.LastHighlight
import Highlighting.Proofs.Layout
import Highlighting.Proofs.LeadingMatch
import Highlighting.Proofs.LexiconEntries
import Highlighting.Proofs.LineBreaks
import Highlighting.Proofs.Marks
import Highlighting.Proofs.MemberCalls
import Highlighting.Proofs.NodeSpans
import Highlighting.Proofs.Numerals
import Highlighting.Proofs.OracleLayouts
import Highlighting.Proofs.Outermost
import Highlighting.Proofs.OverrideHistory
import Highlighting.Proofs.Parses
import Highlighting.Proofs.Precedence
import Highlighting.Proofs.Projection
import Highlighting.Proofs.PrunedSearch
import Highlighting.Proofs.RecordCodec
import Highlighting.Proofs.Reenactment
import Highlighting.Proofs.Relocation
import Highlighting.Proofs.Replay
import Highlighting.Proofs.RightCharacters
import Highlighting.Proofs.ScanDirection
import Highlighting.Proofs.ScanReach
import Highlighting.Proofs.Sites
import Highlighting.Proofs.SourceIndex
import Highlighting.Proofs.Spelling
import Highlighting.Proofs.Starts
import Highlighting.Proofs.TaskTower
import Highlighting.Proofs.TokenScores
import Highlighting.Proofs.TokenStream
import Highlighting.Proofs.Tree
import Highlighting.Proofs.Walk
import Highlighting.Samples
import Highlighting.Scan
import Highlighting.Score
import Highlighting.Settings
import Highlighting.Settings.Path
import Highlighting.Settings.Toml
import Highlighting.Settings.Toml.Table
import Highlighting.Settings.Toml.Token
import Highlighting.Settings.Toml.Word
import Highlighting.Settings.Value
import Highlighting.Task
import Highlighting.Task.Json
import Highlighting.Text.Blank
import Highlighting.Text.GraphemeExtend
import Highlighting.Text.Numeral
import Highlighting.Text.Quoted
import Highlighting.Text.Unprintable
import Highlighting.Token
import Highlighting.Tree
import Highlighting.Tree.Label
import Highlighting.Tree.Walk
