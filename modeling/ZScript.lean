import ZScript.Binary64.Basic
import ZScript.Binary64.Decimal
import ZScript.Text.WhiteSpace
import ZScript.Token.Kind
import ZScript.Token.Basic
import ZScript.Token.Lexer
import ZScript.Token.Cursor
import ZScript.Builtin
import ZScript.Syntax.Operator
import ZScript.Syntax.Expr
import ZScript.Syntax.Error
import ZScript.Expr.Reduce
import ZScript.Expr.Parser
import ZScript.Expr.Value
import ZScript.Expr.Fold
import ZScript.Project.Path
import ZScript.Syntax.Tree
import ZScript.Analysis.Semantic
import ZScript.Analysis.Basic
import ZScript.Analysis.Index
import ZScript.Analysis.Work
import ZScript.Analysis.Lookup
import ZScript.Analysis.Tagging
import ZScript.Analysis.Types
import ZScript.Analysis.Declarations
import ZScript.Analysis.Members
import ZScript.Analysis.Links
import ZScript.Analysis.Bodies
import ZScript.Project.Basic
import ZScript.Text.Utf8
import ZScript.Project.Disk
import ZScript.Project.Open
import ZScript.Text.Ranges
import ZScript.Text.Emoji
import ZScript.Text.Joining
import ZScript.Text.Conjunct
import ZScript.Text.Quote
import ZScript.Text.Width
import ZScript.Text.Grapheme
import ZScript.Cli.Arguments
import ZScript.Cli.Run
import ZScript.Main
import ZScript.Text.Pad
import ZScript.Screen.Style
import ZScript.Screen.Buffer
import ZScript.Screen.Layout
import ZScript.Screen.Widgets
import ZScript.Screen.Terminal
import ZScript.Editor.Cursor
import ZScript.Editor.Theme
import ZScript.Editor.Panes
import ZScript.Editor.App
import ZScript.Proofs.Grammar
import ZScript.Proofs.ReduceSound
import ZScript.Proofs.ReduceLocal
import ZScript.Proofs.ReduceComplete
import ZScript.Proofs.ExprTokens
import ZScript.Proofs.ReaderTokens
import ZScript.Proofs.LexTiles
import ZScript.Proofs.LinkPhase
import ZScript.Proofs.StepLogic
import ZScript.Proofs.Arena
import ZScript.Proofs.ArenaSteps
import ZScript.Proofs.TagOnly
import ZScript.Proofs.BodyReaders
import ZScript.Proofs.MethodBody
import ZScript.Proofs.DeclarationReaders
import ZScript.Proofs.MemberReaders
import ZScript.Proofs.WellFormedTrees
import ZScript.Proofs.Handles
import ZScript.Proofs.LiveLookups
import ZScript.Proofs.PlainExprs
import ZScript.Proofs.LiveTags
import ZScript.Proofs.ClassLinks
import ZScript.Proofs.SymmetricLinks
import ZScript.Proofs.NewCalls
import ZScript.Proofs.SourcedTokens
import ZScript.Proofs.SourcedReaders
import ZScript.Proofs.SourcedBodies
import ZScript.Proofs.SemanticRanges
import ZScript.Proofs.BalancedRuns
import ZScript.Proofs.IntegerFolding
import ZScript.Proofs.ForScopes
import ZScript.Proofs.ExprErrorLines
import ZScript.Proofs.LinedSteps
import ZScript.Proofs.LinedReaders
import ZScript.Proofs.LinedBodies
import ZScript.Proofs.DiagnosticLines
import ZScript.Proofs.LiveReaders
import ZScript.Proofs.LiveBodies
import ZScript.Proofs.LiveProjects
import ZScript.Proofs.ReaderRuns
import ZScript.Proofs.DeclarationProbe
import ZScript.Proofs.IndexScan
import ZScript.Proofs.TokenTriples
import ZScript.Proofs.TypeWritings
import ZScript.Proofs.ExprAhead
import ZScript.Proofs.TypeReadings
import ZScript.Proofs.SkeletonGrammar
import ZScript.Proofs.SkeletonSound
import ZScript.Proofs.RootItems
import ZScript.Proofs.SkeletonComplete
import ZScript.Proofs.SkeletonAcceptance
import ZScript.Proofs.SourceColours
import ZScript.Proofs.LineColumns
import ZScript.Proofs.CursorMoves
import ZScript.Proofs.ProjectSources
import ZScript.Proofs.EditorStates
import ZScript.Proofs.LogIndependence
import ZScript.Proofs.LogIndependentReaders
import ZScript.Proofs.LogIndependentBodies
import ZScript.Proofs.RebuildInputs
import ZScript.Proofs.TypingUndo
import ZScript.Proofs.PathNormalForm
import ZScript.Proofs.ConstantExprs
import ZScript.Proofs.LineSpans
import ZScript.Proofs.NumberSpellings
import ZScript.Proofs.NumberLexemes
import ZScript.Proofs.NumberTokens
import ZScript.Proofs.TypeDeclOrder
import ZScript.Proofs.OffsetLines
import ZScript.Proofs.TokenContents
import ZScript.Proofs.LinkFreeLookups
import ZScript.Proofs.LinkingLookups
