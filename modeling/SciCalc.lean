import SciCalc.CalcError
import SciCalc.Calculator
import SciCalc.Calculus.Rules
import SciCalc.Calculus.Simpson
import SciCalc.Decimal.Binary
import SciCalc.Decimal.Layout
import SciCalc.Decimal.Numeral
import SciCalc.Decimal.Reader
import SciCalc.Decimal.Rounding
import SciCalc.Decimal.Shortest
import SciCalc.Expression.AngleMode
import SciCalc.Expression.Basic
import SciCalc.Expression.Brackets
import SciCalc.Expression.Context
import SciCalc.Expression.Cursor
import SciCalc.Expression.Elementary
import SciCalc.Expression.Evaluation
import SciCalc.Expression.ImplicitProduct
import SciCalc.Expression.Lexeme
import SciCalc.Expression.ParseError
import SciCalc.Expression.Parser
import SciCalc.Expression.Token
import SciCalc.History
import SciCalc.LogLevel
import SciCalc.Mat.Algebra
import SciCalc.Mat.Basic
import SciCalc.Mat.Cells
import SciCalc.Mat.ColumnMajor
import SciCalc.Mat.Determinant
import SciCalc.Mat.Diagnosis
import SciCalc.Mat.Display
import SciCalc.Mat.Elimination
import SciCalc.Mat.Error
import SciCalc.Mat.Factorisation
import SciCalc.Mat.Pivot
import SciCalc.Mat.RowMajor
import SciCalc.Mat.Session
import SciCalc.Mat.Spectrum
import SciCalc.Plot.Color
import SciCalc.Plot.GridScalar
import SciCalc.Plot.Linspace
import SciCalc.Plot.Request
import SciCalc.Plot.Sampling
import SciCalc.Plot.Series
import SciCalc.Plot.SeriesCsv
import SciCalc.Plot.Viewport
import SciCalc.Proofs.Calculus.CubicExactness
import SciCalc.Proofs.Calculus.ExactIntegral
import SciCalc.Proofs.Calculus.NodeCalls
import SciCalc.Proofs.Calculus.PolynomialRules
import SciCalc.Proofs.Calculus.RuleForms
import SciCalc.Proofs.Calculus.RuleOutput
import SciCalc.Proofs.Decimal.DigitRuns
import SciCalc.Proofs.Decimal.LeadingExponent
import SciCalc.Proofs.Decimal.NearestEven
import SciCalc.Proofs.Decimal.NumberText
import SciCalc.Proofs.Expression.Acceptance
import SciCalc.Proofs.Expression.Blame
import SciCalc.Proofs.Expression.BracketBalance
import SciCalc.Proofs.Expression.BracketMatching
import SciCalc.Proofs.Expression.CursorCalls
import SciCalc.Proofs.Expression.CursorProgress
import SciCalc.Proofs.Expression.CursorRuns
import SciCalc.Proofs.Expression.Cutting
import SciCalc.Proofs.Expression.Dependence
import SciCalc.Proofs.Expression.ErrorPosition
import SciCalc.Proofs.Expression.ExactNumbers
import SciCalc.Proofs.Expression.Exhaustion
import SciCalc.Proofs.Expression.Expansion
import SciCalc.Proofs.Expression.Faults
import SciCalc.Proofs.Expression.FirstFault
import SciCalc.Proofs.Expression.FreeVariables
import SciCalc.Proofs.Expression.Grammar
import SciCalc.Proofs.Expression.Lexing
import SciCalc.Proofs.Expression.MaximalRuns
import SciCalc.Proofs.Expression.ParserCompleteness
import SciCalc.Proofs.Expression.ParserSoundness
import SciCalc.Proofs.Expression.Phrases
import SciCalc.Proofs.Expression.PlacedText
import SciCalc.Proofs.Expression.Polynomials
import SciCalc.Proofs.Expression.Relocation
import SciCalc.Proofs.Expression.Rendering
import SciCalc.Proofs.Expression.RepeatedCalls
import SciCalc.Proofs.Expression.RoundTrip
import SciCalc.Proofs.Expression.TokenBoundary
import SciCalc.Proofs.Expression.Trimming
import SciCalc.Proofs.Expression.UnboundNames
import SciCalc.Proofs.Expression.Whitespace
import SciCalc.Proofs.LatestEntries
import SciCalc.Proofs.Mat.BackSubstitution
import SciCalc.Proofs.Mat.Exact
import SciCalc.Proofs.Mat.FactorisedInverse
import SciCalc.Proofs.Mat.ForwardElimination
import SciCalc.Proofs.Mat.Inverse
import SciCalc.Proofs.Mat.Layouts
import SciCalc.Proofs.Mat.LinearSystem
import SciCalc.Proofs.Mat.Minors
import SciCalc.Proofs.Mat.PermutationSum
import SciCalc.Proofs.Mat.PivotGrowth
import SciCalc.Proofs.Mat.Pivoting
import SciCalc.Proofs.Mat.ProductDeterminant
import SciCalc.Proofs.Mat.Resizing
import SciCalc.Proofs.Mat.RingLaws
import SciCalc.Proofs.Mat.RowMajor
import SciCalc.Proofs.Mat.SameCoefficients
import SciCalc.Proofs.Mat.Sessions
import SciCalc.Proofs.Mat.SingularValues
import SciCalc.Proofs.Mat.StoredOperations
import SciCalc.Proofs.Mat.Substitution
import SciCalc.Proofs.Mat.TransposedProducts
import SciCalc.Proofs.Mat.TriangularFactors
import SciCalc.Proofs.Mat.Verdict
import SciCalc.Proofs.Outcome
import SciCalc.Proofs.Plot.FirstFailure
import SciCalc.Proofs.Plot.GridLines
import SciCalc.Proofs.Plot.GridSamples
import SciCalc.Proofs.Plot.HexColors
import SciCalc.Proofs.Plot.Requests
import SciCalc.Proofs.Plot.Sampling
import SciCalc.Proofs.Plot.Segments
import SciCalc.Proofs.Plot.SeriesRecords
import SciCalc.Proofs.RecordedCalls
import SciCalc.Proofs.Report.ResultText
import SciCalc.Proofs.Settings.Keys
import SciCalc.Proofs.Settings.LastValues
import SciCalc.Proofs.Settings.LineReading
import SciCalc.Proofs.Settings.Plotting
import SciCalc.Proofs.Text.Beginning
import SciCalc.Proofs.Text.CharacterClass
import SciCalc.Proofs.Text.CsvReading
import SciCalc.Proofs.Text.Lines
import SciCalc.Proofs.Text.Trim
import SciCalc.RangeError
import SciCalc.Report.Result
import SciCalc.Scalar
import SciCalc.Settings.Basic
import SciCalc.Settings.Document
import SciCalc.Settings.FileFault
import SciCalc.Text.Blank
import SciCalc.Text.Csv
import SciCalc.Text.DecimalDigit
import SciCalc.Text.LetterCase
import SciCalc.Text.Lines
import SciCalc.Text.Lowercase
import SciCalc.Text.Table
import SciCalc.Text.Width
import SciCalc.Text.Width.Emoji
import SciCalc.Text.Width.EmojiSequence
import SciCalc.Text.Width.Ligature
import SciCalc.Text.Width.Nonspacing
import SciCalc.Text.Width.Wide
