import FormulaScript.Text.Cursor
import FormulaScript.Number.Basic
import FormulaScript.Token.Basic
import FormulaScript.Diagnostic.Basic
import FormulaScript.Options.Json
import FormulaScript.Lexeme.Spelling
import FormulaScript.Gap
import FormulaScript.Scanner.Run
import FormulaScript.Layout.Run
import FormulaScript.Proofs.Layout.Conservation
import FormulaScript.Proofs.Layout.Balance
import FormulaScript.Proofs.Layout.Semicolons
import FormulaScript.Proofs.Layout.WrittenSemicolon
import FormulaScript.Proofs.Layout.Outlines
import FormulaScript.Proofs.Gap.Pieces
import FormulaScript.Proofs.Layout.Respelling
import FormulaScript.Proofs.Layout.Lines
import FormulaScript.Proofs.Layout.Ends
import FormulaScript.Proofs.Checked.Stream
import FormulaScript.Proofs.Scanner.Flaws
import FormulaScript.Proofs.Scanner.LineCrossings
import FormulaScript.Proofs.Scanner.Resumption
import FormulaScript.Proofs.Scanner.Lookahead
import FormulaScript.Proofs.Layout.ArrowBodies
import FormulaScript.Proofs.Layout.Arguments
import FormulaScript.Proofs.Lexeme.WellFormed
import FormulaScript.Proofs.Scanner.WellFormed
import FormulaScript.Proofs.Lexeme.Case
import FormulaScript.Proofs.Gap.Case
import FormulaScript.Proofs.Scanner.Case
import FormulaScript.Proofs.Layout.Case
import FormulaScript.Proofs.Lexeme.Quoted
import FormulaScript.Proofs.Scanner.Quoted
import FormulaScript.Proofs.Layout.Indices
import FormulaScript.Proofs.Layout.Functions
import FormulaScript.Proofs.Layout.Substitutions
import FormulaScript.Proofs.Number.Decimal
import FormulaScript.Proofs.Checked.Number
import FormulaScript.Proofs.Scanner.Numbers
import FormulaScript.Proofs.Lexeme.HexValue
import FormulaScript.Proofs.Text.OffsetCursor
import FormulaScript.Proofs.Scanner.Operators
import FormulaScript.Proofs.Scanner.Words
import FormulaScript.Proofs.Text.Positions
import FormulaScript.Proofs.Diagnostic.Template
import FormulaScript.Proofs.Layout.Counters
import FormulaScript.Proofs.Gap.Unicode
import FormulaScript.Proofs.Scanner.Unicode
