import ShapeLang.CommandLine.Directory
import ShapeLang.Lexeme.Soundness
import ShapeLang.Main
import ShapeLang.Proofs.CommandLine.Arguments
import ShapeLang.Proofs.CommandLine.Channels
import ShapeLang.Proofs.Report.Failure
import ShapeLang.Proofs.Shape.Record
import ShapeLang.Proofs.Source.Lookup
import ShapeLang.Proofs.Source.Overflow
import ShapeLang.Proofs.Token.Comments
import ShapeLang.Proofs.Token.Factoring
import ShapeLang.Proofs.Token.Faults
import ShapeLang.Proofs.Token.Lines
import ShapeLang.Proofs.Token.Location
import ShapeLang.Proofs.Token.Operators
import ShapeLang.Proofs.Token.Phrases
import ShapeLang.Proofs.Token.Printing
import ShapeLang.Proofs.Token.Truncation
import ShapeLang.Proofs.Token.Values
import ShapeLang.Proofs.Token.Vocabulary
import ShapeLang.Shape.Equality
