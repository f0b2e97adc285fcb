import TypedMarkup.Main
import TypedMarkup.Proofs.Compile.Reports
import TypedMarkup.Proofs.Inference.Substitution
import TypedMarkup.Proofs.Listing.Positions
import TypedMarkup.Proofs.Reader.Reads
import TypedMarkup.Proofs.Document.Spelling
import TypedMarkup.Proofs.Document.Soundness
import TypedMarkup.Proofs.Inference.TypeArguments
import TypedMarkup.Proofs.Inference.Advice
import TypedMarkup.Proofs.Token.Names
import TypedMarkup.Proofs.Inference.Slots
import TypedMarkup.Proofs.Listing.Openings
import TypedMarkup.Proofs.Document.Names
import TypedMarkup.Proofs.Compile.Names
import TypedMarkup.Proofs.Compile.Unresolved
import TypedMarkup.Proofs.Document.Moved
import TypedMarkup.Proofs.Reader.Recursion
import TypedMarkup.Proofs.Token.Placement
import TypedMarkup.Proofs.Document.Placement
import TypedMarkup.Proofs.Reader.Gives
import TypedMarkup.Proofs.Document.TypeReading
import TypedMarkup.Proofs.Document.MarkupReading
import TypedMarkup.Proofs.Document.Completeness
import TypedMarkup.Proofs.Token.Joining
import TypedMarkup.Proofs.Token.Written
import TypedMarkup.Proofs.Document.Parsing
import TypedMarkup.Proofs.Token.Bounds
import TypedMarkup.Proofs.Document.Parts
import TypedMarkup.Proofs.Document.SyntaxErrors
import TypedMarkup.Proofs.Report.Lines
import TypedMarkup.Proofs.Compile.Places
import TypedMarkup.Proofs.Component.Declaring
import TypedMarkup.Proofs.Compile.Declared
import TypedMarkup.Proofs.Compile.Failures
import TypedMarkup.Proofs.Document.Relocation
import TypedMarkup.Proofs.Compile.Relocation
import TypedMarkup.Proofs.Compile.Reordering
import TypedMarkup.Proofs.Reader.Alike
import TypedMarkup.Proofs.Document.Alike
import TypedMarkup.Proofs.Component.Relocation
import TypedMarkup.Proofs.Compile.Layout
import TypedMarkup.Proofs.Listing.OneLine
import TypedMarkup.Proofs.Listing.Nesting
import TypedMarkup.Proofs.Listing.Lines
import TypedMarkup.Proofs.Compile.Collecting
import TypedMarkup.Proofs.Listing.Pinning
import TypedMarkup.Proofs.CommandLine.Outcome
import TypedMarkup.Proofs.Listing.LineReading
import TypedMarkup.Proofs.Listing.Recovery
import TypedMarkup.Proofs.Inference.Growth
import TypedMarkup.Proofs.Inference.Order
import TypedMarkup.Proofs.Inference.Renaming
import TypedMarkup.Proofs.Token.Cutting
import TypedMarkup.Proofs.Document.Nesting
import TypedMarkup.Proofs.Document.Slices
import TypedMarkup.Proofs.Document.Completions
import TypedMarkup.Proofs.Reader.Lookahead
import TypedMarkup.Proofs.Compile.QuotedArguments
import TypedMarkup.Proofs.Document.CorrectPrefix
import TypedMarkup.Proofs.Document.ValuePlaces
import TypedMarkup.Proofs.Listing.WholeTypes
import TypedMarkup.Proofs.Token.Comments
import TypedMarkup.Proofs.Token.RoundTrip
import TypedMarkup.Proofs.Token.LongestMatch
import TypedMarkup.Proofs.Listing.Writer
import TypedMarkup.Proofs.Inference.Mentions
import TypedMarkup.Proofs.Token.Quotes
