import TextAnalysis.CharMap.Table
import TextAnalysis.Description
import TextAnalysis.Main
import TextAnalysis.Proofs.Composing
import TextAnalysis.Proofs.Sameness
import TextAnalysis.Proofs.Advancing
import TextAnalysis.Proofs.Producer
import TextAnalysis.Proofs.Producer.Alike
import TextAnalysis.Proofs.Dispatching
import TextAnalysis.Proofs.Draining
import TextAnalysis.Proofs.Origin
import TextAnalysis.Proofs.Caching
import TextAnalysis.Proofs.Session
import TextAnalysis.Proofs.Cutting
import TextAnalysis.Proofs.KeepingForms
import TextAnalysis.Proofs.Lookups
import TextAnalysis.Proofs.Settling
import TextAnalysis.Proofs.Stopping
import TextAnalysis.Proofs.Marking
import TextAnalysis.Proofs.Stacking
import TextAnalysis.Proofs.Positions
import TextAnalysis.Proofs.Bounding
import TextAnalysis.Proofs.Agreeing
import TextAnalysis.Proofs.Independence
import TextAnalysis.Proofs.Arriving
import TextAnalysis.Proofs.Describing
import TextAnalysis.Proofs.Reporting
import TextAnalysis.Proofs.Annotating
import TextAnalysis.Proofs.Spanning
import TextAnalysis.Proofs.Interchanging
import TextAnalysis.Proofs.Rebuilding
import TextAnalysis.Proofs.Json.Decoding
import TextAnalysis.Proofs.Json.Rereading
import TextAnalysis.Proofs.Json.Reports
import TextAnalysis.Proofs.Configuring
import TextAnalysis.Proofs.Text.Decoding
import TextAnalysis.Proofs.Assembling
import TextAnalysis.Proofs.Overlapping
import TextAnalysis.Proofs.Printing
import TextAnalysis.Proofs.Sources
import TextAnalysis.Proofs.Ending
import TextAnalysis.Proofs.Splitting
import TextAnalysis.Proofs.Tiling
import TextAnalysis.Proofs.CharMap.Listing
import TextAnalysis.Proofs.CharMap.Writing
import TextAnalysis.Proofs.CharMap.Reading
import TextAnalysis.Proofs.FirstFault
import TextAnalysis.Proofs.Numbering
import TextAnalysis.Proofs.Repeating
import TextAnalysis.Proofs.Prefixes
import TextAnalysis.Proofs.CharMap.Refusing
import TextAnalysis.Proofs.Searching
import TextAnalysis.Proofs.Joining
import TextAnalysis.Proofs.Text.Trimming
import TextAnalysis.Proofs.Rewriting
import TextAnalysis.Proofs.Keywords
import TextAnalysis.Proofs.Columns
import TextAnalysis.Proofs.Resolving
import TextAnalysis.Proofs.CharMap.Counting
import TextAnalysis.Proofs.Text.Editing
import TextAnalysis.Proofs.Editing
