import SourceIndex.Main
import SourceIndex.File.Tree
import SourceIndex.Syntax.Symbol
import SourceIndex.Proofs.Text.Rows
import SourceIndex.Proofs.Chunking.Trace
import SourceIndex.Proofs.Chunking.Coverage
import SourceIndex.Proofs.Chunking.Quotation
import SourceIndex.Proofs.Chunking.Budget
import SourceIndex.Proofs.Chunking.Cancellation
import SourceIndex.Proofs.Chunking.Numbering
import SourceIndex.Proofs.Chunking.Parts
import SourceIndex.Proofs.Chunking.Provenance
import SourceIndex.Proofs.Embedding.Lifecycle
import SourceIndex.Proofs.Embedding.Answers
import SourceIndex.Proofs.Embedding.Crew
import SourceIndex.Proofs.Embedding.Service
import SourceIndex.Proofs.Embedding.Replacement
import SourceIndex.Proofs.Chunking.Degradation
import SourceIndex.Proofs.Chunking.Filter
import SourceIndex.Proofs.Chunking.Rechunk
import SourceIndex.Embedding.Host
import SourceIndex.Proofs.Embedding.Host
import SourceIndex.Proofs.Syntax.Outline
import SourceIndex.Proofs.Syntax.Row
import SourceIndex.Proofs.Chunking.Segments
import SourceIndex.Proofs.Indexing.Outcome
import SourceIndex.Proofs.CommandLine.Offsets
import SourceIndex.Proofs.Syntax.Survival
import SourceIndex.Proofs.Syntax.Attachment
import SourceIndex.Proofs.Syntax.Detachment
import SourceIndex.Proofs.Chunking.Significance
import SourceIndex.Proofs.Chunking.Splitting
import SourceIndex.Proofs.Chunking.Paragraphs
import SourceIndex.Proofs.Text.Newline
import SourceIndex.Proofs.Indexing.Reading
import SourceIndex.Proofs.Embedding.Cancellation
import SourceIndex.Proofs.Chunking.Remarks
import SourceIndex.Proofs.Chunking.Dedent
import SourceIndex.Proofs.Syntax.Candidates
import SourceIndex.Proofs.Syntax.Rearrangement
import SourceIndex.Proofs.Syntax.Naming
import SourceIndex.Proofs.Token.Loading
import SourceIndex.Proofs.Embedding.Pooling
import SourceIndex.Proofs.Settings.Damage
import SourceIndex.Proofs.Settings.Saving
import SourceIndex.Proofs.Chunking.Linewise
