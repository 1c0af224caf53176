import CodeAtlas.Main
import CodeAtlas.Proofs.Graph.History
import CodeAtlas.Proofs.Pipeline
import CodeAtlas.Proofs.Remote.Connection
import CodeAtlas.Proofs.Binary64.Order
import CodeAtlas.Proofs.Search.Ranking
import CodeAtlas.Proofs.Search.Counts
import CodeAtlas.Proofs.Search.Relevance
import CodeAtlas.Proofs.Decimal.Nearest
import CodeAtlas.Proofs.Decimal.Shortest
import CodeAtlas.Proofs.Json.NumberRoundTrip
import CodeAtlas.Proofs.Search.IndexFile
import CodeAtlas.Proofs.Binary64.Packing
import CodeAtlas.Proofs.Binary64.Arithmetic
import CodeAtlas.Proofs.Json.Scaling
import CodeAtlas.Proofs.Json.Rereading
import CodeAtlas.Proofs.Graph.Strategies
import CodeAtlas.Proofs.Remote.Frames
import CodeAtlas.Proofs.Extraction.Locality
import CodeAtlas.Proofs.Remote.Literal
import CodeAtlas.Proofs.Remote.Agreement
import CodeAtlas.Proofs.Navigator
import CodeAtlas.Proofs.CommandLine.Passwords
import CodeAtlas.Proofs.Extraction.Imports
import CodeAtlas.Proofs.Sources
import CodeAtlas.Proofs.CommandLine.Question
import CodeAtlas.Proofs.CommandLine.Surfaces
import CodeAtlas.Proofs.Syntax.Definitions
import CodeAtlas.Proofs.Syntax.Statements
import CodeAtlas.Proofs.Text.Lines
import CodeAtlas.Proofs.Chunking.Text
import CodeAtlas.Proofs.Chunking.Files
import CodeAtlas.Proofs.Extraction.Spelling
import CodeAtlas.Proofs.Search.Saturation
import CodeAtlas.Proofs.Remote.Loading
import CodeAtlas.Proofs.Scan
import CodeAtlas.Proofs.Graph.Counting
import CodeAtlas.Proofs.CommandLine.Loading
import CodeAtlas.Proofs.Lookup
import CodeAtlas.Proofs.Atomicity
import CodeAtlas.Proofs.Json.Nesting
import CodeAtlas.Proofs.Json.Records
import CodeAtlas.Proofs.Json.Strays
import CodeAtlas.Proofs.Refusals
import CodeAtlas.Proofs.Search.Migration
import CodeAtlas.Proofs.Remote.Addresses
import CodeAtlas.Proofs.Extraction.Conventions
import CodeAtlas.Proofs.Remote.Handshake
import CodeAtlas.Proofs.Extraction.Positions
import CodeAtlas.Proofs.Extraction.Layout
import CodeAtlas.Proofs.Configuration.Layers
import CodeAtlas.Proofs.Graph.Batches
import CodeAtlas.Proofs.Remote.Buffers
