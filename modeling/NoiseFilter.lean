import NoiseFilter.Binary.Format
import NoiseFilter.Binary.Rounding
import NoiseFilter.Binary.Value
import NoiseFilter.Bytes.Buffer
import NoiseFilter.Bytes.Words
import NoiseFilter.Command.Line
import NoiseFilter.Command.Run
import NoiseFilter.Configuration.Basic
import NoiseFilter.Configuration.Document
import NoiseFilter.Configuration.Storage
import NoiseFilter.Decimal.Layout
import NoiseFilter.Decimal.Numeral
import NoiseFilter.Decimal.Text
import NoiseFilter.Engine.Basic
import NoiseFilter.Engine.Network
import NoiseFilter.Engine.Script
import NoiseFilter.Files.Basic
import NoiseFilter.Files.Tree
import NoiseFilter.Json.Error
import NoiseFilter.Json.Number
import NoiseFilter.Json.Reader
import NoiseFilter.Json.Record
import NoiseFilter.Json.Skip
import NoiseFilter.Json.Text
import NoiseFilter.Json.Writer
import NoiseFilter.Main
import NoiseFilter.Pcm.Accumulator
import NoiseFilter.Pcm.Frame
import NoiseFilter.Pcm.Level
import NoiseFilter.Pcm.Sample
import NoiseFilter.Proofs.Binary.Exact
import NoiseFilter.Proofs.Binary.Nearest
import NoiseFilter.Proofs.Command.Processing
import NoiseFilter.Proofs.Configuration.Loading
import NoiseFilter.Proofs.Configuration.RoundTrip
import NoiseFilter.Proofs.Files.Keeping
import NoiseFilter.Proofs.Hub.Governance
import NoiseFilter.Proofs.Hub.Isolation
import NoiseFilter.Proofs.Hub.Projection
import NoiseFilter.Proofs.Json.Grammar
import NoiseFilter.Proofs.Json.Numbers
import NoiseFilter.Proofs.Json.Records
import NoiseFilter.Proofs.Json.Skipping
import NoiseFilter.Proofs.Json.Texts
import NoiseFilter.Proofs.Json.Writing
import NoiseFilter.Proofs.Pcm.Attenuation
import NoiseFilter.Proofs.Pcm.Codec
import NoiseFilter.Proofs.Pcm.Cutting
import NoiseFilter.Proofs.Pcm.Feeding
import NoiseFilter.Proofs.Pcm.Quantization
import NoiseFilter.Proofs.Replay.Agreement
import NoiseFilter.Proofs.Replay.Packets
import NoiseFilter.Proofs.Replay.Passage
import NoiseFilter.Proofs.Replay.Prefix
import NoiseFilter.Proofs.Replay.Sequence
import NoiseFilter.Proofs.Replay.Sizes
import NoiseFilter.Proofs.Replay.Totals
import NoiseFilter.Proofs.Rtp.Alike
import NoiseFilter.Proofs.Rtp.Buffered
import NoiseFilter.Proofs.Rtp.Elements
import NoiseFilter.Proofs.Rtp.Orderly
import NoiseFilter.Proofs.Rtp.Overrun
import NoiseFilter.Proofs.Rtp.RoundTrip
import NoiseFilter.Proofs.Stream.Alignment
import NoiseFilter.Proofs.Stream.Answers
import NoiseFilter.Proofs.Stream.Backlog
import NoiseFilter.Proofs.Stream.Conservation
import NoiseFilter.Proofs.Stream.Counting
import NoiseFilter.Proofs.Stream.Disregard
import NoiseFilter.Proofs.Stream.Exits
import NoiseFilter.Proofs.Stream.Flow
import NoiseFilter.Proofs.Stream.Headers
import NoiseFilter.Proofs.Stream.InPlace
import NoiseFilter.Proofs.Stream.Independence
import NoiseFilter.Proofs.Stream.Ledger
import NoiseFilter.Proofs.Stream.Lifecycle
import NoiseFilter.Proofs.Stream.Numbering
import NoiseFilter.Proofs.Stream.Promptness
import NoiseFilter.Proofs.Stream.Release
import NoiseFilter.Proofs.Stream.Run
import NoiseFilter.Proofs.Stream.Splitting
import NoiseFilter.Proofs.Stream.Suppression
import NoiseFilter.Proofs.Stream.Thresholds
import NoiseFilter.Proofs.Stream.Treatment
import NoiseFilter.Proofs.Stream.Untouched
import NoiseFilter.Replay.Packetizer
import NoiseFilter.Replay.Run
import NoiseFilter.Replay.Sink
import NoiseFilter.Rtp.Extension
import NoiseFilter.Rtp.Packet
import NoiseFilter.Settings.Basic
import NoiseFilter.Settings.Shared
import NoiseFilter.Stream.Analysis
import NoiseFilter.Stream.Binding
import NoiseFilter.Stream.Counters
import NoiseFilter.Stream.Filter
import NoiseFilter.Stream.Hub
import NoiseFilter.Stream.Notice
import NoiseFilter.Stream.Transport
import NoiseFilter.Text.Quoted
import NoiseFilter.Text.Shown
