import HftRecorder.Codec.VarInt
import HftRecorder.Format.SourceHealth
import HftRecorder.Reader.Hydration
import HftRecorder.Reader.Losses
import HftRecorder.Reference.Acquisition
import HftRecorder.Capture.DepthChunk
import HftRecorder.Capture.Watermark
import HftRecorder.Capture.FrozenLosses
import HftRecorder.Capture.LateHealth
import HftRecorder.Session.Admission
import HftRecorder.Session.LineCounts
import HftRecorder.Replay.Seek
import HftRecorder.Replay.EventOrder
import HftRecorder.Replay.FixedDepth
import HftRecorder.Replay.BookViews
import HftRecorder.Replay.EventStorage
import HftRecorder.Capture.Selection
import HftRecorder.History.DecimalImport
import HftRecorder.Session.TradeHistory
import HftRecorder.Capture.DrainedArena
import HftRecorder.Recordings.FolderSymbol
import HftRecorder.Session.CandleLines
import HftRecorder.Capture.BufferedCuts
