import RegionTrack.Decimal.Shortest
import RegionTrack.Decimal.Layout
import RegionTrack.Decimal.Nearest
import RegionTrack.Json.Value
import RegionTrack.Json.Write
import RegionTrack.Text.Printable
import RegionTrack.FileRead
import RegionTrack.FileSystem
import RegionTrack.Json.Error
import RegionTrack.Json.Cursor
import RegionTrack.Json.Number
import RegionTrack.Json.Read
import RegionTrack.Json.Shape
import RegionTrack.Error
import RegionTrack.Easing
import RegionTrack.Keyed
import RegionTrack.Curve
import RegionTrack.FrameRate
import RegionTrack.Time
import RegionTrack.Rect
import RegionTrack.Rect.Affine
import RegionTrack.Timeline
import RegionTrack.Observation
import RegionTrack.Adjustments
import RegionTrack.Track
import RegionTrack.Track.Metadata
import RegionTrack.Track.Properties
import RegionTrack.Track.Span
import RegionTrack.Cli.Spec
import RegionTrack.Cli.Similar
import RegionTrack.Cli.Help
import RegionTrack.Cli.Failure
import RegionTrack.Cli.Parse
import RegionTrack.Cli.Run
import RegionTrack.Main
import RegionTrack.Proofs.CurveMap
import RegionTrack.Proofs.TimeKey
import RegionTrack.Proofs.TimelineMap
import RegionTrack.Proofs.FrameQuery
import RegionTrack.Proofs.FloatRange
import RegionTrack.Proofs.QueryTime
import RegionTrack.Proofs.MetadataPatch
import RegionTrack.Proofs.ReaderSteps
import RegionTrack.Proofs.ReadNumber
import RegionTrack.Proofs.ReadString
import RegionTrack.Proofs.ObjectKeys
import RegionTrack.Proofs.ReadPretty
import RegionTrack.Proofs.ShapeValues
import RegionTrack.Proofs.MetadataRoundTrip
import RegionTrack.Proofs.TimeOrder
import RegionTrack.Proofs.Bracket
import RegionTrack.Proofs.FloatRatio
import RegionTrack.Proofs.CurveEval
import RegionTrack.Proofs.ToolOutcome
import RegionTrack.Proofs.ReadModes
import RegionTrack.Proofs.RecordText
import RegionTrack.Proofs.LinesRoundTrip
import RegionTrack.Proofs.TrackerDocument
import RegionTrack.Proofs.TrackLoad
import RegionTrack.Proofs.TrackSamples
import RegionTrack.Proofs.CurveSegments
import RegionTrack.Proofs.BezierSolver
import RegionTrack.Proofs.RateText
import RegionTrack.Proofs.KeyCompare
import RegionTrack.Proofs.SpanRects
import RegionTrack.Proofs.RectPatch
