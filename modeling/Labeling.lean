import Labeling.Backend.Client
import Labeling.Backend.Pump
import Labeling.Session.Operation
import Labeling.Proofs.Session.Currency
import Labeling.Proofs.Session.FrameBounds
import Labeling.Proofs.Session.ArrivalOrder
import Labeling.Proofs.Session.LastChoice
import Labeling.Proofs.Session.FailedAnswers
import Labeling.Proofs.Session.Submission
import Labeling.Proofs.Session.TrackFrames
import Labeling.Proofs.Session.Shapes
import Labeling.Proofs.Tracking.Numbers
import Labeling.Proofs.Session.Listing
import Labeling.Proofs.Tracking.Distinct
import Labeling.Proofs.Tool.Drawn
import Labeling.Proofs.Session.Timing
import Labeling.Proofs.Session.Drawn
import Labeling.Proofs.Canvas.Coherent
import Labeling.Proofs.Shape.RoundTrip
import Labeling.Proofs.Session.NoFrame
import Labeling.Proofs.Session.LateBounds
import Labeling.Proofs.Session.FrameImages
import Labeling.Proofs.Session.Weights
import Labeling.Proofs.Session.Policy
import Labeling.Proofs.Backend.Interleaving
import Labeling.Proofs.Backend.Settling
import Labeling.Proofs.Session.Additions
import Labeling.Proofs.Session.OrderlyUse
import Labeling.Proofs.Session.Digits
import Labeling.Proofs.Session.Message
import Labeling.Proofs.Tracking.Click
import Labeling.Proofs.Tracking.Fresh
import Labeling.Proofs.Tracking.Preserved
import Labeling.Proofs.Tool.Edits
import Labeling.Proofs.Canvas.TwoClicks
import Labeling.Proofs.Canvas.Drag
import Labeling.Proofs.Canvas.Upright
import Labeling.Proofs.Session.LastFrame
import Labeling.Proofs.Session.Params
import Labeling.Proofs.Tool.Labels
import Labeling.Proofs.Shape.TypedTrack
import Labeling.Proofs.Shape.Detections
import Labeling.Proofs.Feature
import Labeling.Proofs.Keyboard.Delivery
import Labeling.Proofs.Keyboard.Key
import Labeling.Proofs.Config
import Labeling.Proofs.Shape.Bounds
import Labeling.Proofs.Canvas.Hit
