import ViewConstraints.Config.Load
import ViewConstraints.Decimal.Places
import ViewConstraints.Layout.Recording
import ViewConstraints.Session
import ViewConstraints.Proofs.Config.Described
import ViewConstraints.Proofs.Config.Reported
import ViewConstraints.Proofs.Session.Described
import ViewConstraints.Proofs.Session.Frames
import ViewConstraints.Proofs.Session.Isolation
import ViewConstraints.Proofs.Session.Reading
import ViewConstraints.Proofs.Session.Pinned
import ViewConstraints.Proofs.Session.Recorded
import ViewConstraints.Proofs.Session.Refusal
import ViewConstraints.Proofs.Session.Repinned
import ViewConstraints.Proofs.Session.Soft
import ViewConstraints.Proofs.Session.Activity
import ViewConstraints.Proofs.Session.Deactivation
import ViewConstraints.Proofs.Session.Released
import ViewConstraints.Proofs.Session.Restored
import ViewConstraints.Proofs.Scene.Geometry
import ViewConstraints.Proofs.Session.Batch
import ViewConstraints.Proofs.Session.Captured
import ViewConstraints.Proofs.Layout.LazyReads
