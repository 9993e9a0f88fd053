import FractalRender.Browser
import FractalRender.Proofs.Session.Coalesce
import FractalRender.Proofs.Session.Isolation
import FractalRender.Proofs.Session.Pointwise
import FractalRender.Proofs.Session.Duration
import FractalRender.Proofs.Session.Readback
import FractalRender.Proofs.Scalar.Normal
import FractalRender.Proofs.Scalar.Count
import FractalRender.Proofs.Scalar.Order
import FractalRender.Proofs.Kernel.Cap
import FractalRender.Proofs.Session.Scale
import FractalRender.Proofs.Session.Refusal
import FractalRender.Proofs.Backend.Resolution
import FractalRender.Proofs.Backend.Native
import FractalRender.Proofs.Session.Twins
import FractalRender.Proofs.PointCloud.Orbit
import FractalRender.Proofs.PointCloud.Batches
import FractalRender.Proofs.PointCloud.Seeds
import FractalRender.Proofs.PointCloud.Image
import FractalRender.Proofs.Session.CloudSteps
import FractalRender.Proofs.Session.View
import FractalRender.Proofs.Backend.Agreement
import FractalRender.Proofs.Backend.Acceptance
import FractalRender.Proofs.Json.Data
import FractalRender.Proofs.Browser.Loop
import FractalRender.Proofs.Browser.ConfigText
import FractalRender.Proofs.Koch.Geometry
import FractalRender.Proofs.Raster.Stroke
import FractalRender.Proofs.Raster.Connected
import FractalRender.Proofs.Viewport.Zoom
import FractalRender.Proofs.Session.Span
import FractalRender.Proofs.Session.Progress
import FractalRender.Proofs.PointCloud.Bounds
import FractalRender.Proofs.Session.Inside
import FractalRender.Proofs.Kernel.Coloring
import FractalRender.Proofs.Scalar.Opposite
import FractalRender.Proofs.Kernel.Mirror
import FractalRender.Proofs.Raster.RowMajor
import FractalRender.Proofs.Json.Names
import FractalRender.Proofs.Json.Fields
