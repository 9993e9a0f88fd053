import FractalRender.Session.Request

/-!
# Steps

A step does a bounded piece of the work of the pass under way and gives the rows it touched to
the host.  The last step of a pass writes its status and starts the pass that was asked for
meanwhile.

A step and all that it sets off share one reading of the host's clock.  A host whose clock moves on
in between shows it in elapsed times and in nothing else.

`step` counts as a build without overflow checks does.  `checkedStep` is the step of a build with
them.
-/

namespace FractalRender

variable {α : Type} [Scalar α] [Elementary α]

/-- The colour of a pixel: the palette's colour of the kernel's value there.  Without a value the
pixel is interior. -/
def pixelColor (k : ResolvedKernel α) (c : Config α) (v : Viewport α) (s : Surface) (x y : Nat) :
    Rgb :=
  let cap : α := Scalar.ofNat c.maxIterations.toNat
  let z := v.toComplex ⟨Scalar.ofNat x, Scalar.ofNat y⟩ s
  let value := (k.evaluate c.params z).getD cap
  c.palette.color (Kernel.colorValue c.kind value c.maxIterations) cap

/-- What a step of a pass leaves behind. -/
structure Worked (α : Type) where
  work : Work α
  buffer : PixelBuffer
  /-- The rows that are ready for the host. -/
  rows : RowRange
  /-- Whether the pass is at its end. -/
  done : Bool

/-- One step of the work of a pass. -/
def Pass.advance (p : Pass α) (o : Options α) (b : PixelBuffer) : Worked α :=
  let all : RowRange := ⟨0, p.surface.height⟩
  match p.work with
  | .pixels kernel bands next =>
    match bands[next]? with
    | some band =>
      let size := b.size
      ⟨.pixels kernel bands (next + 1), b.paint band (pixelColor kernel p.config p.viewport size),
        band.rows, decide (bands.size ≤ next + 1)⟩
    | none => ⟨p.work, b, ⟨0, 0⟩, true⟩
  | .points sampler =>
    let a := sampler.advance o.pointsPerTick p.viewport b
    ⟨.points a.sampler, a.buffer, all, a.sampler.isDone⟩
  | .curve => ⟨.curve, Koch.draw α b p.config.maxIterations p.config.palette, all, true⟩
  | .unavailable => ⟨.unavailable, b.fill .black, all, true⟩

omit [Scalar α] [Elementary α] in
/-- Whether a pass has nothing to draw with. -/
def Pass.isUnavailable (p : Pass α) : Bool :=
  match p.work with
  | .unavailable => true
  | _ => false

omit [Scalar α] [Elementary α] in
theorem Pass.isUnavailable_iff {p : Pass α} : p.isUnavailable = true ↔ p.work = .unavailable := by
  unfold isUnavailable
  split <;> simp_all

omit [Scalar α] [Elementary α] in
/-- The status of a pass that ends at a reading of the host's clock. -/
def Pass.statusAt (p : Pass α) (now : Float) : Status :=
  ⟨p.config.kind, p.backend, now - p.startedMs, !p.isUnavailable⟩

/-- The rows of a buffer as they are given to the host; no rows are not given. -/
def Commit.ofRows (surface : Surface) (b : PixelBuffer) (rows : RowRange) : List Commit :=
  if rows.isEmpty || surface.width == 0 then [] else [⟨b, rows⟩]

omit [Scalar α] [Elementary α] in
/-- A number of steps within which the pass under way ends, if every step does some work. -/
def Pass.stepsLeft (p : Pass α) : Nat :=
  match p.work with
  | .pixels _ bands next => bands.size - next + 1
  | .points sampler => sampler.target - sampler.emitted + 1
  | .curve | .unavailable => 1

namespace Session

omit [Scalar α] [Elementary α] in
/-- The status of a session whose pass is at its end.  A session without a pass counts as one
that has nothing to draw with. -/
def endStatus (s : Session α) (now : Float) : Status :=
  match s.pass with
  | some p => p.statusAt now
  | none => ⟨s.config.kind, .unavailable, now - now, false⟩

/-- Ends a pass: its status is written, and the pass that was asked for meanwhile starts.  The
reading of the clock is that of the step that ends the pass, and the next pass starts at it too. -/
def finishPass (s : Session α) (now : Float) : Reply α Status :=
  let status := s.endStatus now
  let t := { s with
    pass := none
    progress := s.progress.finish status.elapsedMs
    status := some status }
  if t.pending then
    let r := { t with pending := false }.requestRender now
    ⟨r.session, status, .passFinished status :: r.log⟩
  else ⟨t, status, [.passFinished status]⟩

/-- Does one step of the pass under way, at one reading of the clock.  The sum with which the step is
counted is that of a build without overflow checks. -/
def step (s : Session α) (now : Float) : Reply α StepResult :=
  match s.pass with
  | none => ⟨s, ⟨.idle, []⟩, []⟩
  | some p =>
    let w := p.advance s.options s.buffer
    let commits := Commit.ofRows p.surface w.buffer w.rows
    let p := { p with work := w.work }
    let t := { s with
      buffer := w.buffer
      pass := some p
      progress := s.progress.recordStepUnchecked (now - p.startedMs) }
    if w.done then
      let r := t.finishPass now
      ⟨r.session, ⟨.finished r.result, commits⟩, r.log⟩
    else ⟨t, ⟨.more, commits⟩, []⟩

/-- Does one step of the pass under way, in a build with overflow checks: it stops when the count of
the steps has no room for one more, and else does what `step` does. -/
def checkedStep (s : Session α) (now : Float) : Except Overflow (Reply α StepResult) :=
  match s.pass with
  | none => .ok (s.step now)
  | some p => (s.progress.recordStep (now - p.startedMs)).map fun _ => s.step now

/-- What a run answers: the status of the last pass that ended, and all rows given to the
host. -/
structure RunResult where
  last : Option Status
  commits : List Commit

/-- At most `n` steps, until no pass is under way.  The clock gives a reading for each step. -/
def runFor (clock : Nat → Float) : Nat → Nat → Session α → Option (Reply α RunResult)
  | 0, _, _ => none
  | n + 1, i, s =>
    let r := s.step (clock i)
    match r.result.outcome with
    | .idle => some ⟨r.session, ⟨none, []⟩, r.log⟩
    | .more =>
      (runFor clock n (i + 1) r.session).map fun q =>
        ⟨q.session, ⟨q.result.last, r.result.commits ++ q.result.commits⟩, r.log ++ q.log⟩
    | .finished status =>
      (runFor clock n (i + 1) r.session).map fun q =>
        ⟨q.session, ⟨q.result.last <|> some status, r.result.commits ++ q.result.commits⟩,
          r.log ++ q.log⟩

omit [Scalar α] [Elementary α] in
/-- A number of steps within which no pass is under way any more, if every step does some
work: those of the pass under way and of the one that may follow. -/
def stepsLeft (s : Session α) : Nat :=
  (s.pass.map Pass.stepsLeft).getD 0 +
    (s.surface.height.toNat + PointCloud.pointTarget s.config.maxIterations + 1) + 1

/-- Steps until no pass is under way.  Nothing comes back from a session that would go on for
ever because its steps do no work. -/
def runToCompletion (s : Session α) (clock : Nat → Float) : Option (Reply α RunResult) :=
  runFor clock s.stepsLeft 0 s

end Session

end FractalRender
