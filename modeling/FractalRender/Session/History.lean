import FractalRender.Session.Operation

/-!
# Histories

A history is a list of operations, each done at a reading of the host's clock.  `after` is the
session that a history leaves, and `entries` is the record of what happened on the way; which rows
the host was given (`commits`), which passes ended (`ended`) and how many started (`starts`) is
read off the record.  `checkedAfter` is the session that a history leaves in a build with overflow
checks, if none of its steps overflows.

A session is *reachable* when a history leads to it from a new one.  It is *at the start of a pass*
(`AtPassStart`) when its last action started one.  A history *ends the pass* (`EndsPass`) when its
last action is the step with which the pass under way ends.
-/

namespace FractalRender

/-- An operation, and the reading of the host's clock at which it is done. -/
structure Action (α : Type) where
  now : Float
  operation : Operation α

/-- Actions, in the order in which they are done. -/
abbrev History (α : Type) := List (Action α)

/-- Whether an operation is a step. -/
def Operation.isStep {α : Type} : Operation α → Bool
  | .step => true
  | _ => false

namespace Answer

variable {α : Type}

/-- The rows given to the host. -/
def commits : Answer α → List Commit
  | .stepped r => r.commits
  | _ => []

/-- The status of the pass that ended. -/
def finished? : Answer α → Option Status
  | .stepped ⟨.finished status, _⟩ => some status
  | _ => none

/-- Whether a render was asked for.  Requests that are refused for their arguments ask for none. -/
def asks : Answer α → Bool
  | .outcome _ => true
  | _ => false

/-- Whether a render was asked for and is to follow the pass under way. -/
def isDeferred : Answer α → Bool
  | .outcome .deferred => true
  | _ => false

end Answer

/-- What one action did: the session before it, and the reply. -/
structure Entry (α : Type) where
  before : Session α
  reply : Reply α (Answer α)

namespace Entry

variable {α : Type}

/-- The pass that ended, as it stood before its last step, with its status. -/
def ended? (e : Entry α) : Option (Pass α × Status) :=
  e.reply.result.finished?.bind fun status => e.before.pass.map (·, status)

/-- While a pass is under way, it is the one that ends. -/
theorem ended?_eq {e : Entry α} {p : Pass α} (hp : e.before.pass = some p) :
    e.ended? = e.reply.result.finished?.map (p, ·) := by
  rw [ended?, hp, Option.map_eq_bind]
  rfl

/-- Whether a pass started: one is under way that was not under way before. -/
def startsPass (e : Entry α) : Bool :=
  e.reply.session.isRendering && (!e.before.isRendering || e.reply.result.finished?.isSome)

/-- An action that ends no pass starts none, if it leaves as many under way as it found. -/
theorem startsPass_eq_false {e : Entry α}
    (hp : e.reply.session.isRendering = e.before.isRendering)
    (hf : e.reply.result.finished? = none) : e.startsPass = false := by
  cases hb : e.before.isRendering <;> simp [startsPass, hp, hf, hb]

end Entry

namespace Session

variable {α : Type} [Scalar α] [Elementary α]

/-- The session with an action done. -/
def act (s : Session α) (a : Action α) : Reply α (Answer α) := s.perform a.now a.operation

/-- The record of one action. -/
def entry (s : Session α) (a : Action α) : Entry α := ⟨s, s.act a⟩

/-- The session after a history. -/
def after (s : Session α) (h : History α) : Session α := h.foldl (fun s a => (s.act a).session) s

/-- The session with an action done, in a build with overflow checks. -/
def checkedAct (s : Session α) (a : Action α) : Except Overflow (Session α) :=
  match a.operation with
  | .step => (s.checkedStep a.now).map (·.session)
  | _ => .ok (s.act a).session

/-- The session after a history, in a build with overflow checks. -/
def checkedAfter (s : Session α) (h : History α) : Except Overflow (Session α) :=
  h.foldlM checkedAct s

/-- The record of a history. -/
def entries : Session α → History α → List (Entry α)
  | _, [] => []
  | s, a :: h => s.entry a :: entries (s.act a).session h

/-- The rows given to the host in a history. -/
def commits (s : Session α) (h : History α) : List Commit :=
  (s.entries h).flatMap (·.reply.result.commits)

/-- The passes that ended in a history, with their statuses. -/
def ended (s : Session α) (h : History α) : List (Pass α × Status) :=
  (s.entries h).filterMap Entry.ended?

/-- How many passes started in a history. -/
def starts (s : Session α) (h : History α) : Nat := (s.entries h).countP Entry.startsPass

/-- How many requests were deferred in a history. -/
def deferrals (s : Session α) (h : History α) : Nat :=
  (s.entries h).countP (·.reply.result.isDeferred)

/-- Whether a render was asked for in a history. -/
def asks (s : Session α) (h : History α) : Bool := (s.entries h).any (·.reply.result.asks)

/-- A history leads to the session from a new one. -/
def Reachable (s : Session α) : Prop :=
  ∃ config surface options h, s = (new config surface options).after h

/-- The session is reachable, and the action that led to it started a pass. -/
def AtPassStart (s : Session α) : Prop :=
  ∃ r a, Reachable r ∧ (r.entry a).startsPass = true ∧ s = (r.act a).session

/-- The history goes on until the pass under way ends, with the given status, and no further. -/
def EndsPass (s : Session α) (h : History α) (status : Status) : Prop :=
  ∃ g now, h = g ++ [⟨now, .step⟩] ∧ s.ended g = [] ∧
    ((s.after g).step now).result.outcome = .finished status

/-! ### Histories by their first action -/

theorem after_cons (s : Session α) (a : Action α) (h : History α) :
    s.after (a :: h) = (s.act a).session.after h := rfl

theorem commits_cons (s : Session α) (a : Action α) (h : History α) :
    s.commits (a :: h) = (s.act a).result.commits ++ (s.act a).session.commits h := rfl

theorem ended_cons (s : Session α) (a : Action α) (h : History α) :
    s.ended (a :: h) = (s.entry a).ended?.toList ++ (s.act a).session.ended h := by
  cases he : (s.entry a).ended? <;> simp [ended, entries, he]

/-- While a pass is under way, no pass ends in a history when its first action ends none. -/
theorem ended_cons_eq_nil {s : Session α} {p : Pass α} (hp : s.pass = some p) {a : Action α}
    {h : History α} : s.ended (a :: h) = [] ↔
      (s.act a).result.finished? = none ∧ (s.act a).session.ended h = [] := by
  rw [ended_cons, Entry.ended?_eq hp, List.append_eq_nil_iff, Option.toList_eq_nil_iff,
    Option.map_eq_none_iff]
  rfl

theorem starts_cons (s : Session α) (a : Action α) (h : History α) :
    s.starts (a :: h) = (s.act a).session.starts h + (s.entry a).startsPass.toNat := by
  cases hs : (s.entry a).startsPass <;> simp [starts, entries, hs]

theorem deferrals_cons (s : Session α) (a : Action α) (h : History α) :
    s.deferrals (a :: h) =
      (s.act a).session.deferrals h + (s.act a).result.isDeferred.toNat := by
  cases hd : (s.act a).result.isDeferred <;> simp [deferrals, entries, entry, hd]

/-! ### Histories in two parts -/

theorem after_append (s : Session α) (g h : History α) :
    s.after (g ++ h) = (s.after g).after h := by
  simp [after]

theorem entries_append (s : Session α) (g h : History α) :
    s.entries (g ++ h) = s.entries g ++ (s.after g).entries h := by
  induction g generalizing s with
  | nil => rfl
  | cons a g ih => simp [entries, after, ih]

theorem commits_append (s : Session α) (g h : History α) :
    s.commits (g ++ h) = s.commits g ++ (s.after g).commits h := by
  simp [commits, entries_append]

theorem ended_append (s : Session α) (g h : History α) :
    s.ended (g ++ h) = s.ended g ++ (s.after g).ended h := by
  simp [ended, entries_append]

theorem asks_append (s : Session α) (g h : History α) :
    s.asks (g ++ h) = (s.asks g || (s.after g).asks h) := by
  simp [asks, entries_append]

theorem asks_concat (s : Session α) (h : History α) (a : Action α) :
    s.asks (h ++ [a]) = (s.asks h || ((s.after h).act a).result.asks) := by
  rw [asks_append]
  simp [asks, entries, entry]

/-- The last pass to end in a history that is longer by one action. -/
theorem getLast?_ended_concat (s : Session α) (h : History α) (a : Action α) :
    (s.ended (h ++ [a])).getLast? = ((s.after h).entry a).ended?.or (s.ended h).getLast? := by
  rw [ended_append, List.getLast?_append, ended_cons]
  cases ((s.after h).entry a).ended? <;> rfl

theorem after_concat (s : Session α) (h : History α) (a : Action α) :
    s.after (h ++ [a]) = ((s.after h).act a).session :=
  after_append s h [a]

theorem Reachable.act {s : Session α} (h : Reachable s) (a : Action α) :
    Reachable (s.act a).session := by
  obtain ⟨c, f, o, g, rfl⟩ := h
  exact ⟨c, f, o, g ++ [a], (after_concat _ g a).symm⟩

end Session

end FractalRender
