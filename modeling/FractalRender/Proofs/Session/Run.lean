import FractalRender.Proofs.Session.Transition

/-!
# Sessions — runs

A run does steps until no pass is under way.  `steps` is the history of so many steps, and `Ran`
says that what a run answered is read off the record of its steps.

* `runFor_after`: a run that came to its end is a history of steps that leaves the session idle.
* `runFor_of_idle`: a run comes to its end when it may do more steps than it takes until no pass is
  under way, and it answers what the record of these steps says.
-/

namespace FractalRender

namespace Session

variable {α : Type} [Scalar α] [Elementary α]

omit [Scalar α] [Elementary α] in
/-- So many steps, at the clock's readings from the given one on. -/
def steps (clock : Nat → Float) (i n : Nat) : History α :=
  (List.range' i n).map fun j => ⟨clock j, .step⟩

omit [Scalar α] [Elementary α] in
theorem steps_succ (clock : Nat → Float) (i n : Nat) :
    (steps clock i (n + 1) : History α) = ⟨clock i, .step⟩ :: steps clock (i + 1) n := by
  rw [steps, List.range'_succ]
  rfl

omit [Scalar α] [Elementary α] in
theorem steps_add (clock : Nat → Float) (i m n : Nat) :
    (steps clock i (m + n) : History α) = steps clock i m ++ steps clock (i + m) n := by
  rw [steps, ← List.range'_append_1, List.map_append]
  rfl

omit [Scalar α] [Elementary α] in
theorem mem_steps {clock : Nat → Float} {i n : Nat} {a : Action α} (h : a ∈ steps clock i n) :
    a.operation = .step := by
  obtain ⟨j, -, rfl⟩ := List.mem_map.mp h
  rfl

omit [Scalar α] [Elementary α] in
theorem stepCount_steps (clock : Nat → Float) (i n : Nat) :
    stepCount (steps clock i n : History α) = n := by
  rw [stepCount, List.countP_eq_length.mpr fun a ha => by rw [mem_steps ha]; rfl]
  simp [steps]

/-- Only an idle session has nothing to do, and is left as it was. -/
theorem step_outcome_idle {s : Session α} {now : Float} (h : (s.step now).result.outcome = .idle) :
    (s.step now).session = s ∧ s.pass = none := by
  rcases step_outcome s now with ⟨hp, hs⟩ | ⟨d, -, hs | hs⟩
  · exact ⟨by rw [hs], hp⟩
  · cases hs.symm.trans h
  · cases hs.symm.trans h

/-- **A run** is a history of steps that leaves the session idle. -/
theorem runFor_after {clock : Nat → Float} {n i : Nat} {s : Session α}
    {r : Reply α RunResult} (h : runFor clock n i s = some r) :
    ∃ k, r.session = s.after (steps clock i k) ∧ r.session.pass = none := by
  induction n generalizing i s r with
  | zero => cases h
  | succ n ih =>
      have next (q) (hq : runFor clock n (i + 1) (s.step (clock i)).session = some q) :
          ∃ k, q.session = s.after (steps clock i k) ∧ q.session.pass = none := by
        obtain ⟨k, hk, hnone⟩ := ih hq
        refine ⟨k + 1, ?_, hnone⟩
        rw [steps, List.range'_succ]
        exact hk
      rw [runFor] at h
      split at h
      · next hidle =>
          obtain rfl := Option.some.inj h
          obtain ⟨hs, hp⟩ := step_outcome_idle hidle
          exact ⟨0, hs, by rw [hs]; exact hp⟩
      · obtain ⟨q, hq, rfl⟩ := Option.map_eq_some_iff.mp h
        exact next q hq
      · obtain ⟨q, hq, rfl⟩ := Option.map_eq_some_iff.mp h
        exact next q hq

/-- What a run answered is read off the record of its steps: the rows given to the host, and the
status of the last pass that ended. -/
structure Ran (s : Session α) (h : History α) (r : Reply α RunResult) : Prop where
  session : r.session = s.after h
  commits : r.result.commits = s.commits h
  last : r.result.last = (s.ended h).getLast?.map Prod.snd
  idle : r.session.pass = none

/-- Steps of an idle session do nothing. -/
theorem ran_of_idle {s : Session α} (hp : s.pass = none) (clock : Nat → Float) (i k : Nat)
    (log : List (Event α)) : Ran s (steps clock i k) ⟨s, ⟨none, []⟩, log⟩ := by
  induction k generalizing i with
  | zero => exact ⟨rfl, rfl, rfl, hp⟩
  | succ k ih =>
      obtain ⟨hs, hc, hl, -⟩ := ih (i + 1)
      have hact : s.act ⟨clock i, .step⟩ = ⟨s, .stepped ⟨.idle, []⟩, []⟩ := by
        simp only [act, perform, answer, step_idle hp]
      rw [steps_succ]
      refine ⟨?_, ?_, ?_, hp⟩
      · rw [after_cons, hact]
        exact hs
      · rw [commits_cons, hact]
        exact hc
      · rw [ended_cons, entry, hact]
        exact hl

/-- The pass under way ends with a step when the step says so. -/
theorem entry_step_ended? {s : Session α} {p : Pass α} (hp : s.pass = some p) (now : Float) :
    (s.entry ⟨now, .step⟩).ended? =
      match (s.step now).result.outcome with
      | .finished status => some (p, status)
      | _ => none := by
  rw [Entry.ended?_eq hp]
  show ((Answer.stepped (α := α) (s.step now).result).finished?).map _ = _
  generalize (s.step now).result = r
  obtain ⟨outcome, commits⟩ := r
  cases outcome <;> rfl

/-- A step of a pass under way, and then a run. -/
theorem Ran.cons {s : Session α} {now : Float} {h : History α} {q : Reply α RunResult}
    (hq : Ran (s.step now).session h q) {status : Option Status}
    (hs : (s.entry ⟨now, .step⟩).ended?.map Prod.snd = status) (log : List (Event α)) :
    Ran s (⟨now, .step⟩ :: h)
      ⟨q.session, ⟨q.result.last <|> status, (s.step now).result.commits ++ q.result.commits⟩,
        log⟩ where
  session := hq.session
  commits := congrArg ((s.step now).result.commits ++ ·) hq.commits
  last := by
    show (q.result.last <|> status) = _
    rw [ended_cons, List.getLast?_append, hq.last, ← hs]
    show _ = Option.map Prod.snd (((s.step now).session.ended h).getLast?.or _)
    cases ((s.step now).session.ended h).getLast? <;> cases (s.entry ⟨now, .step⟩).ended? <;> rfl
  idle := hq.idle

/-- **A run comes to its end** when it may do more steps than it takes until no pass is under way,
and it answers what the record of these steps says. -/
theorem runFor_of_idle {clock : Nat → Float} {n i k : Nat} {s : Session α}
    (hidle : (s.after (steps clock i k)).pass = none) (hk : k < n) :
    ∃ r, runFor clock n i s = some r ∧ Ran s (steps clock i k) r := by
  induction n generalizing i k s with
  | zero => exact absurd hk (Nat.not_lt_zero k)
  | succ n ih =>
      rcases step_outcome s (clock i) with ⟨hp, hs⟩ | ⟨d, hd, ho⟩
      · refine ⟨⟨s, ⟨none, []⟩, []⟩, ?_, ran_of_idle hp clock i k []⟩
        simp only [runFor, hs]
      · have hp := (drawing?_eq_some.mp hd).1
        obtain _ | k := k
        · -- no step was done, but a pass is under way
          rw [show s.after (steps clock i 0) = s from rfl, hp] at hidle
          cases hidle
        · rw [steps_succ] at hidle ⊢
          obtain ⟨q, hq, hran⟩ :=
            ih (s := (s.step (clock i)).session) hidle (Nat.lt_of_succ_lt_succ hk)
          rcases ho with ho | ho
          · have hs : (s.entry ⟨clock i, .step⟩).ended?.map Prod.snd = none := by
              rw [entry_step_ended? hp, ho]
              rfl
            have hran := hran.cons hs ((s.step (clock i)).log ++ q.log)
            rw [show (q.result.last <|> none) = q.result.last by simp] at hran
            exact ⟨_, by simp only [runFor, ho, hq, Option.map_some], hran⟩
          · have hs : (s.entry ⟨clock i, .step⟩).ended?.map Prod.snd =
                some (d.pass.statusAt (clock i)) := by
              rw [entry_step_ended? hp, ho]
              rfl
            have hran := hran.cons hs ((s.step (clock i)).log ++ q.log)
            exact ⟨_, by simp only [runFor, ho, hq, Option.map_some], hran⟩

end Session

end FractalRender
