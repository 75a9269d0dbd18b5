import Interpose.Proofs.Passes

/-!
# Cancelled passes

A pass that sees the flag of its token at one of its checkpoints gives nothing, and one that sees it
at none gives its whole output: `run_eq`.
-/

namespace Interpose

/-! ### Walks -/

namespace Environment

def stops (environment : Environment) (points : List Checkpoint) : Bool :=
  points.any environment.cancelled

variable {environment : Environment} {α β : Type}

theorem stops_cons (point : Checkpoint) (points : List Checkpoint) :
    environment.stops (point :: points) =
      (environment.cancelled point || environment.stops points) := rfl

theorem stops_append (first second : List Checkpoint) :
    environment.stops (first ++ second) =
      (environment.stops first || environment.stops second) := List.any_append

theorem check_eq (point : Checkpoint) :
    environment.check point =
      if environment.stops [point] then .error .cancelled else .ok () := by
  rw [stops_cons, stops, List.any_nil, Bool.or_false]
  rfl

theorem walk_eq (point : Nat → Checkpoint) (work : α → β) (xs : List α) :
    environment.walk point work xs =
      if environment.stops ((List.range xs.length).map point) then .error .cancelled
      else .ok (xs.map work) := by
  unfold walk
  rw [List.range_eq_range']
  generalize 0 = start
  induction xs generalizing start with
  | nil => rfl
  | cons x xs ih =>
    rw [List.zipIdx_cons, List.mapM_cons, ih, List.length_cons, List.range'_succ, List.map_cons,
      stops_cons]
    show ((environment.check (point start)).map (fun _ => work x) >>= _) = _
    unfold check
    cases environment.cancelled (point start) with
    | true => rfl
    | false =>
      rw [Bool.false_or]
      split <;> rfl

end Environment

namespace Pass

/-- The checkpoints of a pass that goes on to its end, in order. -/
def checkpoints (catalog : Catalog) (settings : Settings) (requests : List Request) :
    List Checkpoint :=
  let pairings := Pairing.merge requests
  let eligible := pairings.filter fun pairing =>
    (pairing.problems catalog settings.providerBase).isEmpty
  (List.range pairings.length).map .pairing ++ ((List.range eligible.length).map .plan ++
    ([.naming] ++ ((List.range (proxies catalog settings requests).length).map .proxy ++
      [.dispatcher])))

variable {environment : Environment} {catalog : Catalog} {settings : Settings}

theorem stop_bind {α β : Type} {stop : Bool} {value : α} {next : α → Except PassError β} :
    ((if stop then .error .cancelled else .ok value : Except PassError α) >>= next) =
      if stop then .error .cancelled else next value := by
  cases stop <;> rfl

theorem stop_stop {α : Type} {first second : Bool} {result : Except PassError α} :
    (if first then .error .cancelled else if second then .error .cancelled else result) =
      if first || second then .error .cancelled else result := by
  cases first <;> rfl

/-- A pass gives all of its output or none of it, whatever it sees at its checkpoints. -/
theorem run_eq (accepted : settings.check = .ok ()) (requests : List Request) :
    run environment catalog settings requests =
      if environment.stops (checkpoints catalog settings requests) then .error .cancelled
      else .ok (output catalog settings requests) := by
  unfold run
  rw [accepted]
  show (screen environment catalog settings.providerBase (Pairing.merge requests) >>= _) = _
  simp only [screen_eq_walk, plan_eq_walk, write_eq_walk, Environment.walk_eq,
    Environment.check_eq, stop_bind, eligible_map, plans_map, planProblems_map, problems_map,
    checkpoints, Environment.stops_append]
  simp only [← stop_stop]
  rfl

end Pass

end Interpose
