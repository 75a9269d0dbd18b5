import Interpose.Proofs.Cancelling
import Interpose.Proofs.Conformance
import Mathlib.Data.List.Nodup
import Mathlib.Order.WellFounded

/-!
# Interleavings

The workers of a fan-out take turns in any order, and the flag of the token may be set between any
two steps. What comes out is what a pass gives that sees at each checkpoint what the workers saw
there: `run_interleaved`.
-/

namespace Interpose

namespace FanOut

/-- The items of each worker, of whom there is only one where the work is not spread. -/
def deal {α : Type} (parallel : Bool) (processors : Nat) (items : List α) : List (List α) :=
  if parallel && 1 < items.length then shares processors items else [items]

theorem run_eq_deal {α β : Type} (parallel : Bool) (processors : Nat) (work : α → β)
    (items : List α) :
    run parallel processors work items =
      (deal parallel processors items).flatMap fun chunk => chunk.map work := by
  unfold run deal
  split
  · rfl
  · rw [List.flatMap_singleton]

theorem deal_flatten {α : Type} (parallel : Bool) (processors : Nat) (items : List α) :
    (deal parallel processors items).flatten = items := by
  have dealt := run_eq_deal parallel processors id items
  rw [run_eq_map] at dealt
  simpa [List.flatMap_def] using dealt.symm

end FanOut

/-! ### Crews -/

/-- A worker of a fan-out. Each piece of work that it has not done yet waits behind a checkpoint. -/
structure Worker (β : Type) where
  results : List (Except PassError β)
  waiting : List (Checkpoint × β)

abbrev Crew (β : Type) : Type := List (Worker β)

namespace Crew

variable {α β : Type}

def start (parallel : Bool) (processors : Nat) (point : Nat → Checkpoint) (work : α → β)
    (xs : List α) : Crew β :=
  (FanOut.deal parallel processors xs.zipIdx).map fun chunk =>
    ⟨[], chunk.map fun (x, index) => (point index, work x)⟩

def points (crew : Crew β) : List Checkpoint := crew.flatMap fun worker => worker.waiting.map (·.1)

/-- One worker looks at the flag behind its next checkpoint and does the work there, or not. -/
inductive Turn (flag : Bool) : Crew β → Checkpoint → Crew β → Prop
  | take (before after : Crew β) (results : List (Except PassError β)) (point : Checkpoint)
      (value : β) (waiting : List (Checkpoint × β)) :
      Turn flag (before ++ ⟨results, (point, value) :: waiting⟩ :: after) point
        (before ++ ⟨results ++ [(PassError.unlessCancelled flag).map fun _ => value], waiting⟩ ::
          after)

/-- What the crew gives if its members see that at the checkpoints in front of them. -/
def outcome (environment : Environment) (crew : Crew β) : Except PassError (List β) :=
  (crew.flatMap fun worker => worker.results ++
    worker.waiting.map fun (point, value) => environment.guarded point value).mapM id

def results (crew : Crew β) : Except PassError (List β) := (crew.flatMap (·.results)).mapM id

theorem outcome_start (environment : Environment) (parallel : Bool) (point : Nat → Checkpoint)
    (work : α → β) (xs : List α) :
    (start parallel environment.processors point work xs).outcome environment =
      environment.walk point work xs := by
  have dealt := FanOut.run_eq_deal parallel environment.processors
    (fun (x, index) => environment.guarded (point index) (work x)) xs.zipIdx
  rw [FanOut.run_eq_map] at dealt
  unfold outcome start Environment.walk
  rw [List.flatMap_map]
  simp only [List.map_map, Function.comp_def, List.nil_append]
  rw [← dealt, List.mapM_map]
  rfl

theorem points_start (parallel : Bool) (processors : Nat) (point : Nat → Checkpoint)
    (work : α → β) (xs : List α) :
    (start parallel processors point work xs).points = (List.range xs.length).map point := by
  have dealt := FanOut.deal_flatten parallel processors xs.zipIdx
  unfold points start
  rw [List.flatMap_map]
  simp only [List.map_map, Function.comp_def]
  rw [List.flatMap_def, ← List.map_flatten, dealt, List.range_eq_range', ← List.zipIdx_map_snd 0 xs,
    List.map_map]
  rfl

theorem outcome_idle {environment : Environment} {crew : Crew β} (idle : crew.points = []) :
    crew.outcome environment = crew.results := by
  unfold outcome results
  congr 1
  apply List.flatMap_congr
  intro worker listed
  have done : worker.waiting = [] := List.map_eq_nil_iff.mp (List.flatMap_eq_nil_iff.mp idle _ listed)
  rw [done, List.map_nil, List.append_nil]

theorem exists_turn (flag : Bool) {crew : Crew β} (busy : crew.points ≠ []) :
    ∃ point next, Turn flag crew point next := by
  obtain ⟨point, member⟩ := List.exists_mem_of_ne_nil _ busy
  obtain ⟨worker, listed, waits⟩ := List.mem_flatMap.mp member
  obtain ⟨before, after, rfl⟩ := List.append_of_mem listed
  obtain ⟨results, waiting⟩ := worker
  cases waiting with
  | nil => cases waits
  | cons first waiting => exact ⟨_, _, .take before after results first.1 first.2 waiting⟩

variable {flag : Bool} {crew next : Crew β} {point : Checkpoint}

theorem Turn.outcome {environment : Environment} (turn : Turn flag crew point next)
    (sees : environment.cancelled point = flag) :
    next.outcome environment = crew.outcome environment := by
  cases turn with
  | take before after results point value waiting =>
    have reads : (PassError.unlessCancelled flag).map (fun _ => value) =
        environment.guarded point value := by
      rw [← sees]
      rfl
    unfold Crew.outcome
    simp only [List.flatMap_append, List.flatMap_cons, List.map_cons, reads, List.append_assoc,
      List.singleton_append]

theorem Turn.points (turn : Turn flag crew point next) :
    crew.points.Perm (point :: next.points) := by
  cases turn with
  | take before after results point value waiting =>
    unfold Crew.points
    simp only [List.flatMap_append, List.flatMap_cons, List.map_cons, List.cons_append]
    exact List.perm_middle

end Crew

/-! ### Moments -/

/-- The phase of a pass in which it comes to a checkpoint. -/
def Checkpoint.phase : Checkpoint → Nat
  | pairing _ => 0
  | plan _ => 1
  | naming => 2
  | proxy _ => 3
  | dispatcher => 4

namespace Pass

/-- How far a pass has come. -/
inductive Stage where
  | screening (screened : List Screened) (rest : List Pairing)
  | planning (screened : List Screened) (crew : Crew Planned)
  | naming (screened : List Screened) (planned : List Planned)
  | writing (screened : List Screened) (planned : List Planned) (crew : Crew Artifact)
  | dispatching (screened : List Screened) (planned : List Planned) (artifacts : List Artifact)
  | finished (result : Except PassError Output)

structure Moment where
  flag : Bool
  stage : Stage

/-- Goes on behind a checkpoint, unless the flag was set there. -/
def Stage.behind (flag : Bool) (next : Stage) : Stage :=
  if flag then .finished (.error .cancelled) else next

/-- Goes on with all results of a crew, unless one of them is an error. -/
def Stage.join {α : Type} (results : Except PassError α) (next : α → Stage) : Stage :=
  match results with
  | .error error => .finished (.error error)
  | .ok values => next values

section

variable (processors : Nat) (catalog : Catalog) (settings : Settings)

def planners (screened : List Screened) : Crew Planned :=
  Crew.start settings.isParallel processors .plan
    (fun pairing => (pairing, pairing.planUpTo catalog settings.providerBase)) (eligible screened)

def named (planned : List Planned) : List (ProxyPlan × Identity) :=
  (plans planned).zip (Naming.identities settings (plans planned))

def writers (planned : List Planned) : Crew Artifact :=
  Crew.start settings.isParallel processors .proxy
    (fun proxy => Proxy.artifact settings proxy.1 proxy.2) (named settings planned)

def collected (screened : List Screened) (planned : List Planned) (artifacts : List Artifact) :
    Output where
  artifacts := artifacts ++ [Dispatcher.artifact settings (named settings planned)]
  diagnostics := screened.flatMap (·.2) ++ planProblems planned

/-- A step of a pass, with the checkpoint at which it looks at the flag. -/
inductive Step : Moment → Option Checkpoint → Moment → Prop
  | cancel (stage : Stage) : Step ⟨false, stage⟩ none ⟨true, stage⟩
  | screen (flag : Bool) (screened : List Screened) (pairing : Pairing) (rest : List Pairing) :
      Step ⟨flag, .screening screened (pairing :: rest)⟩ (some (.pairing screened.length))
        ⟨flag, .behind flag (.screening
          (screened ++ [(pairing, pairing.problems catalog settings.providerBase)]) rest)⟩
  | screened (flag : Bool) (screened : List Screened) :
      Step ⟨flag, .screening screened []⟩ none
        ⟨flag, .planning screened (planners processors catalog settings screened)⟩
  | plan {flag : Bool} (screened : List Screened) {crew next : Crew Planned} {point : Checkpoint}
      (turn : Crew.Turn flag crew point next) :
      Step ⟨flag, .planning screened crew⟩ (some point) ⟨flag, .planning screened next⟩
  | planned (flag : Bool) (screened : List Screened) {crew : Crew Planned}
      (idle : crew.points = []) :
      Step ⟨flag, .planning screened crew⟩ none ⟨flag, .join crew.results (.naming screened)⟩
  | name (flag : Bool) (screened : List Screened) (planned : List Planned) :
      Step ⟨flag, .naming screened planned⟩ (some .naming)
        ⟨flag, .behind flag (.writing screened planned (writers processors settings planned))⟩
  | write {flag : Bool} (screened : List Screened) (planned : List Planned)
      {crew next : Crew Artifact} {point : Checkpoint} (turn : Crew.Turn flag crew point next) :
      Step ⟨flag, .writing screened planned crew⟩ (some point)
        ⟨flag, .writing screened planned next⟩
  | written (flag : Bool) (screened : List Screened) (planned : List Planned)
      {crew : Crew Artifact} (idle : crew.points = []) :
      Step ⟨flag, .writing screened planned crew⟩ none
        ⟨flag, .join crew.results (.dispatching screened planned)⟩
  | dispatch (flag : Bool) (screened : List Screened) (planned : List Planned)
      (artifacts : List Artifact) :
      Step ⟨flag, .dispatching screened planned artifacts⟩ (some .dispatcher)
        ⟨flag, .behind flag (.finished (.ok (collected settings screened planned artifacts)))⟩

/-- The steps from the beginning of a pass up to a moment, with what was seen at the checkpoints. -/
inductive Reached (requests : List Request) : List (Checkpoint × Bool) → Moment → Prop
  | start (flag : Bool) : Reached requests [] ⟨flag, .screening [] (Pairing.merge requests)⟩
  | step {readings : List (Checkpoint × Bool)} {moment next : Moment} {reading : Option Checkpoint}
      (reached : Reached requests readings moment)
      (step : Step processors catalog settings moment reading next) :
      Reached requests (readings ++ (reading.map (·, moment.flag)).toList) next

end

/-! ### What is left of a pass -/

section

variable (environment : Environment) (catalog : Catalog) (settings : Settings)

def afterWriting (screened : List Screened) (planned : List Planned) (artifacts : List Artifact) :
    Except PassError Output := do
  environment.check .dispatcher
  return collected settings screened planned artifacts

def afterPlanning (screened : List Screened) (planned : List Planned) :
    Except PassError Output := do
  environment.check .naming
  let artifacts ← (writers environment.processors settings planned).outcome environment
  afterWriting environment settings screened planned artifacts

def afterScreening (screened : List Screened) : Except PassError Output := do
  let planned ← (planners environment.processors catalog settings screened).outcome environment
  afterPlanning environment settings screened planned

/-- What a pass gives from a stage on, if it sees that at the checkpoints in front of it. -/
def Stage.outcome : Stage → Except PassError Output
  | screening screened rest => do
    let others ← (rest.zipIdx screened.length).mapM fun (pairing, index) =>
      environment.guarded (.pairing index)
        (pairing, pairing.problems catalog settings.providerBase)
    afterScreening environment catalog settings (screened ++ others)
  | planning screened crew => do
    let planned ← crew.outcome environment
    afterPlanning environment settings screened planned
  | naming screened planned => afterPlanning environment settings screened planned
  | writing screened planned crew => do
    let artifacts ← crew.outcome environment
    afterWriting environment settings screened planned artifacts
  | dispatching screened planned artifacts =>
    afterWriting environment settings screened planned artifacts
  | finished result => result

variable {environment catalog settings}

theorem outcome_start (accepted : settings.check = .ok ()) (requests : List Request) :
    (Stage.screening [] (Pairing.merge requests)).outcome environment catalog settings =
      run environment catalog settings requests := by
  unfold run
  rw [accepted]
  simp only [Stage.outcome, afterScreening, afterPlanning, planners, writers, Crew.outcome_start,
    ← plan_eq_walk, ← write_eq_walk, List.nil_append]
  rfl

theorem outcome_behind {flag : Bool} {point : Checkpoint}
    (sees : environment.cancelled point = flag) (next : Stage) :
    (Stage.behind flag next).outcome environment catalog settings =
      (do environment.check point; next.outcome environment catalog settings) := by
  subst sees
  unfold Stage.behind Environment.check
  cases environment.cancelled point <;> rfl

theorem outcome_join {α : Type} (results : Except PassError α) (next : α → Stage) :
    (Stage.join results next).outcome environment catalog settings =
      (do (next (← results)).outcome environment catalog settings) := by
  cases results <;> rfl

/-- A step leaves what a pass gives as it is, if the pass sees at the step's checkpoint what was to
be seen there. -/
theorem step_outcome {moment next : Moment} {reading : Option Checkpoint}
    (step : Step environment.processors catalog settings moment reading next)
    (sees : ∀ point, reading = some point → environment.cancelled point = moment.flag) :
    next.stage.outcome environment catalog settings =
      moment.stage.outcome environment catalog settings := by
  cases step with
  | cancel stage => rfl
  | screen flag screened pairing rest =>
    rw [outcome_behind (sees _ rfl)]
    simp only [Stage.outcome, List.zipIdx_cons, List.mapM_cons, List.length_append,
      List.length_singleton, Environment.guarded, bind_assoc, pure_bind, List.append_assoc,
      List.singleton_append]
    cases environment.check (.pairing screened.length) <;> rfl
  | screened flag screened =>
    show _ = afterScreening environment catalog settings (screened ++ [])
    rw [List.append_nil]
    rfl
  | plan screened turn => simp only [Stage.outcome, turn.outcome (sees _ rfl)]
  | planned flag screened idle =>
    rw [outcome_join]
    simp only [Stage.outcome, Crew.outcome_idle idle]
  | name flag screened planned =>
    rw [outcome_behind (sees _ rfl)]
    rfl
  | write screened planned turn => simp only [Stage.outcome, turn.outcome (sees _ rfl)]
  | written flag screened planned idle =>
    rw [outcome_join]
    simp only [Stage.outcome, Crew.outcome_idle idle]
  | dispatch flag screened planned artifacts =>
    rw [outcome_behind (sees _ rfl)]
    rfl

theorem reached_outcome (accepted : settings.check = .ok ()) {requests : List Request}
    {readings : List (Checkpoint × Bool)} {moment : Moment}
    (reached : Reached environment.processors catalog settings requests readings moment)
    (sees : ∀ reading ∈ readings, environment.cancelled reading.1 = reading.2) :
    moment.stage.outcome environment catalog settings =
      run environment catalog settings requests := by
  induction reached with
  | start flag => exact outcome_start accepted requests
  | step reached step ih =>
    rw [step_outcome step, ih fun reading member => sees reading (List.mem_append_left _ member)]
    rintro point rfl
    exact sees (point, _) (List.mem_append_right _ (List.mem_singleton_self _))

end

/-! ### Every checkpoint once -/

namespace Stage

def phase : Stage → Nat
  | screening _ _ => 0
  | planning _ _ => 1
  | naming _ _ => 2
  | writing _ _ _ => 3
  | dispatching _ _ _ => 4
  | finished _ => 5

/-- The checkpoints of its phase that a pass has not come to. -/
def points : Stage → List Checkpoint
  | screening screened rest => (List.range' screened.length rest.length).map .pairing
  | planning _ crew => crew.points
  | naming _ _ => [.naming]
  | writing _ _ crew => crew.points
  | dispatching _ _ _ => [.dispatcher]
  | finished _ => []

structure Orderly (stage : Stage) : Prop where
  nodup : stage.points.Nodup
  phase : ∀ point ∈ stage.points, point.phase = stage.phase

def Ahead (stage : Stage) (point : Checkpoint) : Prop :=
  point ∈ stage.points ∨ stage.phase < point.phase

theorem phase_le (stage : Stage) : stage.phase ≤ 5 := by
  cases stage <;> simp [phase]

theorem orderly_of_points {stage : Stage} {point : Nat → Checkpoint} {indices : List Nat}
    (points_eq : stage.points = indices.map point) (nodup : indices.Nodup)
    (injective : Function.Injective point) (same : ∀ index, (point index).phase = stage.phase) :
    stage.Orderly := by
  refine ⟨points_eq ▸ nodup.map injective, ?_⟩
  intro other member
  rw [points_eq] at member
  obtain ⟨index, _, rfl⟩ := List.mem_map.mp member
  exact same index

theorem orderly_finished (result : Except PassError Output) : (finished result).Orderly :=
  ⟨List.nodup_nil, fun _ member => absurd member List.not_mem_nil⟩

theorem orderly_screening (screened : List Screened) (rest : List Pairing) :
    (screening screened rest).Orderly :=
  orderly_of_points rfl (List.nodup_range' ..) (fun _ _ => Checkpoint.pairing.inj) fun _ => rfl

theorem orderly_planning (processors : Nat) (catalog : Catalog) (settings : Settings)
    (screened : List Screened) :
    (planning screened (planners processors catalog settings screened)).Orderly :=
  orderly_of_points (Crew.points_start ..) List.nodup_range (fun _ _ => Checkpoint.plan.inj)
    fun _ => rfl

theorem orderly_naming (screened : List Screened) (planned : List Planned) :
    (naming screened planned).Orderly :=
  ⟨List.nodup_singleton _, fun _ member => List.mem_singleton.mp member ▸ rfl⟩

theorem orderly_writing (processors : Nat) (settings : Settings) (screened : List Screened)
    (planned : List Planned) :
    (writing screened planned (writers processors settings planned)).Orderly :=
  orderly_of_points (Crew.points_start ..) List.nodup_range (fun _ _ => Checkpoint.proxy.inj)
    fun _ => rfl

theorem orderly_dispatching (screened : List Screened) (planned : List Planned)
    (artifacts : List Artifact) : (dispatching screened planned artifacts).Orderly :=
  ⟨List.nodup_singleton _, fun _ member => List.mem_singleton.mp member ▸ rfl⟩

theorem orderly_behind (flag : Bool) {next : Stage} (orderly : next.Orderly) :
    (behind flag next).Orderly ∧ next.phase ≤ (behind flag next).phase := by
  cases flag with
  | true => exact ⟨orderly_finished _, next.phase_le⟩
  | false => exact ⟨orderly, Nat.le_refl _⟩

theorem orderly_join {α : Type} (results : Except PassError α) {next : α → Stage} {phase : Nat}
    (orderly : ∀ values, (next values).Orderly ∧ (next values).phase = phase) (early : phase ≤ 5) :
    (join results next).Orderly ∧ phase ≤ (join results next).phase := by
  cases results with
  | error error => exact ⟨orderly_finished _, early⟩
  | ok values => exact ⟨(orderly values).1, Nat.le_of_eq (orderly values).2.symm⟩

end Stage

section

variable {processors : Nat} {catalog : Catalog} {settings : Settings}
variable {moment next : Moment} {reading : Option Checkpoint}

/-- What a step changes: it sets the flag, or it passes one checkpoint of a phase, or it goes on to a
later phase. -/
theorem step_cases (step : Step processors catalog settings moment reading next) :
    (reading = none ∧ moment.flag = false ∧ next = ⟨true, moment.stage⟩) ∨
    (next.flag = moment.flag ∧ next.stage.phase = moment.stage.phase ∧
      ∃ point, reading = some point ∧ moment.stage.points.Perm (point :: next.stage.points)) ∨
    (next.flag = moment.flag ∧ moment.stage.phase < next.stage.phase ∧ next.stage.Orderly ∧
      ∀ point, reading = some point → point ∈ moment.stage.points) := by
  cases step with
  | cancel stage => exact .inl ⟨rfl, rfl, rfl⟩
  | screen flag screened pairing rest =>
    cases flag with
    | true =>
      refine .inr (.inr ⟨rfl, by simp [Stage.behind, Stage.phase], Stage.orderly_finished _, ?_⟩)
      rintro point ⟨⟩
      simp [Stage.points]
    | false =>
      refine .inr (.inl ⟨rfl, rfl, _, rfl, ?_⟩)
      simp [Stage.behind, Stage.points, List.range'_succ]
  | screened flag screened =>
    refine .inr (.inr ⟨rfl, Nat.one_pos, Stage.orderly_planning .., ?_⟩)
    rintro point ⟨⟩
  | plan screened turn => exact .inr (.inl ⟨rfl, rfl, _, rfl, turn.points⟩)
  | @planned flag screened crew idle =>
    have joined := Stage.orderly_join crew.results
      (fun planned => ⟨Stage.orderly_naming screened planned, rfl⟩) (by decide)
    refine .inr (.inr ⟨rfl, joined.2, joined.1, ?_⟩)
    rintro point ⟨⟩
  | name flag screened planned =>
    have behind := Stage.orderly_behind flag
      (Stage.orderly_writing processors settings screened planned)
    refine .inr (.inr ⟨rfl, behind.2, behind.1, ?_⟩)
    rintro point ⟨⟩
    exact List.mem_singleton_self _
  | write screened planned turn => exact .inr (.inl ⟨rfl, rfl, _, rfl, turn.points⟩)
  | @written flag screened planned crew idle =>
    have joined := Stage.orderly_join crew.results
      (fun artifacts => ⟨Stage.orderly_dispatching screened planned artifacts, rfl⟩) (by decide)
    refine .inr (.inr ⟨rfl, joined.2, joined.1, ?_⟩)
    rintro point ⟨⟩
  | dispatch flag screened planned artifacts =>
    have behind := Stage.orderly_behind flag
      (Stage.orderly_finished (.ok (collected settings screened planned artifacts)))
    refine .inr (.inr ⟨rfl, behind.2, behind.1, ?_⟩)
    rintro point ⟨⟩
    exact List.mem_singleton_self _

theorem step_orderly (step : Step processors catalog settings moment reading next)
    (orderly : moment.stage.Orderly) :
    next.stage.Orderly ∧ (∀ point, next.stage.Ahead point → moment.stage.Ahead point) ∧
      ∀ point, reading = some point → moment.stage.Ahead point ∧ ¬ next.stage.Ahead point := by
  rcases step_cases step with ⟨rfl, _, rfl⟩ | ⟨_, same, read, rfl, passed⟩ | ⟨_, later, behind, read⟩
  · exact ⟨orderly, fun _ ahead => ahead, fun _ read => by cases read⟩
  · have distinct := passed.nodup_iff.mp orderly.nodup
    have inside {point : Checkpoint} (member : point ∈ next.stage.points) :
        point ∈ moment.stage.points := passed.mem_iff.mpr (List.mem_cons_of_mem _ member)
    have present : read ∈ moment.stage.points := passed.mem_iff.mpr List.mem_cons_self
    refine ⟨⟨distinct.of_cons, fun point member => same ▸ orderly.phase point (inside member)⟩,
      fun point ahead => ahead.imp inside fun later => same ▸ later, ?_⟩
    rintro point ⟨⟩
    refine ⟨.inl present, ?_⟩
    rintro (member | later)
    · exact (List.nodup_cons.mp distinct).1 member
    · exact absurd (orderly.phase _ present) (by omega)
  · refine ⟨behind, ?_, ?_⟩
    · rintro point (member | ahead)
      · exact .inr (by rw [behind.phase point member]; exact later)
      · exact .inr (Nat.lt_trans later ahead)
    · intro point same
      have present := read point same
      refine ⟨.inl present, ?_⟩
      have early := orderly.phase point present
      rintro (member | ahead)
      · exact absurd (behind.phase point member) (by omega)
      · omega

/-- A pass comes to no checkpoint twice, and where it saw the flag, the flag stays set. -/
theorem reached_once {requests : List Request} {readings : List (Checkpoint × Bool)}
    (reached : Reached processors catalog settings requests readings moment) :
    moment.stage.Orderly ∧ (readings.map (·.1)).Nodup ∧
      ∀ reading ∈ readings, ¬ moment.stage.Ahead reading.1 ∧ (reading.2 → moment.flag) := by
  induction reached with
  | start flag => exact ⟨Stage.orderly_screening [] _, List.nodup_nil, by simp⟩
  | @step readings moment next reading reached step ih =>
    obtain ⟨orderly, once, behind⟩ := ih
    obtain ⟨nextOrderly, before, passed⟩ := step_orderly step orderly
    have kept : moment.flag → next.flag := by
      rcases step_cases step with ⟨_, _, rfl⟩ | ⟨same, _⟩ | ⟨same, _⟩
      · exact fun _ => rfl
      · exact fun set => same.trans set
      · exact fun set => same.trans set
    refine ⟨nextOrderly, ?_, ?_⟩
    · cases reading with
      | none => simpa using once
      | some point =>
        rw [List.map_append, List.nodup_append]
        refine ⟨once, List.nodup_singleton _, ?_⟩
        intro earlier member last only same
        obtain ⟨other, listed, rfl⟩ := List.mem_map.mp member
        obtain rfl : last = point := List.mem_singleton.mp only
        exact (behind other listed).1 (same ▸ (passed last rfl).1)
    · intro other member
      rcases List.mem_append.mp member with member | member
      · exact ⟨fun ahead => (behind other member).1 (before _ ahead),
          fun set => kept ((behind other member).2 set)⟩
      · cases reading with
        | none => cases member
        | some point =>
          obtain rfl := List.mem_singleton.mp member
          exact ⟨(passed point rfl).2, kept⟩

/-! ### The end of a pass -/

/-- What is left to do before the end: phases, checkpoints of the present one, and the flag. -/
def Moment.left (moment : Moment) : Nat × Nat × Nat :=
  (5 - moment.stage.phase, moment.stage.points.length, if moment.flag then 0 else 1)

theorem step_left (step : Step processors catalog settings moment reading next) :
    Prod.Lex (· < ·) (Prod.Lex (· < ·) (· < ·)) next.left moment.left := by
  have bound := next.stage.phase_le
  rcases step_cases step with ⟨_, unset, rfl⟩ | ⟨_, same, point, _, passed⟩ | ⟨_, later, _⟩
  · unfold Moment.left
    rw [unset]
    exact .right _ (.right _ Nat.zero_lt_one)
  · have shorter := passed.length_eq
    unfold Moment.left
    rw [same]
    exact .right _ (.left _ _ (by rw [shorter, List.length_cons]; omega))
  · exact .left _ _ (by omega)

theorem step_wellFounded (processors : Nat) (catalog : Catalog) (settings : Settings) :
    WellFounded fun next moment : Moment =>
      ∃ reading, Step processors catalog settings moment reading next := by
  have ordered : WellFounded
      (Prod.Lex (· < ·) (Prod.Lex (· < ·) (· < ·)) : Nat × Nat × Nat → Nat × Nat × Nat → Prop) :=
    WellFounded.prod_lex Nat.lt_wfRel.wf (WellFounded.prod_lex Nat.lt_wfRel.wf Nat.lt_wfRel.wf)
  refine Subrelation.wf ?_ (InvImage.wf Moment.left ordered)
  rintro next moment ⟨reading, step⟩
  exact step_left step

/-- A pass that is not finished can go on, whether or not the flag is set meanwhile. -/
theorem exists_step (processors : Nat) (catalog : Catalog) (settings : Settings)
    (moment : Moment) :
    (∃ result, moment.stage = .finished result) ∨
      ∃ reading next, Step processors catalog settings moment reading next ∧
        next.flag = moment.flag := by
  obtain ⟨flag, stage⟩ := moment
  cases stage with
  | screening screened rest =>
    cases rest with
    | nil => exact .inr ⟨_, _, .screened flag screened, rfl⟩
    | cons pairing rest => exact .inr ⟨_, _, .screen flag screened pairing rest, rfl⟩
  | planning screened crew =>
    by_cases idle : crew.points = []
    · exact .inr ⟨_, _, .planned flag screened idle, rfl⟩
    · obtain ⟨point, next, turn⟩ := Crew.exists_turn flag idle
      exact .inr ⟨_, _, .plan screened turn, rfl⟩
  | naming screened planned => exact .inr ⟨_, _, .name flag screened planned, rfl⟩
  | writing screened planned crew =>
    by_cases idle : crew.points = []
    · exact .inr ⟨_, _, .written flag screened planned idle, rfl⟩
    · obtain ⟨point, next, turn⟩ := Crew.exists_turn flag idle
      exact .inr ⟨_, _, .write screened planned turn, rfl⟩
  | dispatching screened planned artifacts =>
    exact .inr ⟨_, _, .dispatch flag screened planned artifacts, rfl⟩
  | finished result => exact .inl ⟨result, rfl⟩

/-- What the workers saw at the checkpoints. -/
def seen (processors : Nat) (readings : List (Checkpoint × Bool)) : Environment :=
  ⟨processors, fun point => readings.contains (point, true)⟩

theorem seen_reading {readings : List (Checkpoint × Bool)} (once : (readings.map (·.1)).Nodup)
    {reading : Checkpoint × Bool} (member : reading ∈ readings) :
    (seen processors readings).cancelled reading.1 = reading.2 := by
  obtain ⟨point, set⟩ := reading
  cases set with
  | true => exact List.contains_iff_mem.mpr member
  | false =>
    refine Bool.eq_false_iff.mpr fun other => ?_
    have same := List.inj_on_of_nodup_map once (List.contains_iff_mem.mp other) member rfl
    cases same

theorem run_interleaved (accepted : settings.check = .ok ()) {requests : List Request}
    {readings : List (Checkpoint × Bool)}
    (reached : Reached processors catalog settings requests readings moment)
    {result : Except PassError Output} (finished : moment.stage = .finished result) :
    result = run (seen processors readings) catalog settings requests := by
  have ends := @reached_outcome (seen processors readings) _ _ accepted _ _ _ reached
    fun _ member => seen_reading (reached_once reached).2.1 member
  rw [finished] at ends
  exact ends

/-- However the workers take turns and whenever the flag is set, a pass comes to its end, and it
gives the whole output of the uncancelled pass or nothing but the cancellation. -/
theorem run_all_or_nothing (accepted : settings.check = .ok ()) (requests : List Request) :
    ∃ whole,
      (∀ processors, run (.steady processors false) catalog settings requests = .ok whole) ∧
      (∀ environment : Environment, run environment catalog settings requests =
        if environment.stops (checkpoints catalog settings requests) then .error .cancelled
        else .ok whole) ∧
      ∀ processors,
        (WellFounded fun next moment : Moment =>
          ∃ reading, Step processors catalog settings moment reading next) ∧
        ∀ readings moment, Reached processors catalog settings requests readings moment →
          (∃ reading next, Step processors catalog settings moment reading next ∧
            next.flag = moment.flag) ∨
          ∃ result, moment.stage = .finished result ∧
            result = run (seen processors readings) catalog settings requests ∧
            (result = .ok whole ∨ result = .error .cancelled ∧ moment.flag) := by
  refine ⟨output catalog settings requests,
    fun processors => run_uncancelled (fun _ => rfl) accepted requests,
    fun environment => run_eq accepted requests,
    fun processors => ⟨step_wellFounded processors catalog settings, ?_⟩⟩
  intro readings moment reached
  rcases exists_step processors catalog settings moment with ⟨result, finished⟩ | goesOn
  · have gives := run_interleaved accepted reached finished
    refine .inr ⟨result, finished, gives, ?_⟩
    rw [run_eq accepted] at gives
    split at gives
    · rename_i stopped
      obtain ⟨point, _, read⟩ := List.any_eq_true.mp stopped
      have listed : (point, true) ∈ readings := List.contains_iff_mem.mp read
      exact .inr ⟨gives, ((reached_once reached).2.2 _ listed).2 rfl⟩
    · exact .inl gives
  · exact .inl goesOn

/-- The flag is seen in front of the only plan of the pass. -/
theorem run_layered_cancelled : ∃ whole,
    run (.steady 3 false) layeredCatalog { isParallel := true } [layeredRequest] = .ok whole ∧
      run ⟨3, fun point => point = .plan 0⟩ layeredCatalog { isParallel := true }
        [layeredRequest] = .error .cancelled := by
  have accepted : ({ isParallel := true } : Settings).check = .ok () := by decide +kernel
  obtain ⟨whole, uncancelled, cancelled, _⟩ :=
    @run_all_or_nothing layeredCatalog _ accepted [layeredRequest]
  refine ⟨whole, uncancelled 3, (cancelled _).trans (if_pos ?_)⟩
  decide +kernel

end

end Pass

end Interpose
