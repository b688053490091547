import AccessPattern.Order.Generate
import AccessPattern.Proofs.Checked.Steps

/-!
# Generation in checked steps

Generation is carried out once more from the numbers of a request alone, without what a plan knows
of them: the quotients, products and places are checked, a shuffle checks both places before it
swaps, and at the end there have to be as many offsets as blocks. A computation that may fail and
draws from a source agrees with one that only draws when it never fails, whatever the source, and
ends with the same result and the same source. For the request of a plan generation agrees with that
of the plan.
-/

namespace AccessPattern.Checked

variable {σ α β : Type}

/-- A step that draws nothing. -/
def step (outcome : Except StepFault α) : ExceptT StepFault (StateM σ) α :=
  ExceptT.mk (pure outcome)

/-- From every source a computation succeeds, with the result of another that cannot fail, and
leaves the source as that does. -/
def Agrees (checked : ExceptT StepFault (StateM σ) α) (plain : StateM σ α) : Prop :=
  ∀ source, checked.run.run source = (.ok (plain.run source).1, (plain.run source).2)

/-- What draws and cannot fail agrees with itself. -/
theorem agrees_lift (plain : StateM σ α) : Agrees (ExceptT.lift plain) plain :=
  fun _ => rfl

/-- Two computations agree when the first parts do and then the second, on all results of the
first. -/
theorem Agrees.bind {first : ExceptT StepFault (StateM σ) α} {plainFirst : StateM σ α}
    {second : α → ExceptT StepFault (StateM σ) β} {plainSecond : α → StateM σ β}
    (hfirst : Agrees first plainFirst)
    (hsecond : ∀ source, Agrees (second (plainFirst.run source).1)
      (plainSecond (plainFirst.run source).1)) :
    Agrees (first >>= second) (plainFirst >>= plainSecond) := by
  intro source
  rw [run_bind, hfirst source]
  exact hsecond source _

/-- A step that succeeds is passed over. -/
theorem agrees_step_bind {outcome : Except StepFault α} {value : α} (houtcome : outcome = .ok value)
    {second : α → ExceptT StepFault (StateM σ) β} {plain : StateM σ β}
    (hsecond : Agrees (second value) plain) : Agrees (step outcome >>= second) plain := by
  intro source
  rw [run_bind, houtcome]
  exact hsecond source

/-- The same computation on each item of a list never fails when it does not fail on any. -/
theorem Agrees.mapM {checked : α → ExceptT StepFault (StateM σ) β} {plain : α → StateM σ β}
    (h : ∀ item, Agrees (checked item) (plain item)) (items : List α) :
    Agrees (items.mapM checked) (items.mapM plain) := by
  induction items with
  | nil => exact fun _ => rfl
  | cons item items ih =>
    rw [List.mapM_cons, List.mapM_cons]
    exact (h item).bind fun _ => ih.bind fun _ _ => rfl

/-- Swap the items at two places of an array, unless it ends before one of them. -/
def swap (items : Array α) (first second : Nat) : Except StepFault (Array α) :=
  if first < items.size then
    if second < items.size then .ok (items.swapIfInBounds first second)
    else .error (.outside second items.size)
  else .error (.outside first items.size)

/-- The items at two places of an array can be swapped. -/
theorem swap_eq {items : Array α} {first second : Nat} (hfirst : first < items.size)
    (hsecond : second < items.size) :
    swap items first second = .ok (items.swapIfInBounds first second) := by
  rw [swap, if_pos hfirst, if_pos hsecond]

variable [WordSource σ]

/-- Visit the positions from the given one down to the second, swapping each with a drawn one. -/
def shuffleFrom : Nat → Array α → ExceptT StepFault (StateM σ) (Array α)
  | 0, items => pure items
  | last + 1, items => do
    let choice ← ExceptT.lift (Draw.index (last + 2))
    shuffleFrom last (← step (swap items (last + 1) choice))

/-- Shuffle the items. -/
def shuffle (items : Array α) : ExceptT StepFault (StateM σ) (Array α) :=
  shuffleFrom (items.size - 1) items

/-- From a position of the array downwards, all places of a shuffle lie inside. -/
theorem shuffleFrom_agrees {last : Nat} {items : Array α} (h : last ≤ items.size - 1) :
    Agrees (σ := σ) (shuffleFrom last items) (Shuffle.shuffleFrom last items) := by
  induction last generalizing items with
  | zero => exact fun _ => rfl
  | succ last ih =>
    refine (agrees_lift _).bind fun source => ?_
    have hchoice : ((Draw.index (last + 2)).run source).1 < last + 2 :=
      Draw.indexWithin_lt (by omega) _ source
    have hfirst : last + 1 < items.size := by omega
    refine agrees_step_bind (swap_eq hfirst (by omega)) (ih ?_)
    rw [Array.size_swapIfInBounds]
    omega

/-- A shuffle never fails. -/
theorem shuffle_agrees (items : Array α) :
    Agrees (σ := σ) (shuffle items) (Shuffle.shuffle items) :=
  shuffleFrom_agrees (Nat.le_refl _)

/-- The offsets of the first blocks in the order of the strategy of a request. -/
def order (request : PlanRequest) (count : UInt64) : ExceptT StepFault (StateM σ) (List UInt64) :=
  match request.strategy with
  | .linear => step (linearOffsets request.blockSize count)
  | .random => do
    let offsets ← step (linearOffsets request.blockSize count)
    let shuffled ← shuffle offsets.toArray
    pure shuffled.toList
  | .roundRobinSequential => do
    let lanes ← step (lanes request.geometry request.blockSize count)
    pure (interleave (lanes.map List.toArray))
  | .roundRobinRandom => do
    let lanes ← step (lanes request.geometry request.blockSize count)
    let shuffled ← lanes.mapM fun lane => shuffle lane.toArray
    pure (interleave shuffled)
  | .roundRobinPerPages => do
    let lanes ← step (lanes request.geometry request.blockSize count)
    let shuffled ← lanes.mapM fun lane => do
      let runs ← step (pageRuns request.geometry request.blockSize lane)
      shuffle runs.toArray
    pure (interleave shuffled).flatten

/-- The offsets of a request, of which there have to be as many as blocks. -/
def generate (request : PlanRequest) : ExceptT StepFault (StateM σ) (List UInt64) := do
  let count ← step (quotient request.extent request.blockSize)
  let offsets ← order request count
  if offsets.length = count.toNat then pure offsets
  else throw (.wrongLength offsets.length count.toNat)

variable (plan : BlockPlan)

/-- The page runs of a lane of a plan can be computed. -/
theorem pageRuns_lane_eq (lane : List UInt64) :
    pageRuns plan.geometry plan.blockSize lane = .ok (plan.pageRuns lane) :=
  pageRuns_eq plan.pageSize_ne_zero plan.blockSize_ne_zero lane

/-- For each strategy, no step of a plan fails. -/
theorem order_agrees :
    Agrees (σ := σ) (order plan.toPlanRequest plan.blockCount) plan.generate := by
  unfold order BlockPlan.generate
  cases plan.strategy with
  | linear =>
    rw [linearOffsets_eq]
    exact fun _ => rfl
  | random =>
    refine agrees_step_bind (linearOffsets_eq plan) ?_
    exact (shuffle_agrees _).bind fun _ _ => rfl
  | roundRobinSequential => exact agrees_step_bind (lanes_eq plan) fun _ => rfl
  | roundRobinRandom =>
    refine agrees_step_bind (lanes_eq plan) ?_
    exact (Agrees.mapM (fun _ => shuffle_agrees _) _).bind fun _ _ => rfl
  | roundRobinPerPages =>
    refine agrees_step_bind (lanes_eq plan) ?_
    change Agrees _ (shuffleEach (plan.lanes.map plan.pageRuns) >>= _)
    rw [shuffleEach, List.mapM_map]
    refine (Agrees.mapM (fun lane => ?_) _).bind fun _ _ => rfl
    exact agrees_step_bind (pageRuns_lane_eq plan lane) (shuffle_agrees _)

/-- For the request of a plan generation never fails. -/
theorem generate_agrees : Agrees (σ := σ) (generate plan.toPlanRequest) plan.generate := by
  refine agrees_step_bind (quotient_eq plan.blockSize_ne_zero) ?_
  change Agrees _ (plan.generate >>= pure)
  refine (order_agrees plan).bind fun source => ?_
  have hlength : (plan.generate.run source).1.length = (plan.extent / plan.blockSize).toNat :=
    plan.length_generate source
  rw [if_pos hlength]
  exact fun _ => rfl

end AccessPattern.Checked
