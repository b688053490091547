import AccessPattern.Order.Session
import AccessPattern.Proofs.Order.EveryOrder
import AccessPattern.Proofs.Order.Histogram
import AccessPattern.Proofs.Random.Counted

/-!
# Steps that leave the source alone

The steps of a session share one source, so a step can be felt by the steps behind it through what
it draws and in no other way. A refused request draws nothing, because the check comes first; an
accepted one draws for the lists that its strategy shuffles, at least one word for each item but the
first of each list. Which lists these are, and how many items they have, can be said from the
request alone. Where no list has two items nothing is drawn, and the step might as well not have
been asked for.
-/

namespace AccessPattern

/-- How many of the pages that an extent touches fall to a channel. -/
def Geometry.pagesOn (g : Geometry) (extent : UInt64) (channel : Nat) : Nat :=
  (List.range ((extent.toNat + g.pageSize.toNat - 1) / g.pageSize.toNat)).countP fun page =>
    page % g.channels.toNat == channel

namespace PlanRequest

/-- How many items each of the lists has that are shuffled for a request: all blocks of the extent,
the blocks of each channel or the pages of each channel. -/
def shuffledCounts (request : PlanRequest) : List Nat :=
  match request.strategy with
  | .linear | .roundRobinSequential => []
  | .random => [request.extent.toNat / request.blockSize.toNat]
  | .roundRobinRandom => request.geometry.blockCounts request.extent request.blockSize
  | .roundRobinPerPages =>
    (List.range request.geometry.channels.toNat).map (request.geometry.pagesOn request.extent)

/-- A request needs no randomness if it is refused or if no list of two items is shuffled for it. -/
def IsQuiet (request : PlanRequest) : Prop :=
  (∃ error, BlockPlan.check request = .error error) ∨ ∀ count ∈ request.shuffledCounts, count ≤ 1

/-- A request that needs randomness is accepted. -/
theorem exists_check_of_not_isQuiet {request : PlanRequest} (h : ¬request.IsQuiet) :
    ∃ plan, BlockPlan.check request = .ok plan := by
  cases hcheck : BlockPlan.check request with
  | error error => exact absurd (.inl ⟨error, hcheck⟩) h
  | ok plan => exact ⟨plan, rfl⟩

/-- For a request that needs randomness there is an item behind the first one of some list. -/
theorem sum_pos_of_not_isQuiet {request : PlanRequest} (h : ¬request.IsQuiet) :
    0 < (request.shuffledCounts.map (· - 1)).sum := by
  have hcounts := (not_or.mp h).2
  push Not at hcounts
  obtain ⟨count, hmem, htwo⟩ := hcounts
  exact List.sum_pos_iff_exists_pos_nat.mpr
    ⟨count - 1, List.mem_map_of_mem hmem, Nat.sub_pos_of_lt htwo⟩

end PlanRequest

namespace BlockPlan

/-- The lists that a plan shuffles are as long as its request says. -/
theorem shuffleSizes_eq (plan : BlockPlan) :
    plan.shuffleSizes = plan.toPlanRequest.shuffledCounts := by
  unfold shuffleSizes PlanRequest.shuffledCounts
  cases hstrategy : plan.strategy with
  | linear | roundRobinSequential => rfl
  | random => exact congrArg (fun count => [count]) (UInt64.toNat_div _ _)
  | roundRobinRandom =>
    change plan.lanes.map List.length = plan.geometry.blockCounts plan.extent plan.blockSize
    rw [lanes, Geometry.lanes_eq, List.map_map, Geometry.blockCounts]
    exact List.map_congr_left fun channel _ => plan.length_lane channel
  | roundRobinPerPages =>
    have hstriped : plan.strategy.isStriped := by rw [hstrategy]; rfl
    change (plan.lanes.map plan.pageRuns).map List.length =
      (List.range plan.geometry.channels.toNat).map (plan.geometry.pagesOn plan.extent)
    rw [map_length_pageRuns_lanes hstriped, columns, List.map_map]
    exact List.map_congr_left fun channel _ => List.countP_eq_length_filter.symm

end BlockPlan

section Drawn

variable {σ : Type} [WordSource σ]

/-- For lists without a second item nothing is drawn. -/
theorem drawEach_run_snd_of_le_one {sizes : List Nat} (h : ∀ size ∈ sizes, size ≤ 1) (source : σ) :
    ((drawEach sizes).run source).2 = source := by
  induction sizes with
  | nil => simp
  | cons size sizes ih =>
    rw [List.forall_mem_cons] at h
    rw [drawEach_cons, Nat.sub_eq_zero_of_le h.1]
    exact ih h.2

/-- For lists at least one word is drawn for each item but the first of each. -/
theorem takesAtLeast_drawEach (sizes : List Nat) :
    TakesAtLeast (σ := σ) (sizes.map (· - 1)).sum (drawEach sizes) (drawEach sizes) := by
  induction sizes with
  | nil => exact TakesAtLeast.pure _
  | cons size sizes ih =>
    have hdraws := (Shuffle.takesAtLeast_drawIndices (σ := σ) (size - 1)).bind fun first =>
      ih.bind fun others => TakesAtLeast.pure (first :: others)
    rw [Nat.add_zero] at hdraws
    simpa only [drawEach, List.mapM_cons, List.map_cons, List.sum_cons] using hdraws

namespace BlockPlan

variable (plan : BlockPlan)

/-- A plan that shuffles no list of two items leaves the source as it is. -/
theorem generate_run_snd_of_le_one (h : ∀ size ∈ plan.shuffleSizes, size ≤ 1) (source : σ) :
    (plan.generate.run source).2 = source := by
  rw [generate_run]
  exact drawEach_run_snd_of_le_one h source

/-- A plan draws at least one word for each item but the first of the lists that it shuffles. -/
theorem takesAtLeast_generate :
    TakesAtLeast (σ := σ) (plan.shuffleSizes.map (· - 1)).sum plan.generate plan.generate := by
  intro source
  obtain ⟨words, hwords, hcounted⟩ := takesAtLeast_drawEach plan.shuffleSizes source
  refine ⟨words, hwords, fun drawn => ?_⟩
  rw [generate_run, generate_run, drawChoices, hcounted]
  rfl

end BlockPlan

end Drawn

namespace Session

/-- A step needs no randomness if it generates a request that needs none. -/
def Step.IsQuiet : Step → Prop
  | .generate request => request.IsQuiet
  | .nextLong | .nextShort | .reseed _ => False

/-- The items of a list whose places are kept. -/
def keptAt {α : Type} (keep : Nat → Bool) : List α → List α
  | [] => []
  | item :: later =>
    let kept := keptAt (fun place => keep (place + 1)) later
    if keep 0 then item :: kept else kept

/-- An accepted request is answered with the offsets of its plan. -/
theorem answer_generate {request : PlanRequest} {plan : BlockPlan}
    (haccepted : BlockPlan.check request = .ok plan) (source : Xoshiro) :
    answer source (.generate request) =
      (.offsets (plan.generate.run source).1, (plan.generate.run source).2) := by
  rw [answer, haccepted]
  rfl

/-- A step that needs no randomness leaves the source as it is. -/
theorem answer_snd_of_isQuiet {step : Step} (h : step.IsQuiet) (source : Xoshiro) :
    (answer source step).2 = source := by
  cases step with
  | nextLong | nextShort | reseed => exact h.elim
  | generate request =>
    cases hcheck : BlockPlan.check request with
    | error error => rw [answer, hcheck]
    | ok plan =>
      rw [answer_generate hcheck]
      refine plan.generate_run_snd_of_le_one ?_ source
      rw [plan.shuffleSizes_eq, BlockPlan.toPlanRequest_of_check hcheck]
      rcases h with ⟨error, herror⟩ | hcounts
      · rw [hcheck] at herror
        cases herror
      · exact hcounts

/-- A session without some steps that need no randomness goes on as it does with them: the steps
behind a deleted one start from the source that it would have left. -/
theorem run_keptAt {steps : List Step} {keep : Nat → Bool}
    (hquiet : ∀ place step, steps[place]? = some step → keep place = false → step.IsQuiet)
    (source : Xoshiro) : run source (keptAt keep steps) = keptAt keep (run source steps) := by
  induction steps generalizing keep source with
  | nil => rfl
  | cons step later ih =>
    have hlater (source : Xoshiro) :
        run source (keptAt (fun place => keep (place + 1)) later) =
          keptAt (fun place => keep (place + 1)) (run source later) :=
      ih (fun place step hstep => hquiet (place + 1) step hstep) source
    cases hkeep : keep 0 with
    | false =>
      have hsource : (answer source step).2 = source :=
        answer_snd_of_isQuiet (hquiet 0 step rfl hkeep) source
      simp only [keptAt, run, hkeep, Bool.false_eq_true, if_false, hsource]
      exact hlater source
    | true =>
      simp only [keptAt, run, hkeep, if_true]
      rw [hlater]

end Session

/-- Steps that need no randomness cannot be felt by the other steps of a session. Take any of them
away, and every step that is kept gets the answer that it got before and leaves the source in the
same state. Every other request is accepted and draws, in any state of the source, at least one word
for each item but the first of each list that is shuffled for it, and at least one word in all. -/
theorem quiet_steps_invisible {steps : List Session.Step} {keep : Nat → Bool}
    (hquiet : ∀ place step, steps[place]? = some step → keep place = false → step.IsQuiet)
    (source : Xoshiro) :
    Session.run source (Session.keptAt keep steps) =
        Session.keptAt keep (Session.run source steps) ∧
      ∀ request : PlanRequest, ¬request.IsQuiet → ∃ plan,
        BlockPlan.check request = .ok plan ∧ 0 < (request.shuffledCounts.map (· - 1)).sum ∧
        ∀ before : Xoshiro, ∃ order after words,
          Session.answer before (.generate request) = (.offsets order, after) ∧
          (request.shuffledCounts.map (· - 1)).sum ≤ words ∧
          ∀ drawn, plan.generate.run (Counted.mk before drawn) =
            (order, Counted.mk after (drawn + words)) := by
  refine ⟨Session.run_keptAt hquiet source, fun request hneedy => ?_⟩
  obtain ⟨plan, haccepted⟩ := PlanRequest.exists_check_of_not_isQuiet hneedy
  refine ⟨plan, haccepted, PlanRequest.sum_pos_of_not_isQuiet hneedy, fun before => ?_⟩
  obtain ⟨words, hwords, hcounted⟩ := plan.takesAtLeast_generate before
  rw [plan.shuffleSizes_eq, BlockPlan.toPlanRequest_of_check haccepted] at hwords
  exact ⟨_, _, words, Session.answer_generate haccepted before, hwords, hcounted⟩

/-- Without a request of one block, one that is refused and one with a page for each channel, the
session answers the other three steps as before; the only shuffle left is of three blocks on the one
channel and two on the other, and takes three words or more. -/
theorem quiet_steps_invisible_three_words :
    Session.run (Xoshiro.ofSeed 7)
        [.nextLong, .generate ⟨.roundRobinRandom, 40, 8, ⟨8, 2⟩⟩, .nextShort] =
      Session.keptAt (· % 2 == 1) (Session.run (Xoshiro.ofSeed 7)
        [.generate ⟨.random, 8, 8, ⟨64, 1⟩⟩, .nextLong, .generate ⟨.linear, 9, 8, ⟨64, 1⟩⟩,
          .generate ⟨.roundRobinRandom, 40, 8, ⟨8, 2⟩⟩,
          .generate ⟨.roundRobinPerPages, 40, 8, ⟨16, 3⟩⟩, .nextShort]) ∧
      ∃ plan, BlockPlan.check ⟨.roundRobinRandom, 40, 8, ⟨8, 2⟩⟩ = .ok plan ∧
        ∃ order after words, 3 ≤ words ∧
          plan.generate.run (Counted.mk (Xoshiro.ofSeed 7) 0) =
            (order, Counted.mk after (0 + words)) := by
  have hquiet : ∀ place step,
      ([.generate ⟨.random, 8, 8, ⟨64, 1⟩⟩, .nextLong, .generate ⟨.linear, 9, 8, ⟨64, 1⟩⟩,
        .generate ⟨.roundRobinRandom, 40, 8, ⟨8, 2⟩⟩,
        .generate ⟨.roundRobinPerPages, 40, 8, ⟨16, 3⟩⟩, .nextShort] :
        List Session.Step)[place]? = some step → (place % 2 == 1) = false → step.IsQuiet := by
    intro place step hstep hplace
    match place with
    | 0 => cases hstep; exact .inr (by decide)
    | 2 => cases hstep; exact .inl ⟨_, rfl⟩
    | 4 => cases hstep; exact .inr (by decide +kernel)
    | 1 | 3 | 5 => contradiction
    | place + 6 => simp at hstep
  have hneedy : ¬PlanRequest.IsQuiet ⟨.roundRobinRandom, 40, 8, ⟨8, 2⟩⟩ := by
    rintro (⟨error, herror⟩ | hcounts)
    · cases herror
    · exact absurd (hcounts 3 (by decide +kernel)) (by decide)
  have hsum : ((PlanRequest.shuffledCounts ⟨.roundRobinRandom, 40, 8, ⟨8, 2⟩⟩).map
      (· - 1)).sum = 3 := by
    decide +kernel
  obtain ⟨hrun, hdraws⟩ := quiet_steps_invisible hquiet (Xoshiro.ofSeed 7)
  obtain ⟨plan, haccepted, -, hcounted⟩ := hdraws _ hneedy
  obtain ⟨order, after, words, -, hwords, htaken⟩ := hcounted (Xoshiro.ofSeed 7)
  exact ⟨hrun, plan, haccepted, order, after, words, hsum ▸ hwords, htaken 0⟩

end AccessPattern
