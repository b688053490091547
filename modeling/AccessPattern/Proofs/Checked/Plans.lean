import AccessPattern.Manifest
import AccessPattern.Proofs.Checked.Coverage
import AccessPattern.Proofs.Checked.Generate
import AccessPattern.Proofs.Replay
import AccessPattern.Proofs.Settings.Validity

/-!
# What a plan guarantees

A plan is obtained by checking a request, as one of the plans of settings, or from the text of a
manifest. In each case the numbers it was obtained from are those that the check accepted, and on
these numbers no checked step fails: neither in generating the offsets nor in what is done with any
offsets afterwards. So where a step fails, the check would have refused the numbers.
-/

namespace AccessPattern

/-- How plans are obtained, and from which numbers. -/
inductive Obtained : PlanRequest → BlockPlan → Prop where
  /-- A plan is made from a request. -/
  | checked {request : PlanRequest} {plan : BlockPlan}
    (hplan : BlockPlan.check request = .ok plan) : Obtained request plan
  /-- Settings have a plan for each block size. -/
  | settings {s : Settings} {strategy : Strategy} {plans : List BlockPlan} {place : Nat}
    {blockSize : UInt64} {plan : BlockPlan} (hstrategy : s.strategy = .ok strategy)
    (hplans : s.plans = .ok plans) (hblockSize : s.blockSizes[place]? = some blockSize)
    (hplan : plans[place]? = some plan) : Obtained (s.request strategy blockSize) plan
  /-- The manifest that a text describes has a plan. -/
  | manifest {text : String} {m : Manifest} {plan : BlockPlan}
    (htext : Manifest.parse? text = some m) (hplan : m.plan = .ok plan) : Obtained m.request plan

/-- However a plan is obtained, it asks for what it was obtained from. -/
theorem Obtained.toPlanRequest_eq {request : PlanRequest} {plan : BlockPlan}
    (h : Obtained request plan) : plan.toPlanRequest = request := by
  cases h with
  | checked hplan => exact BlockPlan.toPlanRequest_of_check hplan
  | settings hstrategy hplans hblockSize hplan =>
    exact Settings.toPlanRequest_of_getElem? hstrategy hplans hblockSize hplan
  | manifest _ hplan => exact BlockPlan.toPlanRequest_of_check hplan

namespace Checked

/-- Everything that is computed for a plan can be computed from the numbers of a request, and is
what the plan gives. -/
structure Computes (σ : Type) [WordSource σ] (request : PlanRequest) (plan : BlockPlan) :
    Prop where
  /-- Offsets are generated from every source, as many as blocks. -/
  generate : Agrees (σ := σ) (generate request) plan.generate
  /-- The product of each block and the block size is exact and lies below the extent. -/
  offsets : ∀ block < plan.blockCount.toNat,
    (UInt64.ofNat block * request.blockSize).toNat = block * request.blockSize.toNat ∧
      block * request.blockSize.toNat < request.extent.toNat
  /-- The blocks are split into lanes. -/
  lanes : lanes request.geometry request.blockSize plan.blockCount = .ok plan.lanes
  /-- Every lane is cut into page runs, none of which is empty. -/
  pageRuns : ∀ lane, pageRuns request.geometry request.blockSize lane = .ok (plan.pageRuns lane) ∧
    [] ∉ plan.pageRuns lane
  /-- All offsets are counted, and no count exceeds their number. -/
  histogram : ∀ offsets,
    histogram request.geometry offsets = .ok (request.geometry.histogram offsets) ∧
      ∀ count ∈ request.geometry.histogram offsets, count ≤ offsets.length
  /-- All offsets are checked for coverage. -/
  coverage : ∀ offsets, checkCoverage offsets request.extent request.blockSize =
    .ok (AccessPattern.checkCoverage offsets request.extent request.blockSize)

section Raw

variable {g : Geometry} (hzero : g.pageSize = 0 ∨ g.channels = 0)
include hzero

/-- The channel of an offset cannot be computed where pages have no size or there is no channel. -/
theorem channel_eq_error (offset : UInt64) : ∃ fault, channel g offset = .error fault := by
  by_cases hpage : g.pageSize = 0
  · refine ⟨.zeroDivisor offset, ?_⟩
    rw [channel, page, quotient, if_pos hpage]
    rfl
  · refine ⟨.zeroDivisor (g.pageOf offset), ?_⟩
    rw [channel, page_eq hpage]
    exact if_pos (hzero.resolve_left hpage)

/-- There the division that cannot be done is named. -/
theorem channelOf?_eq_error (offset : UInt64) : ∃ fault, g.channelOf? offset = .error fault := by
  by_cases hpage : g.pageSize = 0
  · refine ⟨.pageDivision, ?_⟩
    rw [Geometry.channelOf?, Geometry.pageOf?, if_pos hpage]
    rfl
  · refine ⟨.channelRemainder, ?_⟩
    rw [Geometry.channelOf?, Geometry.pageOf?, if_neg hpage]
    exact if_pos (hzero.resolve_left hpage)

/-- There the checked steps fail at the first offset. -/
theorem toOption_histogram_cons (offset : UInt64) (later : List UInt64) :
    (histogram g (offset :: later)).toOption = none := by
  obtain ⟨fault, hfault⟩ := channel_eq_error hzero offset
  rw [histogram, perChannel, List.foldlM_cons, hfault]
  rfl

/-- There offsets have no histogram. -/
theorem toOption_histogram?_cons (offset : UInt64) (later : List UInt64) :
    (g.histogram? (offset :: later)).toOption = none := by
  obtain ⟨fault, hfault⟩ := channelOf?_eq_error hzero offset
  rw [Geometry.histogram?, List.mapM_cons, hfault]
  rfl

end Raw

/-- The checked steps fail where there is no histogram, and give it where there is one. -/
theorem toOption_histogram (g : Geometry) (offsets : List UInt64) :
    (histogram g offsets).toOption = (g.histogram? offsets).toOption := by
  by_cases hzero : g.pageSize = 0 ∨ g.channels = 0
  · cases offsets with
    | nil =>
      have hempty : g.histogram [] = List.replicate g.channels.toNat 0 := by
        simp [Geometry.histogram, Buckets.counts]
      change some _ = some (g.histogram [])
      rw [hempty]
    | cons offset later =>
      rw [toOption_histogram_cons hzero, toOption_histogram?_cons hzero]
  · obtain ⟨hpage, hchannels⟩ := not_or.mp hzero
    rw [histogram_eq hpage hchannels, Geometry.histogram?_eq hpage hchannels]
    rfl

/-- There is no histogram when an offset is to be counted where pages have no size or there is no
channel. -/
theorem toOption_histogram?_eq_none_iff {g : Geometry} {offsets : List UInt64} :
    (g.histogram? offsets).toOption = none ↔
      offsets ≠ [] ∧ (g.pageSize = 0 ∨ g.channels = 0) := by
  constructor
  · intro hnone
    refine ⟨?_, ?_⟩
    · rintro rfl
      cases hnone
    · by_contra hzero
      obtain ⟨hpage, hchannels⟩ := not_or.mp hzero
      rw [Geometry.histogram?_eq hpage hchannels] at hnone
      cases hnone
  · rintro ⟨hoffsets, hzero⟩
    obtain ⟨offset, later, rfl⟩ := List.exists_cons_of_ne_nil hoffsets
    exact toOption_histogram?_cons hzero offset later

/-- The checked steps fail where there is no coverage check, and give its report where there is
one. -/
theorem toOption_checkCoverage (offsets : List UInt64) (extent blockSize : UInt64) :
    (checkCoverage offsets extent blockSize).toOption =
      (checkCoverage? offsets extent blockSize).toOption := by
  by_cases hblock : blockSize = 0
  · rw [checkCoverage, quotient, checkCoverage?, if_pos hblock, if_pos hblock]
    rfl
  · rw [checkCoverage_eq hblock, checkCoverage?, if_neg hblock]
    rfl

/-- There is no coverage check when blocks have no size. -/
theorem toOption_checkCoverage?_eq_none_iff {offsets : List UInt64} {extent blockSize : UInt64} :
    (checkCoverage? offsets extent blockSize).toOption = none ↔ blockSize = 0 := by
  rw [checkCoverage?]
  split
  · next hzero => exact ⟨fun _ => hzero, fun _ => rfl⟩
  · next hblock => exact ⟨fun h => (nomatch h), fun h => absurd h hblock⟩

/-- A plan computes everything from its own numbers. -/
theorem computes_toPlanRequest (σ : Type) [WordSource σ] (plan : BlockPlan) :
    Computes σ plan.toPlanRequest plan where
  generate := generate_agrees plan
  offsets _ hblock := ⟨plan.toNat_blockOffset hblock, plan.mul_blockSize_lt_extent hblock⟩
  lanes := lanes_eq plan
  pageRuns lane := ⟨pageRuns_lane_eq plan lane, List.nil_notMem_splitBy _ lane⟩
  histogram offsets := ⟨histogram_eq plan.pageSize_ne_zero plan.channels_ne_zero offsets,
    fun _ => Geometry.le_length_of_mem_histogram⟩
  coverage offsets := checkCoverage_eq plan.blockSize_ne_zero offsets

end Checked

open Checked

/-- Behind a plan no division is by zero, no product exceeds 64 bits, no place lies outside of its
list and no order is of the wrong length, however the plan was obtained and whatever the source:
everything computed from the numbers it was obtained from succeeds, and gives what the plan gives.
From numbers of which nothing is known only counting and the coverage check can be asked for. Their
steps fail where these report a fault, which is for want of pages, channels or a block size only. -/
theorem no_fault_behind_plan {σ : Type} [WordSource σ] {request : PlanRequest} {plan : BlockPlan}
    (h : Obtained request plan) :
    Computes σ request plan ∧
      (∀ (g : Geometry) (offsets : List UInt64),
        (Checked.histogram g offsets).toOption = (g.histogram? offsets).toOption ∧
        ((g.histogram? offsets).toOption = none ↔
          offsets ≠ [] ∧ (g.pageSize = 0 ∨ g.channels = 0))) ∧
      ∀ (offsets : List UInt64) (extent blockSize : UInt64),
        (Checked.checkCoverage offsets extent blockSize).toOption =
          (checkCoverage? offsets extent blockSize).toOption ∧
        ((checkCoverage? offsets extent blockSize).toOption = none ↔ blockSize = 0) := by
  refine ⟨?_, fun g offsets => ⟨toOption_histogram g offsets, toOption_histogram?_eq_none_iff⟩,
    fun offsets extent blockSize => ⟨toOption_checkCoverage offsets extent blockSize,
      toOption_checkCoverage?_eq_none_iff⟩⟩
  rw [← h.toPlanRequest_eq]
  exact computes_toPlanRequest σ plan

/-- Three pages, the last cut short, on five channels: every state of the generator gives the nine
offsets of the plan, and the histogram of any offsets has an entry for each channel. -/
theorem no_fault_behind_plan_short_page :
    ∃ plan, Obtained ⟨.roundRobinPerPages, 36, 4, ⟨16, 5⟩⟩ plan ∧
      (∀ source : Xoshiro, ∃ offsets next,
        (Checked.generate ⟨.roundRobinPerPages, 36, 4, ⟨16, 5⟩⟩).run.run source =
          (.ok offsets, next) ∧ offsets.length = 9) ∧
      ∀ offsets, ∃ counts, Checked.histogram ⟨16, 5⟩ offsets = .ok counts ∧ counts.length = 5 := by
  let plan : BlockPlan :=
    ⟨⟨.roundRobinPerPages, 36, 4, ⟨16, 5⟩⟩, by decide, by decide, by decide, by decide, by decide⟩
  have hobtained : Obtained ⟨.roundRobinPerPages, 36, 4, ⟨16, 5⟩⟩ plan := .checked rfl
  obtain ⟨hcomputes, -, -⟩ := no_fault_behind_plan (σ := Xoshiro) hobtained
  refine ⟨plan, hobtained, fun source => ⟨_, _, hcomputes.generate source, ?_⟩, fun offsets =>
    ⟨_, (hcomputes.histogram offsets).1, ?_⟩⟩
  · rw [plan.length_generate]
    decide
  · simp [Geometry.histogram_eq]

end AccessPattern
