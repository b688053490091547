import AccessPattern.Proofs.Order.LaneChoices
import AccessPattern.Proofs.Order.PageGrain
import AccessPattern.Proofs.Order.Rotation
import Mathlib.Algebra.Order.BigOperators.Group.List

/-!
# Every order from one choice

A randomized strategy shuffles some lists, and nothing else about it is left to chance: its order is
a function of the indices that the shuffles use. The function takes different indices to different
orders and leaves none out of those that the strategy may give, so the indices being even, no such
order is preferred to another.

Which orders these are is said without the strategies: all orders of the blocks; those whose
channels follow each other as in the sequential rotation; those that are whole pages in turn.
-/

namespace AccessPattern

namespace PlanRequest

/-- The offsets are those of the blocks that make up the extent, in some order. -/
def IsOrder (request : PlanRequest) (order : List UInt64) : Prop :=
  (order.map UInt64.toNat).Perm
    ((List.range (request.extent.toNat / request.blockSize.toNat)).map
      (· * request.blockSize.toNat))

/-- The offsets are whole pages, one after the other, each page that the extent touches once, and
the page of every turn lies on the channel whose turn it is. The offsets of a page are those from
its start on, in steps of the block size, below the end of the page and of the extent. -/
def IsPageRotation (request : PlanRequest) (order : List UInt64) : Prop :=
  ∃ pages : List Nat,
    pages.Perm (List.range ((request.extent.toNat + request.geometry.pageSize.toNat - 1) /
      request.geometry.pageSize.toNat)) ∧
    (∀ turn page, pages[turn]? = some page →
      page % request.geometry.channels.toNat = turn % request.geometry.channels.toNat) ∧
    order.map UInt64.toNat = pages.flatMap fun page =>
      stepsBelow request.blockSize.toNat
        (min (page * request.geometry.pageSize.toNat + request.geometry.pageSize.toNat)
          request.extent.toNat)
        (page * request.geometry.pageSize.toNat)

end PlanRequest

namespace BlockPlan

variable (plan : BlockPlan)

/-- How many items each of the lists has that the strategy shuffles. -/
def shuffleSizes : List Nat :=
  match plan.strategy with
  | .linear | .roundRobinSequential => []
  | .random => [plan.blockCount.toNat]
  | .roundRobinRandom => plan.lanes.map List.length
  | .roundRobinPerPages => (plan.lanes.map plan.pageRuns).map List.length

/-- The order of the strategy when its lists are shuffled by given indices. -/
def orderOf (choices : List (List Nat)) : List UInt64 :=
  match plan.strategy with
  | .linear => plan.linearOffsets
  | .random => (arrangeEach [plan.linearOffsets] choices).flatMap Array.toList
  | .roundRobinSequential => plan.rotatedOffsets
  | .roundRobinRandom => interleave (arrangeEach plan.lanes choices)
  | .roundRobinPerPages => (interleave (arrangeEach (plan.lanes.map plan.pageRuns) choices)).flatten

/-- Draw the indices by which the strategy shuffles its lists. -/
def drawChoices {σ : Type} [WordSource σ] : StateM σ (List (List Nat)) :=
  drawEach plan.shuffleSizes

section Drawn

variable {σ : Type} [WordSource σ] (source : σ)

/-- Shuffling all offsets is shuffling the only one of a single list of lists. -/
theorem shuffledOffsets_run :
    plan.shuffledOffsets.run source =
      Prod.map (List.flatMap Array.toList) id ((shuffleEach [plan.linearOffsets]).run source) := by
  rw [shuffleEach_cons]
  exact Prod.ext (List.append_nil _).symm rfl

/-- Generating draws the indices and then orders the blocks by them. -/
theorem generate_run :
    plan.generate.run source = Prod.map plan.orderOf id (plan.drawChoices.run source) := by
  unfold generate drawChoices shuffleSizes orderOf
  cases plan.strategy with
  | linear | roundRobinSequential => rfl
  | random =>
    simp only [plan.shuffledOffsets_run source, shuffleEach_run, List.map_singleton,
      plan.length_linearOffsets]
    rfl
  | roundRobinRandom =>
    rw [shuffledLanes_run, shuffleEach_run]
    rfl
  | roundRobinPerPages =>
    rw [shuffledPages_run_pageRuns, shuffleEach_run]
    rfl

end Drawn

/-- No list that is shuffled has more items than there are blocks. -/
theorem le_blockCount_of_mem_shuffleSizes {size : Nat} (h : size ∈ plan.shuffleSizes) :
    size ≤ plan.blockCount.toNat := by
  have hlane {lane : List UInt64} (hlane : lane ∈ plan.lanes) :
      lane.length ≤ plan.blockCount.toNat := by
    rw [lanes, Geometry.lanes_eq] at hlane
    obtain ⟨channel, -, rfl⟩ := List.mem_map.mp hlane
    rw [← plan.length_linearOffsets]
    exact List.length_filter_le _ _
  have hruns (lane : List UInt64) : (plan.pageRuns lane).length ≤ lane.length := by
    have hpositive : ∀ length ∈ (plan.pageRuns lane).map List.length, 1 ≤ length := by
      intro length hlength
      obtain ⟨run, hrun, rfl⟩ := List.mem_map.mp hlength
      exact List.length_pos_of_ne_nil (List.ne_nil_of_mem_splitBy hrun)
    calc (plan.pageRuns lane).length = ((plan.pageRuns lane).map List.length).length :=
          (List.length_map _).symm
      _ ≤ ((plan.pageRuns lane).map List.length).sum := List.length_le_sum_of_one_le _ hpositive
      _ = lane.length := by rw [← List.length_flatten, pageRuns, List.flatten_splitBy]
  unfold shuffleSizes at h
  cases hstrategy : plan.strategy with
  | linear | roundRobinSequential => simp [hstrategy] at h
  | random =>
    rw [hstrategy] at h
    exact Nat.le_of_eq (List.mem_singleton.mp h)
  | roundRobinRandom =>
    rw [hstrategy] at h
    obtain ⟨lane, hmem, rfl⟩ := List.mem_map.mp h
    exact hlane hmem
  | roundRobinPerPages =>
    rw [hstrategy, List.map_map] at h
    obtain ⟨lane, hmem, rfl⟩ := List.mem_map.mp h
    exact (hruns lane).trans (hlane hmem)

variable {plan}

/-- The numbers of the offsets of an order are those of all blocks when it reorders the blocks. -/
theorem isOrder_iff_perm {order : List UInt64} :
    plan.toPlanRequest.IsOrder order ↔ order.Perm plan.linearOffsets := by
  rw [PlanRequest.IsOrder, ← UInt64.toNat_div]
  change (order.map UInt64.toNat).Perm
    ((List.range plan.blockCount.toNat).map (· * plan.blockSize.toNat)) ↔ _
  rw [← map_toNat_linearOffsets]
  exact List.map_perm_map_iff fun _ _ => UInt64.toNat_inj.mp

/-- Shuffled as a whole, the blocks come in all orders. -/
theorem orderOf_bijOn_random (h : plan.strategy = .random) :
    Set.BijOn plan.orderOf {choices | AreChoices plan.shuffleSizes choices}
      {order | plan.toPlanRequest.IsOrder order} := by
  have hsizes : plan.shuffleSizes = [plan.linearOffsets].map List.length := by
    simp [shuffleSizes, h]
  have horder : plan.orderOf =
      List.flatMap Array.toList ∘ arrangeEach [plan.linearOffsets] := by
    unfold orderOf
    rw [h]
    rfl
  have hwhole : Set.BijOn (List.flatMap Array.toList)
      {lanes | List.Forall₂ (fun list (lane : Array UInt64) => lane.toList.Perm list)
        [plan.linearOffsets] lanes} {order | plan.toPlanRequest.IsOrder order} := by
    simp only [isOrder_iff_perm]
    refine ⟨?_, ?_, ?_⟩
    · rintro _ (_ | ⟨hlane, ⟨⟩⟩)
      simpa using hlane
    · rintro _ (_ | ⟨-, ⟨⟩⟩) _ (_ | ⟨-, ⟨⟩⟩) heq
      simpa using heq
    · intro order (horder : order.Perm _)
      exact ⟨[order.toArray], .cons horder .nil, by simp⟩
  rw [hsizes, horder]
  refine hwhole.comp (arrangeEach_bijOn fun list hlist => ?_)
  rw [List.mem_singleton.mp hlist]
  exact plan.nodup_linearOffsets

/-- Shuffled on each channel, the blocks come in all orders that visit the channels in turn. -/
theorem orderOf_bijOn_roundRobinRandom (h : plan.strategy = .roundRobinRandom) :
    Set.BijOn plan.orderOf {choices | AreChoices plan.shuffleSizes choices}
      {order | plan.toPlanRequest.IsOrder order ∧ order.map plan.geometry.channelOf =
        plan.rotatedOffsets.map plan.geometry.channelOf} := by
  have hsizes : plan.shuffleSizes = plan.lanes.map List.length := by
    rw [shuffleSizes, h]
  have horder : plan.orderOf = interleave ∘ arrangeEach plan.lanes := by
    unfold orderOf
    rw [h]
    rfl
  have hchannels (order : List UInt64) :
      order.map plan.geometry.channelOf = plan.rotatedOffsets.map plan.geometry.channelOf ↔
        order.map (fun offset => (plan.geometry.channelOf offset).toNat) =
          plan.rotatedOffsets.map fun offset => (plan.geometry.channelOf offset).toNat := by
    rw [← List.map_inj_right fun _ _ => UInt64.toNat_inj.mp, List.map_map, List.map_map]
    rfl
  simp only [isOrder_iff_perm, hchannels, hsizes, horder]
  exact interleave_arrangeEach_bijOn plan.nodup_linearOffsets fun offset _ =>
    Geometry.channelOf_lt plan.channels_ne_zero offset

/-- The pages dealt onto the channels are the pages sorted by their remainder. -/
theorem columns_eq_buckets (width limit : Nat) :
    columns width limit = Buckets.buckets width (· % width) (List.range limit) :=
  (Buckets.buckets_eq _ _ _).symm

/-- Numbers have the same remainders in turn as all numbers below a limit when each of them has the
remainder of its place. -/
theorem map_mod_eq_iff {divisor limit : Nat} {numbers : List Nat} (h : numbers.length = limit) :
    numbers.map (· % divisor) = (List.range limit).map (· % divisor) ↔
      ∀ place number, numbers[place]? = some number → number % divisor = place % divisor := by
  subst h
  constructor
  · intro heq place number hnumber
    obtain ⟨hplace, -⟩ := List.getElem?_eq_some_iff.mp hnumber
    have hsame := congrArg (·[place]?) heq
    rw [List.getElem?_map, List.getElem?_map, hnumber, List.getElem?_range hplace] at hsame
    exact Option.some.inj hsame
  · intro hall
    refine List.ext_getElem (by simp) fun place hplace _ => ?_
    rw [List.getElem_map, List.getElem_map, List.getElem_range]
    exact hall _ _ (List.getElem?_eq_getElem _)

/-- What a list is flattened from can be read off its items, if each of them tells what it belongs
to and nothing is left out. -/
theorem eq_of_flatMap_eq {α β : Type} {parts : α → List β} {owner : β → α}
    (howner : ∀ whole, ∀ part ∈ parts whole, owner part = whole) {list other : List α}
    (hlist : ∀ whole ∈ list, parts whole ≠ []) (hother : ∀ whole ∈ other, parts whole ≠ [])
    (heq : list.flatMap parts = other.flatMap parts) : list = other := by
  induction list generalizing other with
  | nil =>
    cases other with
    | nil => rfl
    | cons head other =>
      have hempty := List.append_eq_nil_iff.mp (heq.symm.trans List.flatMap_nil)
      exact absurd hempty.1 (hother head List.mem_cons_self)
  | cons whole list ih =>
    obtain ⟨first, rest, hfirst⟩ := List.exists_cons_of_ne_nil (hlist whole List.mem_cons_self)
    cases other with
    | nil => exact absurd (List.append_eq_nil_iff.mp heq).1 (hlist whole List.mem_cons_self)
    | cons head other =>
      obtain ⟨item, items, hitem⟩ := List.exists_cons_of_ne_nil (hother head List.mem_cons_self)
      obtain rfl : whole = head := by
        rw [List.flatMap_cons, List.flatMap_cons, hfirst, hitem] at heq
        have hsame : first = item := (List.cons.inj heq).1
        rw [← howner whole first (hfirst ▸ List.mem_cons_self), hsame,
          howner head item (hitem ▸ List.mem_cons_self)]
      rw [List.flatMap_cons, List.flatMap_cons] at heq
      rw [ih (fun _ h => hlist _ (List.mem_cons_of_mem _ h))
        (fun _ h => hother _ (List.mem_cons_of_mem _ h)) (List.append_cancel_left heq)]

section Pages

variable (hstriped : plan.strategy.isStriped)
include hstriped

/-- The order of pages by given indices. -/
theorem orderOf_eq_flatMap (h : plan.strategy = .roundRobinPerPages) :
    plan.orderOf = List.flatMap plan.pageBlocks ∘ interleave ∘
      arrangeEach (columns plan.geometry.channels.toNat plan.pageCount) := by
  funext choices
  unfold orderOf
  rw [h]
  change (interleave (arrangeEach (plan.lanes.map plan.pageRuns) choices)).flatten = _
  simp [map_pageRuns_lanes hstriped, List.flatMap_def]

/-- An order is a rotation of pages when it is the blocks of pages in turn. -/
theorem isPageRotation_iff {order : List UInt64} :
    plan.toPlanRequest.IsPageRotation order ↔ ∃ pages : List Nat,
      pages.Perm (List.range plan.pageCount) ∧
      pages.map (· % plan.geometry.channels.toNat) =
        (interleave ((columns plan.geometry.channels.toNat plan.pageCount).map List.toArray)).map
          (· % plan.geometry.channels.toNat) ∧
      pages.flatMap plan.pageBlocks = order := by
  refine exists_congr fun pages => and_congr_right fun hperm => and_congr ?_ ?_
  · have hlength : pages.length = plan.pageCount := hperm.length_eq.trans List.length_range
    rw [interleave_columns plan.channels_pos]
    exact (map_mod_eq_iff hlength).symm
  · rw [eq_comm, ← List.map_inj_right fun _ _ => UInt64.toNat_inj.mp, List.map_flatMap,
      funext (map_toNat_pageBlocks hstriped)]

/-- Shuffled page by page on each channel, the blocks come in all rotations of pages. -/
theorem orderOf_bijOn_roundRobinPerPages (h : plan.strategy = .roundRobinPerPages) :
    Set.BijOn plan.orderOf {choices | AreChoices plan.shuffleSizes choices}
      {order | plan.toPlanRequest.IsPageRotation order} := by
  have hsizes : plan.shuffleSizes =
      (columns plan.geometry.channels.toNat plan.pageCount).map List.length := by
    rw [shuffleSizes, h]
    exact map_length_pageRuns_lanes hstriped
  have hpages : Set.BijOn (interleave ∘ arrangeEach
      (Buckets.buckets plan.geometry.channels.toNat (· % plan.geometry.channels.toNat)
        (List.range plan.pageCount))) _ _ :=
    interleave_arrangeEach_bijOn List.nodup_range fun page _ => Nat.mod_lt _ plan.channels_pos
  rw [← columns_eq_buckets] at hpages
  have hblocks {pages : List Nat} (hperm : pages.Perm (List.range plan.pageCount)) :
      ∀ page ∈ pages, plan.pageBlocks page ≠ [] := fun page hpage =>
    pageBlocks_ne_nil hstriped (List.mem_range.mp (hperm.mem_iff.mp hpage))
  rw [orderOf_eq_flatMap hstriped h, hsizes]
  refine Set.BijOn.comp ⟨?_, ?_, ?_⟩ hpages
  · rintro pages ⟨hperm, hchannels⟩
    exact (isPageRotation_iff hstriped).mpr ⟨pages, hperm, hchannels, rfl⟩
  · rintro pages ⟨hperm, -⟩ others ⟨hother, -⟩ heq
    exact eq_of_flatMap_eq (fun _ _ => plan.pageOf_of_mem_pageBlocks) (hblocks hperm)
      (hblocks hother) heq
  · intro order horder
    obtain ⟨pages, hperm, hchannels, rfl⟩ := (isPageRotation_iff hstriped).mp horder
    exact ⟨pages, ⟨hperm, hchannels⟩, rfl⟩

end Pages

end BlockPlan

/-- The orders of a randomized strategy come from its choices of indices, each order from one. Any
source draws a choice, and the order generated from it is the one of the choice; and each choice is
drawn from some source. Shuffled as a whole, the blocks come in all orders; shuffled on each
channel, in all orders whose channels are those of the sequential rotation; and shuffled page by
page, in all orders of whole pages, each page of the extent once, in which the channels of the pages
rotate. In each case the order tells the choice. -/
theorem each_order_from_one_choice {σ : Type} [WordSource σ] {request : PlanRequest}
    {plan : BlockPlan} (haccepted : BlockPlan.check request = .ok plan)
    (hcount : plan.blockCount.toNat < UInt32.size) :
    (∀ source : σ, AreChoices plan.shuffleSizes (plan.drawChoices.run source).1 ∧
      (plan.generate.run source).1 = plan.orderOf (plan.drawChoices.run source).1) ∧
    (∀ choices, AreChoices plan.shuffleSizes choices → ∃ words,
      (plan.drawChoices.run (Tape.mk words)).1 = choices ∧
      (plan.generate.run (Tape.mk words)).1 = plan.orderOf choices) ∧
    (request.strategy = .random →
      Set.BijOn plan.orderOf {choices | AreChoices plan.shuffleSizes choices}
        {order | request.IsOrder order}) ∧
    (request.strategy = .roundRobinRandom → ∃ sequential,
      BlockPlan.check { request with strategy := .roundRobinSequential } = .ok sequential ∧
      ∀ other : σ, Set.BijOn plan.orderOf {choices | AreChoices plan.shuffleSizes choices}
        {order | request.IsOrder order ∧ order.map request.geometry.channelOf =
          (sequential.generate.run other).1.map request.geometry.channelOf}) ∧
    (request.strategy = .roundRobinPerPages →
      Set.BijOn plan.orderOf {choices | AreChoices plan.shuffleSizes choices}
        {order | request.IsPageRotation order}) := by
  have hrequest := BlockPlan.toPlanRequest_of_check haccepted
  subst hrequest
  refine ⟨fun source => ⟨areChoices_drawEach _ source, ?_⟩, fun choices hchoices => ?_,
    BlockPlan.orderOf_bijOn_random, fun hstrategy => ?_, fun hstrategy => ?_⟩
  · rw [plan.generate_run source]
    rfl
  · obtain ⟨words, hwords⟩ := exists_drawEach_eq hchoices fun size hsize =>
      Nat.lt_of_le_of_lt (plan.le_blockCount_of_mem_shuffleSizes hsize) hcount
    refine ⟨words, hwords, ?_⟩
    rw [plan.generate_run (Tape.mk words), ← hwords]
    rfl
  · have hstriped : plan.strategy.isStriped := by rw [hstrategy]; rfl
    let sequential := plan.withStrategy .roundRobinSequential fun _ => hstriped
    refine ⟨sequential, sequential.check_toPlanRequest, fun other => ?_⟩
    exact BlockPlan.orderOf_bijOn_roundRobinRandom hstrategy
  · have hstriped : plan.strategy.isStriped := by rw [hstrategy]; rfl
    exact BlockPlan.orderOf_bijOn_roundRobinPerPages hstriped hstrategy

/-- Five pages on two channels, the last page cut short: three pages of the first channel and two of
the second can be shuffled in twelve ways, of which one takes the short page first. -/
theorem each_order_from_one_choice_short_page :
    ∃ plan, BlockPlan.check ⟨.roundRobinPerPages, 36, 4, ⟨8, 2⟩⟩ = .ok plan ∧
      plan.blockCount.toNat < UInt32.size ∧
      AreChoices plan.shuffleSizes [[0, 1], [1]] ∧
      (∃ words, (plan.generate.run (Tape.mk words)).1 = [32, 8, 12, 16, 20, 24, 28, 0, 4]) ∧
      ∀ choices, AreChoices plan.shuffleSizes choices →
        plan.orderOf choices = plan.orderOf [[0, 1], [1]] → choices = [[0, 1], [1]] := by
  let plan : BlockPlan :=
    ⟨⟨.roundRobinPerPages, 36, 4, ⟨8, 2⟩⟩, by decide, by decide, by decide, by decide, by decide⟩
  have haccepted : BlockPlan.check ⟨.roundRobinPerPages, 36, 4, ⟨8, 2⟩⟩ = .ok plan := rfl
  have hcount : plan.blockCount.toNat < UInt32.size := by decide
  have hsizes : plan.shuffleSizes = [3, 2] := by decide +kernel
  have horder : plan.orderOf [[0, 1], [1]] = [32, 8, 12, 16, 20, 24, 28, 0, 4] := by
    decide +kernel
  have hchoices : AreChoices plan.shuffleSizes [[0, 1], [1]] := by
    rw [hsizes]
    exact .cons (.cons (by decide) (.cons (by decide) .nil)) (.cons (.cons (by decide) .nil) .nil)
  obtain ⟨-, hdrawn, -, -, hpages⟩ := each_order_from_one_choice (σ := Xoshiro) haccepted hcount
  obtain ⟨words, -, hwords⟩ := hdrawn _ hchoices
  obtain ⟨-, hinjective, -⟩ := hpages rfl
  exact ⟨plan, haccepted, hcount, hchoices, ⟨words, hwords.trans horder⟩,
    fun choices hother heq => hinjective hother hchoices heq⟩

end AccessPattern
