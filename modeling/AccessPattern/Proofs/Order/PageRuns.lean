import AccessPattern.Proofs.Checked.Generate
import AccessPattern.Proofs.Order.PageTurns

/-!
# Page runs

A list of offsets has exactly one cut into runs that are not empty, stay in one page each, and
change the page from each to the next. Nothing is asked of the list for this: it may go back and
forth between pages, and then a page has several runs. In an ascending list the pages of the runs
ascend, so there a page has one run, which holds all offsets of the page.

The lane of a channel is ascending and made of whole pages, so its runs are as long as pages, up to
the run of the page in which the extent ends.
-/

namespace AccessPattern

namespace Geometry

/-- Some runs cut a list of offsets wherever its pages change, and nowhere else. -/
structure IsCutIntoRuns (g : Geometry) (offsets : List UInt64) (runs : List (List UInt64)) :
    Prop where
  /-- One after the other, the runs are the offsets. -/
  flatten_eq : runs.flatten = offsets
  /-- No run is empty. -/
  ne_nil : ∀ run ∈ runs, run ≠ []
  /-- The offsets of a run lie in the same page. -/
  samePage : ∀ run ∈ runs, ∀ first ∈ run, ∀ second ∈ run, g.pageOf first = g.pageOf second
  /-- The offsets of neighbouring runs lie in different pages. -/
  otherPage : runs.IsChain fun before after =>
    ∀ first ∈ before, ∀ second ∈ after, g.pageOf first ≠ g.pageOf second

variable {g : Geometry} {offsets : List UInt64} {runs : List (List UInt64)}

/-- Neighbours lie in the same page throughout a list when all its offsets do. -/
theorem isChain_samePage_iff {run : List UInt64} :
    (run.IsChain fun before after => Checked.samePage g before after) ↔
      ∀ first ∈ run, ∀ second ∈ run, g.pageOf first = g.pageOf second := by
  constructor
  · intro hchain
    cases run with
    | nil => simp
    | cons head later =>
      have hhead := Checked.pageOf_eq_of_isChain hchain
      intro first hfirst second hsecond
      exact (hhead first hfirst).symm.trans (hhead second hsecond)
  · intro hpage
    refine List.Pairwise.isChain (List.pairwise_of_forall_mem_list ?_)
    intro first hfirst second hsecond
    exact beq_iff_eq.mpr (hpage first hfirst second hsecond)

/-- Comparing the neighbours of a list finds the only cut of it into runs. -/
theorem splitBy_eq_iff_isCutIntoRuns :
    offsets.splitBy (Checked.samePage g) = runs ↔ g.IsCutIntoRuns offsets runs := by
  rw [List.splitBy_eq_iff]
  constructor
  · rintro ⟨hflatten, hnonempty, hchains, hbetween⟩
    have hpage (run : List UInt64) (hrun : run ∈ runs) := isChain_samePage_iff.mp (hchains run hrun)
    refine ⟨hflatten.symm, fun run hrun hnil => hnonempty (hnil ▸ hrun), hpage, ?_⟩
    refine hbetween.imp_of_mem_imp fun {before after} hbefore hafter ⟨hfirst, hsecond, hother⟩ => ?_
    intro first hmem second hmem'
    rw [hpage before hbefore first hmem _ (List.getLast_mem hfirst),
      hpage after hafter second hmem' _ (List.head_mem hsecond)]
    exact beq_eq_false_iff_ne.mp hother
  · intro h
    refine ⟨h.flatten_eq.symm, fun hnil => h.ne_nil [] hnil rfl,
      fun run hrun => isChain_samePage_iff.mpr (h.samePage run hrun), ?_⟩
    refine h.otherPage.imp_of_mem_imp fun {before after} hbefore hafter hother => ?_
    have hfirst := h.ne_nil before hbefore
    have hsecond := h.ne_nil after hafter
    exact ⟨hfirst, hsecond,
      beq_eq_false_iff_ne.mpr (hother _ (List.getLast_mem hfirst) _ (List.head_mem hsecond))⟩

/-- The pages of ascending offsets ascend. -/
theorem pageOf_mono {first second : UInt64} (h : first ≤ second) :
    g.pageOf first ≤ g.pageOf second := by
  rw [UInt64.le_iff_toNat_le] at h ⊢
  simp only [pageOf, UInt64.toNat_div]
  exact Nat.div_le_div_right h

/-- The runs behind the first one are the runs of the offsets behind it. -/
theorem IsCutIntoRuns.tail {run : List UInt64} (h : g.IsCutIntoRuns offsets (run :: runs)) :
    g.IsCutIntoRuns runs.flatten runs where
  flatten_eq := rfl
  ne_nil later hlater := h.ne_nil later (List.mem_cons_of_mem _ hlater)
  samePage later hlater := h.samePage later (List.mem_cons_of_mem _ hlater)
  otherPage := h.otherPage.tail

/-- In an ascending list the pages of the runs ascend: the page changes to the next run already, and
does not go back from there on. -/
theorem IsCutIntoRuns.pairwise_pageOf_lt (h : g.IsCutIntoRuns offsets runs)
    (hascending : offsets.Pairwise (· ≤ ·)) :
    runs.Pairwise fun before after =>
      ∀ first ∈ before, ∀ second ∈ after, g.pageOf first < g.pageOf second := by
  induction runs generalizing offsets with
  | nil => exact .nil
  | cons run runs ih =>
    rw [← h.flatten_eq, List.pairwise_flatten] at hascending
    obtain ⟨hinside, hbetween⟩ := hascending
    rw [List.pairwise_cons] at hbetween
    have htail : runs.flatten.Pairwise (· ≤ ·) :=
      List.pairwise_flatten.mpr ⟨fun later hlater => hinside later (List.mem_cons_of_mem _ hlater),
        hbetween.2⟩
    refine List.pairwise_cons.mpr ⟨?_, ih h.tail htail⟩
    intro later hlater first hfirst second hsecond
    cases runs with
    | nil => simp at hlater
    | cons next rest =>
      obtain ⟨other, hother⟩ := List.exists_mem_of_ne_nil next (h.ne_nil next (by simp))
      have hchange : g.pageOf first ≠ g.pageOf other :=
        (List.isChain_cons_cons.mp h.otherPage).1 first hfirst other hother
      have hle : g.pageOf first ≤ g.pageOf other :=
        pageOf_mono (hbetween.1 next (by simp) first hfirst other hother)
      have hlt : g.pageOf first < g.pageOf other := UInt64.lt_of_le_of_ne hle hchange
      rcases List.mem_cons.mp hlater with rfl | hrest
      · rwa [h.samePage later (by simp) second hsecond other hother]
      · have hrests := (List.pairwise_cons.mp hbetween.2).1 later hrest
        exact UInt64.lt_of_lt_of_le hlt (pageOf_mono (hrests other hother second hsecond))

/-- Where no run has an offset in a page, none is picked with the page, and no offset either. -/
theorem filter_page_eq_nil {page : UInt64}
    (h : ∀ run ∈ runs, ∀ offset ∈ run, g.pageOf offset ≠ page) :
    (runs.filter fun run => run.any fun offset => g.pageOf offset == page) = [] ∧
      (runs.flatten.filter fun offset => g.pageOf offset == page) = [] := by
  simp only [List.filter_eq_nil_iff, List.any_eq_true, beq_iff_eq, List.mem_flatten]
  constructor
  · rintro run hrun ⟨offset, hoffset, hpage⟩
    exact h run hrun offset hoffset hpage
  · rintro offset ⟨run, hrun, hoffset⟩
    exact h run hrun offset hoffset

/-- In an ascending list the offsets of a page make up one run, and no other run lies in that
page. -/
theorem IsCutIntoRuns.filter_eq_singleton (h : g.IsCutIntoRuns offsets runs)
    (hascending : offsets.Pairwise (· ≤ ·)) {page : UInt64}
    (hpage : ∃ offset ∈ offsets, g.pageOf offset = page) :
    (runs.filter fun run => run.any fun offset => g.pageOf offset == page) =
      [offsets.filter fun offset => g.pageOf offset == page] := by
  obtain ⟨offset, hoffset, rfl⟩ := hpage
  obtain ⟨run, hrun, hmem⟩ := List.mem_flatten.mp (h.flatten_eq ▸ hoffset)
  obtain ⟨before, after, rfl⟩ := List.append_of_mem hrun
  have hpages := h.pairwise_pageOf_lt hascending
  rw [List.pairwise_append, List.pairwise_cons] at hpages
  obtain ⟨-, ⟨hafter, -⟩, hbefore⟩ := hpages
  obtain ⟨hfirst, hfirsts⟩ := filter_page_eq_nil fun other hother item hitem =>
    UInt64.ne_of_lt (hbefore other hother run List.mem_cons_self item hitem offset hmem)
  obtain ⟨hlast, hlasts⟩ := filter_page_eq_nil fun other hother item hitem =>
    (UInt64.ne_of_lt (hafter other hother offset hmem item hitem)).symm
  have hkept : (run.any fun item => g.pageOf item == g.pageOf offset) = true :=
    List.any_eq_true.mpr ⟨offset, hmem, beq_self_eq_true _⟩
  have hwhole : (run.filter fun item => g.pageOf item == g.pageOf offset) = run :=
    List.filter_eq_self.mpr fun item hitem =>
      beq_iff_eq.mpr (h.samePage run hrun item hitem offset hmem)
  rw [← h.flatten_eq, List.flatten_append, List.flatten_cons]
  simp only [List.filter_append, List.filter_cons, hkept, hfirst, hfirsts, hlast, hlasts, hwhole,
    if_true, List.nil_append, List.append_nil]

end Geometry

namespace BlockPlan

variable (plan : BlockPlan)

/-- The page runs of a plan are the only cut into runs. -/
theorem pageRuns_eq_iff {offsets : List UInt64} {runs : List (List UInt64)} :
    plan.pageRuns offsets = runs ↔ plan.geometry.IsCutIntoRuns offsets runs :=
  Geometry.splitBy_eq_iff_isCutIntoRuns

/-- A page with no other behind it is the one in which the extent ends. -/
theorem eq_lastPage {plan : BlockPlan} {page : Nat} (hpage : page < plan.pageCount)
    (hlast : ¬page + 1 < plan.pageCount) :
    page = (plan.extent.toNat - 1) / plan.geometry.pageSize.toNat := by
  rw [lt_pageCount_iff] at hpage hlast
  rw [Nat.succ_mul] at hlast
  symm
  rw [Nat.div_eq_iff plan.pageSize_pos]
  omega

variable {plan} (hstriped : plan.strategy.isStriped)
include hstriped

/-- A page holds as many blocks as fit into it, or fewer where the extent ends in it. -/
theorem length_pageBlocks {page : Nat} (hpage : page < plan.pageCount) :
    (plan.pageBlocks page).length ≤ plan.blocksPerPage.toNat ∧
      ((plan.pageBlocks page).length ≠ plan.blocksPerPage.toNat →
        page = (plan.extent.toNat - 1) / plan.geometry.pageSize.toNat) := by
  rw [pageBlocks_eq_map hstriped, List.length_map, length_chunk]
  refine ⟨Nat.min_le_left _ _, fun hshort => eq_lastPage hpage ?_⟩
  rw [lt_pageCount_iff_block hstriped, Nat.succ_mul]
  omega

/-- The runs of a lane are pages of the extent. -/
theorem exists_pageBlocks_of_mem_pageRuns {lane run : List UInt64} (hlane : lane ∈ plan.lanes)
    (hrun : run ∈ plan.pageRuns lane) : ∃ page < plan.pageCount, run = plan.pageBlocks page := by
  rw [lanes, Geometry.lanes_eq] at hlane
  obtain ⟨channel, -, rfl⟩ := List.mem_map.mp hlane
  rw [pageRuns_lane hstriped] at hrun
  obtain ⟨page, hpage, rfl⟩ := List.mem_map.mp hrun
  exact ⟨page, plan.lt_pageCount_of_mem_channelPages hpage, rfl⟩

end BlockPlan

/-- For every plan and every list of offsets, adding one offset after the other to the last run, or
starting a new run where the page differs from that of the first offset there, ends with the only
list of runs that make up the offsets, are not empty, stay in one page each and change the page from
each to the next. If the offsets ascend, then for each page with an offset among them there is one
run, and it holds all the offsets in that page. The runs of the lanes of a striped plan have as many
offsets as a page has blocks; only the run of the page in which the extent ends may have fewer. -/
theorem page_runs_only_cut {request : PlanRequest} {plan : BlockPlan}
    (haccepted : BlockPlan.check request = .ok plan) :
    (∀ lane, Checked.pageRuns request.geometry request.blockSize lane = .ok (plan.pageRuns lane) ∧
      ∀ runs, request.geometry.IsCutIntoRuns lane runs ↔ runs = plan.pageRuns lane) ∧
    (∀ lane : List UInt64, lane.Pairwise (· ≤ ·) →
      ∀ page, (∃ offset ∈ lane, request.geometry.pageOf offset = page) →
        ((plan.pageRuns lane).filter fun run =>
            run.any fun offset => request.geometry.pageOf offset == page) =
          [lane.filter fun offset => request.geometry.pageOf offset == page]) ∧
    (request.strategy.isStriped → ∀ lane ∈ plan.lanes, ∀ run ∈ plan.pageRuns lane,
      run.length ≤ request.geometry.pageSize.toNat / request.blockSize.toNat ∧
        (run.length ≠ request.geometry.pageSize.toNat / request.blockSize.toNat →
          ∀ offset ∈ run, (request.geometry.pageOf offset).toNat =
            (request.extent.toNat - 1) / request.geometry.pageSize.toNat)) := by
  have hrequest := BlockPlan.toPlanRequest_of_check haccepted
  subst hrequest
  refine ⟨fun lane => ⟨Checked.pageRuns_lane_eq plan lane, fun runs => ?_⟩,
    fun lane hascending page hpage => ?_, fun hstriped lane hlane run hrun => ?_⟩
  · rw [← plan.pageRuns_eq_iff, eq_comm]
  · exact (plan.pageRuns_eq_iff.mp rfl).filter_eq_singleton hascending hpage
  · obtain ⟨page, hpage, rfl⟩ := BlockPlan.exists_pageBlocks_of_mem_pageRuns hstriped hlane hrun
    obtain ⟨hle, hlast⟩ := BlockPlan.length_pageBlocks hstriped hpage
    rw [BlockPlan.blocksPerPage, UInt64.toNat_div] at hle hlast
    refine ⟨hle, fun hshort offset hoffset => ?_⟩
    rw [plan.pageOf_of_mem_pageBlocks hoffset, hlast hshort]

/-- A list that goes back to a page it has left has two runs in that page, also where blocks do not
make up pages; and of the two runs of the second channel the last is cut short. -/
theorem page_runs_only_cut_back_and_forth :
    ∃ uneven striped,
      BlockPlan.check ⟨.random, 36, 6, ⟨16, 2⟩⟩ = .ok uneven ∧
      BlockPlan.check ⟨.roundRobinPerPages, 56, 4, ⟨16, 2⟩⟩ = .ok striped ∧
      uneven.pageRuns [0, 6, 18, 12, 12] = [[0, 6], [18], [12, 12]] ∧
      ((uneven.pageRuns [0, 6, 12, 12, 18]).filter fun run =>
          run.any fun offset => Geometry.pageOf ⟨16, 2⟩ offset == 0) = [[0, 6, 12, 12]] ∧
      striped.lanes = [[0, 4, 8, 12, 32, 36, 40, 44], [16, 20, 24, 28, 48, 52]] ∧
      ∀ run ∈ striped.pageRuns [16, 20, 24, 28, 48, 52],
        run.length ≤ 4 ∧ (run.length ≠ 4 → ∀ offset ∈ run,
          (Geometry.pageOf ⟨16, 2⟩ offset).toNat = 3) := by
  let uneven : BlockPlan :=
    ⟨⟨.random, 36, 6, ⟨16, 2⟩⟩, by decide, by decide, by decide, by decide, by decide⟩
  let striped : BlockPlan :=
    ⟨⟨.roundRobinPerPages, 56, 4, ⟨16, 2⟩⟩, by decide, by decide, by decide, by decide, by decide⟩
  have huneven : BlockPlan.check ⟨.random, 36, 6, ⟨16, 2⟩⟩ = .ok uneven := rfl
  have hstriped : BlockPlan.check ⟨.roundRobinPerPages, 56, 4, ⟨16, 2⟩⟩ = .ok striped := rfl
  have hlanes : striped.lanes = [[0, 4, 8, 12, 32, 36, 40, 44], [16, 20, 24, 28, 48, 52]] := by
    decide +kernel
  obtain ⟨hcut, hascending, -⟩ := page_runs_only_cut huneven
  obtain ⟨-, -, hwhole⟩ := page_runs_only_cut hstriped
  refine ⟨uneven, striped, huneven, hstriped, ?_, ?_, hlanes, hwhole rfl _ ?_⟩
  · refine (((hcut [0, 6, 18, 12, 12]).2 _).mp ⟨rfl, by decide, ?_, ?_⟩).symm <;>
      simp [Geometry.pageOf]
  · exact hascending [0, 6, 12, 12, 18] (by decide) 0 ⟨6, by decide, by decide⟩
  · rw [hlanes]
    simp

end AccessPattern
