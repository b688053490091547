import AccessPattern.Proofs.Except
import AccessPattern.Proofs.Order.Permutation

/-!
# Lanes, runs and counts in checked steps

A division by zero gives zero here, a product wraps around, and a change outside of a list is no
change. So that nothing hides behind these conventions, the ascending offsets, the lanes, the page
runs and the histogram are computed once more by loops in which each divisor, product and place is
checked before it is used. The first check that fails ends a loop.

On a geometry with pages and channels no check fails, whatever the offsets, and the loops give the
lanes, the runs and the histogram.
-/

namespace AccessPattern

/-- A step that cannot be carried out. -/
inductive StepFault where
  /-- The divisor is zero. -/
  | zeroDivisor (dividend : UInt64)
  /-- The product needs more than 64 bits. -/
  | overflow (first second : UInt64)
  /-- The place lies outside of the list. -/
  | outside (place length : Nat)
  /-- The list is not as long as it has to be. -/
  | wrongLength (length expected : Nat)
deriving DecidableEq, Repr

namespace Checked

variable {α β : Type}

/-- A quotient, unless the divisor is zero. -/
def quotient (dividend divisor : UInt64) : Except StepFault UInt64 :=
  if divisor = 0 then .error (.zeroDivisor dividend) else .ok (dividend / divisor)

/-- A remainder, unless the divisor is zero. -/
def remainder (dividend divisor : UInt64) : Except StepFault UInt64 :=
  if divisor = 0 then .error (.zeroDivisor dividend) else .ok (dividend % divisor)

/-- A product, unless it needs more than 64 bits. -/
def product (first second : UInt64) : Except StepFault UInt64 :=
  if first.toNat * second.toNat < UInt64.size then .ok (first * second)
  else .error (.overflow first second)

/-- The item at a place of a list, unless the list ends before. -/
def item (items : List α) (place : Nat) : Except StepFault α :=
  match items[place]? with
  | some found => .ok found
  | none => .error (.outside place items.length)

/-- A list with the item at one place changed, unless the list ends before. -/
def change (items : List α) (place : Nat) (f : α → α) : Except StepFault (List α) :=
  if place < items.length then .ok (items.modify place f)
  else .error (.outside place items.length)

/-- The page of an offset. -/
def page (g : Geometry) (offset : UInt64) : Except StepFault UInt64 :=
  quotient offset g.pageSize

/-- The channel of an offset. -/
def channel (g : Geometry) (offset : UInt64) : Except StepFault UInt64 := do
  remainder (← page g offset) g.channels

/-- The offset of each of the first blocks. -/
def linearOffsets (blockSize count : UInt64) : Except StepFault (List UInt64) :=
  (List.range count.toNat).mapM fun block => product (UInt64.ofNat block) blockSize

/-- Change the entry of its channel for one offset after the other. -/
def perChannel (g : Geometry) (f : UInt64 → β → β) (entries : List β) (offsets : List UInt64) :
    Except StepFault (List β) :=
  offsets.foldlM (fun entries offset => do
    change entries (← channel g offset).toNat (f offset)) entries

/-- Put the offset of each block into the lane of its channel. How many a lane will hold is
estimated first, for which the number of blocks is divided by that of the channels. -/
def lanes (g : Geometry) (blockSize count : UInt64) : Except StepFault (List (List UInt64)) := do
  let _ ← quotient count g.channels
  perChannel g (fun offset lane => lane ++ [offset]) (List.replicate g.channels.toNat [])
    (← linearOffsets blockSize count)

/-- Count each offset for its channel. -/
def histogram (g : Geometry) (offsets : List UInt64) : Except StepFault (List Nat) :=
  perChannel g (fun _ count => count + 1) (List.replicate g.channels.toNat 0) offsets

/-- Add an offset to the last run when it lies in the page of the first offset there, and start a
new run with it otherwise. -/
def extendRuns (g : Geometry) (runs : List (List UInt64)) (offset : UInt64) :
    Except StepFault (List (List UInt64)) :=
  match runs.getLast? with
  | none => .ok (runs ++ [[offset]])
  | some run => do
    let before ← page g (← item run 0)
    let here ← page g offset
    if before = here then .ok (runs.dropLast ++ [run ++ [offset]]) else .ok (runs ++ [[offset]])

/-- Cut a lane into page runs. How many offsets a run will hold is estimated first, for which the
page size is divided by that of the blocks. -/
def pageRuns (g : Geometry) (blockSize : UInt64) (lane : List UInt64) :
    Except StepFault (List (List UInt64)) := do
  let _ ← quotient g.pageSize blockSize
  lane.foldlM (extendRuns g) []

/-- A quotient can be computed when the divisor is not zero. -/
theorem quotient_eq {dividend divisor : UInt64} (h : divisor ≠ 0) :
    quotient dividend divisor = .ok (dividend / divisor) :=
  if_neg h

/-- A remainder can be computed when the divisor is not zero. -/
theorem remainder_eq {dividend divisor : UInt64} (h : divisor ≠ 0) :
    remainder dividend divisor = .ok (dividend % divisor) :=
  if_neg h

/-- The offset of a block of an extent can be computed. -/
theorem product_eq {extent blockSize : UInt64} {block : Nat}
    (h : block < extent.toNat / blockSize.toNat) :
    product (UInt64.ofNat block) blockSize = .ok (UInt64.ofNat block * blockSize) := by
  rw [product, toNat_ofNat_block h]
  exact if_pos (mul_blockSize_lt_size h)

/-- A list has an item at each place before its end. -/
theorem item_eq {items : List α} {place : Nat} {found : α} (h : items[place]? = some found) :
    item items place = .ok found := by
  rw [item, h]

/-- A list can be changed at each place before its end. -/
theorem change_eq {items : List α} {place : Nat} (h : place < items.length) (f : α → α) :
    change items place f = .ok (items.modify place f) :=
  if_pos h

variable {g : Geometry}

/-- The page of an offset can be computed where pages have a size. -/
theorem page_eq (hpage : g.pageSize ≠ 0) (offset : UInt64) :
    page g offset = .ok (g.pageOf offset) :=
  quotient_eq hpage

/-- The channel of an offset can be computed where there are pages and channels. -/
theorem channel_eq (hpage : g.pageSize ≠ 0) (hchannels : g.channels ≠ 0) (offset : UInt64) :
    channel g offset = .ok (g.channelOf offset) := by
  rw [channel, page_eq hpage]
  exact remainder_eq hchannels

/-- The ascending offsets of a plan can be computed. -/
theorem linearOffsets_eq (plan : BlockPlan) :
    linearOffsets plan.blockSize plan.blockCount = .ok plan.linearOffsets := by
  rw [linearOffsets, BlockPlan.linearOffsets, mapM_eq_ok_iff, List.forall₂_map_right_iff,
    List.forall₂_same]
  intro block hblock
  rw [List.mem_range, BlockPlan.blockCount, UInt64.toNat_div] at hblock
  exact product_eq hblock

/-- The entries of the channels, each telling something of the offsets of its lane. -/
def entriesOf (g : Geometry) (tell : List UInt64 → β) (offsets : List UInt64) : List β :=
  (List.range g.channels.toNat).map fun channel => tell (g.lane offsets channel)

/-- With no offsets all entries are the same. -/
@[simp] theorem entriesOf_nil (tell : List UInt64 → β) :
    entriesOf g tell [] = List.replicate g.channels.toNat (tell []) := by
  simp [entriesOf, Geometry.lane, List.map_const']

/-- One more offset goes to the end of the lane of its channel and to no other. -/
theorem lane_concat (offsets : List UInt64) (offset : UInt64) (channel : Nat) :
    g.lane (offsets ++ [offset]) channel =
      if (g.channelOf offset).toNat = channel then g.lane offsets channel ++ [offset]
      else g.lane offsets channel := by
  rw [Geometry.lane, List.filter_append, List.filter_singleton]
  by_cases howner : (g.channelOf offset).toNat = channel
  · simp [Geometry.lane, howner]
  · simp [Geometry.lane, howner, beq_eq_false_iff_ne.mpr howner]

/-- One more offset changes the entry of its channel and no other. -/
theorem entriesOf_concat {tell : List UInt64 → β} {f : UInt64 → β → β}
    (htell : ∀ lane offset, tell (lane ++ [offset]) = f offset (tell lane))
    (offsets : List UInt64) (offset : UInt64) :
    entriesOf g tell (offsets ++ [offset]) =
      (entriesOf g tell offsets).modify (g.channelOf offset).toNat (f offset) := by
  refine List.ext_getElem? fun channel => ?_
  rw [List.getElem?_modify, entriesOf, entriesOf, List.getElem?_map, List.getElem?_map]
  by_cases hchannel : channel < g.channels.toNat
  · rw [List.getElem?_range hchannel, Option.map_some, Option.map_some, lane_concat]
    split <;> simp [htell]
  · simp [hchannel]

/-- Changing the entries for one offset after the other keeps them up to date with the offsets. -/
theorem perChannel_entriesOf (hpage : g.pageSize ≠ 0) (hchannels : g.channels ≠ 0)
    {tell : List UInt64 → β} {f : UInt64 → β → β}
    (htell : ∀ lane offset, tell (lane ++ [offset]) = f offset (tell lane))
    (before offsets : List UInt64) :
    perChannel g f (entriesOf g tell before) offsets =
      .ok (entriesOf g tell (before ++ offsets)) := by
  induction offsets generalizing before with
  | nil => rw [List.append_nil]; rfl
  | cons offset offsets ih =>
    have hplace : (g.channelOf offset).toNat < (entriesOf g tell before).length := by
      rw [entriesOf, List.length_map, List.length_range]
      exact Geometry.channelOf_lt hchannels offset
    rw [perChannel, List.foldlM_cons, channel_eq hpage hchannels]
    change (change _ (g.channelOf offset).toNat (f offset) >>= _) = _
    rw [change_eq hplace, ← entriesOf_concat htell, List.append_cons before offset offsets]
    exact ih (before ++ [offset])

/-- The lanes of a plan can be computed. -/
theorem lanes_eq (plan : BlockPlan) :
    lanes plan.geometry plan.blockSize plan.blockCount = .ok plan.lanes := by
  rw [lanes, quotient_eq plan.channels_ne_zero, linearOffsets_eq, BlockPlan.lanes,
    Geometry.lanes_eq]
  change perChannel plan.geometry _ (List.replicate _ (id [])) plan.linearOffsets = _
  rw [← entriesOf_nil, perChannel_entriesOf plan.pageSize_ne_zero plan.channels_ne_zero
    fun _ _ => rfl]
  rfl

/-- Counting offsets succeeds and gives the histogram. -/
theorem histogram_eq (hpage : g.pageSize ≠ 0) (hchannels : g.channels ≠ 0)
    (offsets : List UInt64) : histogram g offsets = .ok (g.histogram offsets) := by
  have hcounts : perChannel g (fun _ count => count + 1) (entriesOf g List.length []) offsets =
      .ok (entriesOf g List.length ([] ++ offsets)) :=
    perChannel_entriesOf hpage hchannels (fun _ _ => List.length_append) [] offsets
  rw [entriesOf_nil] at hcounts
  rw [histogram, Geometry.histogram_eq]
  refine hcounts.trans (congrArg Except.ok ?_)
  simp only [entriesOf, Geometry.lane, List.countP_eq_length_filter, List.nil_append]

/-- Whether two offsets lie in the same page. -/
def samePage (g : Geometry) (first second : UInt64) : Bool :=
  g.pageOf first == g.pageOf second

/-- Offsets whose neighbours lie in the same page all lie in that of the first. -/
theorem pageOf_eq_of_isChain {first : UInt64} {later : List UInt64}
    (h : (first :: later).IsChain fun before after => samePage g before after) :
    ∀ offset ∈ first :: later, g.pageOf first = g.pageOf offset := by
  induction later generalizing first with
  | nil => simp
  | cons second later ih =>
    obtain ⟨hsame, hrest⟩ := List.isChain_cons_cons.mp h
    rw [List.forall_mem_cons]
    exact ⟨rfl, fun offset hoffset => (beq_iff_eq.mp hsame).trans (ih hrest offset hoffset)⟩

/-- The last run is looked at by its first offset. -/
theorem extendRuns_concat_cons (hpage : g.pageSize ≠ 0) (runs : List (List UInt64))
    (first : UInt64) (later : List UInt64) (offset : UInt64) :
    extendRuns g (runs ++ [first :: later]) offset =
      if g.pageOf first = g.pageOf offset then .ok (runs ++ [first :: later ++ [offset]])
      else .ok (runs ++ [first :: later] ++ [[offset]]) := by
  rw [extendRuns, List.getLast?_concat, List.dropLast_concat]
  change (page g first >>= fun before => page g offset >>= _) = _
  rw [page_eq hpage, page_eq hpage]
  rfl

section Splitting

variable {lane later : List UInt64} {first offset : UInt64} {runs : List (List UInt64)}
  (hruns : lane.splitBy (samePage g) = runs ++ [first :: later])
include hruns

/-- The offset at the end of a lane lies in the page of the first offset of the last run. -/
theorem pageOf_eq_of_mem_getLast? {last : UInt64} (hlast : last ∈ lane.getLast?) :
    g.pageOf first = g.pageOf last := by
  obtain ⟨hlane, -, hchains, -⟩ := List.splitBy_eq_iff.mp hruns
  rw [hlane, List.flatten_append, List.flatten_singleton,
    List.getLast?_append_of_ne_nil _ (List.cons_ne_nil first later)] at hlast
  exact pageOf_eq_of_isChain (hchains (first :: later) (by simp)) last
    (List.mem_of_mem_getLast? hlast)

/-- An offset in the page of the last run belongs to that run. -/
theorem splitBy_concat_of_samePage (hsame : g.pageOf first = g.pageOf offset) :
    (lane ++ [offset]).splitBy (samePage g) = runs ++ [first :: later ++ [offset]] := by
  obtain ⟨hlane, hnonempty, hchains, hbetween⟩ := List.splitBy_eq_iff.mp hruns
  rw [List.mem_append, not_or] at hnonempty
  rw [List.forall_mem_append, List.forall_mem_singleton] at hchains
  have hlast : ∀ last ∈ (first :: later).getLast?, ∀ next ∈ [offset].head?,
      samePage g last next = true := by
    rintro last hmem _ ⟨⟩
    have hpage := pageOf_eq_of_isChain hchains.2 last (List.mem_of_mem_getLast? hmem)
    exact beq_iff_eq.mpr (hpage.symm.trans hsame)
  refine List.splitBy_eq_iff.mpr ⟨by simp [hlane], by simp [hnonempty.1], ?_, ?_⟩
  · rw [List.forall_mem_append, List.forall_mem_singleton]
    exact ⟨hchains.1, List.isChain_append.mpr ⟨hchains.2, List.isChain_singleton _, hlast⟩⟩
  · rw [List.isChain_append] at hbetween ⊢
    refine ⟨hbetween.1, List.isChain_singleton _, fun before hbefore => ?_⟩
    simpa using hbetween.2.2 before hbefore

/-- An offset outside of the page of the last run is a run of its own. -/
theorem splitBy_concat_of_not_samePage (hother : g.pageOf first ≠ g.pageOf offset) :
    (lane ++ [offset]).splitBy (samePage g) = runs ++ [first :: later] ++ [[offset]] := by
  have hapart : ∀ last ∈ lane.getLast?, samePage g last offset = false := fun last hlast =>
    beq_eq_false_iff_ne.mpr (pageOf_eq_of_mem_getLast? hruns hlast ▸ hother)
  rw [List.splitBy_append_cons [] hapart, hruns]
  rfl

end Splitting

/-- The runs of a lane are extended by an offset to the runs of the longer lane. -/
theorem extendRuns_splitBy (hpage : g.pageSize ≠ 0) (lane : List UInt64) (offset : UInt64) :
    extendRuns g (lane.splitBy (samePage g)) offset =
      .ok ((lane ++ [offset]).splitBy (samePage g)) := by
  rcases List.eq_nil_or_concat (lane.splitBy (samePage g)) with hnil | ⟨runs, run, hruns⟩
  · rw [List.splitBy_eq_nil.mp hnil]
    rfl
  · rw [List.concat_eq_append] at hruns
    obtain ⟨-, hnonempty, -⟩ := List.splitBy_eq_iff.mp hruns
    cases run with
    | nil => simp at hnonempty
    | cons first later =>
      rw [hruns, extendRuns_concat_cons hpage]
      split
      · next hsame => rw [splitBy_concat_of_samePage hruns hsame]
      · next hother => rw [splitBy_concat_of_not_samePage hruns hother]

/-- Cutting a lane into page runs succeeds, and cuts it wherever two neighbours lie in different
pages. -/
theorem pageRuns_eq (hpage : g.pageSize ≠ 0) {blockSize : UInt64} (hblock : blockSize ≠ 0)
    (lane : List UInt64) : pageRuns g blockSize lane = .ok (lane.splitBy (samePage g)) := by
  have hextend (before : List UInt64) :
      lane.foldlM (extendRuns g) (before.splitBy (samePage g)) =
        .ok ((before ++ lane).splitBy (samePage g)) := by
    induction lane generalizing before with
    | nil => rw [List.append_nil]; rfl
    | cons offset lane ih =>
      rw [List.foldlM_cons, extendRuns_splitBy hpage, List.append_cons before offset lane]
      exact ih (before ++ [offset])
  rw [pageRuns, quotient_eq hblock]
  exact hextend []

end Checked

end AccessPattern
