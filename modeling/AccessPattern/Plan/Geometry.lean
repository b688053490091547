import AccessPattern.Plan.Buckets

/-!
# Backend geometry

A storage backend is made of several parallel channels and is allocated in pages. The page of an
offset is its offset divided by the page size, and the pages go to the channels in turn.

`pageOf` and `channelOf` are meant for a geometry whose page size and channel count are not zero.
`pageOf?` and `channelOf?` take any geometry and name the division that cannot be done;
`channelOf?_eq` says that they agree with the former on every usable geometry.
-/

namespace AccessPattern

/-- The page size in bytes and the number of parallel channels of a backend. -/
structure Geometry where
  pageSize : UInt64
  channels : UInt64
deriving DecidableEq, Repr

/-- A division that an unusable geometry or block size asks for. -/
inductive ArithmeticFault where
  /-- A quotient by a page size of zero. -/
  | pageDivision
  /-- A remainder by a channel count of zero. -/
  | channelRemainder
  /-- A coverage check in blocks of size zero. -/
  | blockDivision
deriving DecidableEq, Repr

/-- The wording of an arithmetic fault. -/
def ArithmeticFault.message : ArithmeticFault → String
  | .pageDivision => "attempt to divide by zero"
  | .channelRemainder => "attempt to calculate the remainder with a divisor of zero"
  | .blockDivision => "block_size must be non-zero"

namespace Geometry

/-- The geometry assumed when none is given: pages of 32 KiB on four channels. -/
def standard : Geometry :=
  ⟨32768, 4⟩

/-- The page that holds an offset. -/
def pageOf (g : Geometry) (offset : UInt64) : UInt64 :=
  offset / g.pageSize

/-- The channel that owns an offset. -/
def channelOf (g : Geometry) (offset : UInt64) : UInt64 :=
  g.pageOf offset % g.channels

/-- The page that holds an offset, unless pages have no size. -/
def pageOf? (g : Geometry) (offset : UInt64) : Except ArithmeticFault UInt64 :=
  if g.pageSize = 0 then .error .pageDivision else .ok (g.pageOf offset)

/-- The channel that owns an offset, unless pages have no size or there is no channel. -/
def channelOf? (g : Geometry) (offset : UInt64) : Except ArithmeticFault UInt64 := do
  let page ← g.pageOf? offset
  if g.channels = 0 then .error .channelRemainder else .ok (page % g.channels)

/-- How many of the offsets each channel owns, channel by channel. -/
def histogram (g : Geometry) (offsets : List UInt64) : List Nat :=
  Buckets.counts g.channels.toNat (fun offset => (g.channelOf offset).toNat) offsets

/-- The histogram, unless the channel of one of the offsets cannot be computed. -/
def histogram? (g : Geometry) (offsets : List UInt64) : Except ArithmeticFault (List Nat) := do
  let _ ← offsets.mapM g.channelOf?
  pure (g.histogram offsets)

/-- On a geometry with pages and channels no division fails. -/
theorem channelOf?_eq {g : Geometry} (hp : g.pageSize ≠ 0) (hc : g.channels ≠ 0)
    (offset : UInt64) : g.channelOf? offset = .ok (g.channelOf offset) := by
  simp only [channelOf?, pageOf?, if_neg hp, if_neg hc, channelOf]
  rfl

/-- The entry of a channel is the number of offsets that it owns. -/
theorem histogram_eq (g : Geometry) (offsets : List UInt64) :
    g.histogram offsets = (List.range g.channels.toNat).map fun channel =>
      offsets.countP fun offset => (g.channelOf offset).toNat == channel :=
  Buckets.counts_eq _ _ _

/-- With at least one channel, the channel of an offset is one of them. -/
theorem channelOf_lt {g : Geometry} (hc : g.channels ≠ 0) (offset : UInt64) :
    (g.channelOf offset).toNat < g.channels.toNat := by
  have : 0 < g.channels.toNat :=
    Nat.pos_of_ne_zero fun h => hc (UInt64.toNat_inj.1 h)
  simpa [channelOf, UInt64.toNat_mod] using Nat.mod_lt _ this

end Geometry

end AccessPattern
