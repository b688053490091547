import AccessPattern.Run.Job
import AccessPattern.Settings.File
import AccessPattern.Settings.Options
import AccessPattern.Settings.Validation

/-!
# What a run prints

The texts of a run: the banner, the settings in force, a paragraph for each testset that was
written, and the report of the error that ended the run.
-/

namespace AccessPattern.Report

/-- The name of the program. -/
def programName : String := "ftlpattern"

/-- The version of the program. -/
def version : String := "0.1.0"

/-- The lines that open a run. -/
def banner : List String :=
  [s!"{programName} v{version}", "Access pattern generator for multi-channel FTL benchmarks", ""]

/-- The names of all strategies. -/
def strategies : List String :=
  Strategy.all.map Strategy.name

/-- The line about one plan; how many blocks make a page matters to striped strategies only. -/
def planLine (plan : BlockPlan) : String :=
  let size := Size.format plan.blockSize
  if plan.strategy.isStriped then
    s!"  {size} -> {plan.blockCount} offsets, {plan.blocksPerPage} blocks/page"
  else s!"  {size} -> {plan.blockCount} offsets"

/-- The seed in force, or where seeds come from. -/
def seedText : Option UInt64 → String
  | some seed => toString seed
  | none => "entropy"

/-- A line that stands only if something is turned on. -/
def lineIf (on : Bool) (line : String) : List String :=
  if on then [line] else []

/-- The lines about the settings in force and their plans. -/
def settings (s : Settings) (plans : List BlockPlan) : List String :=
  let sizes := String.intercalate ", " (s.blockSizes.map Size.format)
  ["Configuration:",
    s!"  Pattern: {s.pattern}",
    s!"  Extent: {Size.format s.size} ({s.size} bytes)",
    s!"  Block sizes: {sizes}",
    s!"  Page size: {s.geometry.pageSize} bytes",
    s!"  Channels: {s.geometry.channels}",
    s!"  Seed: {seedText s.seed}",
    s!"  Output: {s.output}"] ++
  lineIf s.manifest "  Manifest: enabled" ++
  lineIf s.verify "  Verify: enabled" ++
  plans.map planLine

/-- The lines that end a dry run. -/
def dryRun : List String :=
  ["", "Dry run mode - configuration validated successfully"]

/-- A time in seconds with three decimals, given in milliseconds. -/
def seconds (milliseconds : Nat) : String :=
  let fraction := toString (1000 + milliseconds % 1000)
  s!"{milliseconds / 1000}." ++ (fraction.drop 1).toString ++ "s"

/-- The counts of all channels. -/
def channelText (channelBlocks : List UInt64) : String :=
  String.intercalate " "
    (channelBlocks.zipIdx.map fun (count, channel) => s!"ch{channel}={count}")

/-- The lines about a testset that was written. -/
def job (r : JobReport) : List String :=
  let size := Size.format r.blockSize
  [s!"Wrote {r.path} ({r.blockCount} offsets, block size {size}) in {seconds r.elapsed}"] ++
  (r.seed.map fun seed => s!"  Seed: {seed}").toList ++
  [s!"  Channel blocks: {channelText r.channelBlocks}"]

/-- Lines that follow a heading on its first line and are indented like it. -/
def hanging (heading indent : String) (text : String) : List String :=
  match text.splitOn "\n" with
  | [] => [heading]
  | first :: later => (heading ++ first) :: later.map (indent ++ ·)

/-- The lines about the causes behind an error; several are numbered from zero. -/
def causes : List String → List String
  | [] => []
  | [cause] => ["", "Caused by:"] ++ hanging "    " "    " cause
  | several =>
    ["", "Caused by:"] ++
      several.zipIdx.flatMap fun (cause, number) =>
        let label := String.ofList (List.replicate (5 - (toString number).length) ' ')
        hanging s!"{label}{number}: " "       " cause

/-- The lines that report the wordings of an error and of the causes behind it. -/
def error : List String → List String
  | [] => []
  | outermost :: behind => hanging "Error: " "" outermost ++ causes behind

end AccessPattern.Report
