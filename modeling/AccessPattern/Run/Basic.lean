import AccessPattern.Run.Report
import AccessPattern.Settings.CommandLine

/-!
# Runs

A run reads its command line, loads the settings, checks them, prints them and then does one job
per block size. Everything up to the jobs only reads; nothing is written before the whole request
is known to be valid. The jobs can be done in any order, given by a schedule; what is reported
about them stands in the order of the block sizes.
-/

namespace AccessPattern

/-- Why a run ends without having done all it was asked for. -/
inductive RunError where
  | options (fault : OptionsFault)
  | file (error : SettingsFileError)
  | override (error : OverrideError)
  | settings (fault : SettingsFault)
  /-- Some of the jobs failed. -/
  | jobs (failed total : Nat)
deriving DecidableEq, Repr

/-- The wordings of an error and of the causes behind it, outermost first. -/
def RunError.chain : RunError → List String
  | .options fault => [fault.message]
  | .file error => error.chain
  | .override error => error.chain
  | .settings fault => "Configuration validation failed" :: fault.chain
  | .jobs failed total => [s!"{failed} of {total} testsets failed"]

/-- What is seen of a run from outside, its files apart. -/
structure Outcome where
  exitCode : UInt32
  /-- The lines on standard output. -/
  output : List String
  /-- The messages logged. -/
  log : List LogLine
  /-- The lines on standard error after the log. -/
  report : List String
deriving DecidableEq, Repr

namespace Outcome

/-- The text that explains how to use the program. -/
def usage : List String :=
  [s!"Usage: {Report.programName} [OPTIONS]", "",
    "  -s, --size <SIZE>          Extent to cover (e.g., 4G, 256K, 1048576) [default: 4G]",
    "  -b, --block-size <SIZES>   Block size(s), comma-separated [default: 4K]",
    "  -p, --pattern <PATTERN>    Access pattern [default: linear]",
    "      --seed <SEED>          Seed for randomized patterns [env: FTLPATTERN_SEED]",
    "      --page-size <SIZE>     Backend page size (e.g., 32K) [default: 32768]",
    "      --channels <CHANNELS>  Number of backend channels [default: 4]",
    "  -o, --output <PATH>        Testset output path [default: testset.txt]",
    "      --manifest             Write a JSON manifest next to each testset",
    "      --verify               Re-read each written testset and verify full coverage",
    "  -c, --config <PATH>        TOML configuration file",
    "      --dry-run              Validate configuration without generating",
    "      --debug                Enable debug logging",
    "      --list-patterns        List supported access patterns and exit",
    "  -h, --help                 Print help",
    "  -V, --version              Print version"]

/-- What is said of a command line that makes no sense. -/
def complaint : Command.Stop → String
  | .help | .version => ""
  | .unknownWord => "error: unexpected argument found"
  | .missingValue => "error: a value is required for an option but none was supplied"
  | .malformedNumber => "error: invalid value for a numeric option"
  | .repeatedOption => "error: an option cannot be used multiple times"
  | .unwantedValue => "error: unexpected value for an option that takes none"

/-- The outcome of a command line that gives no options. -/
def ofStop : Command.Stop → Outcome
  | .help => ⟨0, usage, [], []⟩
  | .version => ⟨0, [s!"{Report.programName} {Report.version}"], [], []⟩
  | stop => ⟨2, [], [], [complaint stop, ""] ++ usage.take 1⟩

/-- The outcome of a run that succeeds. -/
def success (output : List String) (log : List LogLine) : Outcome :=
  ⟨0, output, log, []⟩

/-- The outcome of a run that ends in an error. -/
def failure (output : List String) (log : List LogLine) (error : RunError) : Outcome :=
  ⟨1, output, log, Report.error error.chain⟩

/-- The outcome without the messages that were not asked for. -/
def filterLog (debug : Bool) (outcome : Outcome) : Outcome :=
  { outcome with log := outcome.log.filter (LogLine.isShown debug) }

end Outcome

/-- The order in which jobs are done, given the plans in the order of the block sizes. -/
abbrev Schedule := List BlockPlan → List BlockPlan

/-- How the job of a block size ended. -/
structure JobResult where
  blockSize : UInt64
  /-- The messages that the job logged. -/
  log : List LogLine
  result : Except JobError JobReport

namespace JobResult

/-- The error of a result, if it is one. -/
def errorOf? : Except JobError JobReport → Option JobError
  | .ok _ => none
  | .error error => some error

/-- The result of a job. -/
def ofJob (job : Job) (result : Except JobError JobReport) : JobResult :=
  ⟨job.plan.blockSize, job.log (errorOf? result), result⟩

/-- Whether the job failed. -/
def isFailure (r : JobResult) : Bool :=
  (errorOf? r.result).isSome

/-- The lines about the testset, if the job succeeded. -/
def output (r : JobResult) : List String :=
  match r.result with
  | .ok report => Report.job report
  | .error _ => []

/-- The message about the failure of the job, if it failed. -/
def failureLog (r : JobResult) : List LogLine :=
  match r.result with
  | .ok _ => []
  | .error error => [⟨.error, String.intercalate ": " error.chain⟩]

end JobResult

namespace Run

variable {m : Type → Type} [Monad m]

/-- The settings that options give, over those of the settings file if there is one. -/
def loadSettings (host : Host m) (o : Options) : ExceptT RunError m Settings := do
  let base ← match o.settingsFile with
    | none => pure Settings.standard
    | some path =>
      let contents ← host.read path
      ExceptT.mk (pure ((Settings.ofFile path contents).mapError .file))
  ExceptT.mk (pure ((o.applyTo base).mapError .override))

/-- The plans of valid settings. -/
def validateSettings (host : Host m) (s : Settings) : ExceptT RunError m (List BlockPlan) := do
  let isDirectory ← host.isDirectory s.output
  ExceptT.mk (pure ((s.validate isDirectory).mapError .settings))

/-- Everything before the jobs: the settings and their plans. -/
def prepare (host : Host m) (o : Options) : ExceptT RunError m (Settings × List BlockPlan) := do
  match o.fault? with
  | some fault => throw (.options fault)
  | none =>
    let s ← loadSettings host o
    let plans ← validateSettings host s
    pure (s, plans)

/-- The seed for a plan: that of the settings, or one drawn for it. -/
def seedFor (host : Host m) (s : Settings) (plan : BlockPlan) : m UInt64 :=
  match s.seed with
  | some seed => pure seed
  | none => host.drawSeed plan.blockSize

/-- Do the job of a plan. -/
def doJob (host : Host m) (s : Settings) (plan : BlockPlan) : m JobResult := do
  let seed ← seedFor host s plan
  let job := Job.ofPlan s seed plan
  let result ← (job.run host).run
  pure (JobResult.ofJob job result)

/-- The results in the order of the plans, each plan having its own block size. -/
def inPlanOrder (plans : List BlockPlan) (results : List JobResult) : List JobResult :=
  plans.filterMap fun plan => results.find? fun r => r.blockSize == plan.blockSize

/-- The outcome of jobs, given the results in the order in which they were done, the output before
them, the warnings, and the milliseconds they took. -/
def conclude (before : List String) (warnings : List LogLine) (plans : List BlockPlan)
    (results : List JobResult) (elapsed : Nat) : Outcome :=
  let ordered := inPlanOrder plans results
  let output := before ++ [""] ++ ordered.flatMap JobResult.output
  let log := warnings ++ results.flatMap JobResult.log ++ ordered.flatMap JobResult.failureLog
  let failed := ordered.countP JobResult.isFailure
  if 0 < failed then .failure output log (.jobs failed plans.length)
  else
    let done := s!"generated {plans.length} testset(s) in {Report.seconds elapsed}"
    .success output (log ++ [⟨.info, done⟩])

/-- The warnings about plans as messages. -/
def warningLog (plans : List BlockPlan) : List LogLine :=
  (Settings.warnings plans).map fun warning => ⟨.warn, warning.message⟩

/-- Do all jobs of valid settings. -/
def generate (host : Host m) (schedule : Schedule) (s : Settings) (plans : List BlockPlan) :
    m Outcome := do
  let before := Report.banner ++ Report.settings s plans
  if s.dryRun then
    pure (.success (before ++ Report.dryRun) (warningLog plans))
  else
    let start ← host.stopwatch
    let results ← (schedule plans).mapM (doJob host s)
    let finish ← host.stopwatch
    pure (conclude before (warningLog plans) plans results (finish - start))

/-- Do what options ask for. -/
def withOptions (host : Host m) (schedule : Schedule) (o : Options) : m Outcome := do
  if o.listPatterns then
    pure (.success Report.strategies [])
  else
    match ← (prepare host o).run with
    | .error error => pure (.failure Report.banner [] error)
    | .ok (s, plans) => generate host schedule s plans

end Run

/-- Do what a command line asks for, with the value that the environment has for the seed. -/
def run {m : Type → Type} [Monad m] (host : Host m) (schedule : Schedule) (words : List String)
    (environmentSeed : Option String) : m Outcome :=
  match Command.options words environmentSeed with
  | .error stop => pure (.ofStop stop)
  | .ok o => do
    let outcome ← Run.withOptions host schedule o
    pure (outcome.filterLog o.debug)

end AccessPattern
