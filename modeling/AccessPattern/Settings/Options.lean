import AccessPattern.Settings.Basic

/-!
# Options over settings

Options are what the command line says. Each option that is given takes the place of the setting
of the same meaning; the switches can only turn things on. Sizes are kept as texts until they are
put over the settings, and the first that is no size is reported together with the option it
belongs to.
-/

namespace AccessPattern

/-- The options of a run. -/
structure Options where
  size : Option String
  /-- The texts of the block sizes; none means that the option was not given. -/
  blockSizes : List String
  pattern : Option String
  seed : Option UInt64
  pageSize : Option String
  channels : Option UInt64
  output : Option String
  manifest : Bool
  verify : Bool
  /-- The path of the settings file. -/
  settingsFile : Option String
  dryRun : Bool
  /-- Whether details of the run are logged. -/
  debug : Bool
  /-- Whether the strategies are to be listed instead of anything else. -/
  listPatterns : Bool
deriving DecidableEq, Repr

/-- Why options are refused before anything else is looked at. -/
inductive OptionsFault where
  | noChannels
  | blankBlockSize
  | emptyOutput
deriving DecidableEq, Repr

/-- The wording of a fault in the options. -/
def OptionsFault.message : OptionsFault → String
  | .noChannels => "channels must be at least 1"
  | .blankBlockSize => "block-size list contains an empty entry"
  | .emptyOutput => "output path must not be empty"

/-- Which option a text that is no size belongs to. -/
inductive SizeOption where
  | size
  | blockSize
  | pageSize
deriving DecidableEq, Repr

/-- What is said of an option whose text is no size. -/
def SizeOption.complaint : SizeOption → String
  | .size => "Invalid size"
  | .blockSize => "Invalid block size"
  | .pageSize => "Invalid page size"

/-- Why options cannot be put over settings. -/
structure OverrideError where
  option : SizeOption
  cause : SizeError
deriving DecidableEq, Repr

/-- The wordings of an error and of the cause behind it. -/
def OverrideError.chain (error : OverrideError) : List String :=
  [error.option.complaint, RequestError.message (.size error.cause)]

namespace Options

/-- No options at all. -/
def none : Options where
  size := .none
  blockSizes := []
  pattern := .none
  seed := .none
  pageSize := .none
  channels := .none
  output := .none
  manifest := false
  verify := false
  settingsFile := .none
  dryRun := false
  debug := false
  listPatterns := false

/-- Whether a text is empty apart from white space. -/
def isBlankText (text : String) : Bool :=
  (Text.trim text.toList).isEmpty

/-- The first thing that is wrong with the options by themselves. -/
def fault? (o : Options) : Option OptionsFault :=
  if o.channels = some 0 then some .noChannels
  else if o.blockSizes.any isBlankText then some .blankBlockSize
  else if o.output = some "" then some .emptyOutput
  else .none

/-- Read the text of an option as a size. -/
def readSize (option : SizeOption) (text : String) : Except OverrideError UInt64 :=
  (Size.parse text).mapError (⟨option, ·⟩)

/-- The size that an option gives, or else the one in force. -/
def sizeOver (option : SizeOption) (text : Option String) (inForce : UInt64) :
    Except OverrideError UInt64 :=
  match text with
  | some text => readSize option text
  | .none => .ok inForce

/-- The block sizes that the options give, or else those in force. -/
def blockSizesOver (texts : List String) (inForce : List UInt64) :
    Except OverrideError (List UInt64) :=
  if texts = [] then .ok inForce else texts.mapM (readSize .blockSize)

/-- Put options over settings. -/
def applyTo (o : Options) (s : Settings) : Except OverrideError Settings := do
  let size ← sizeOver .size o.size s.size
  let blockSizes ← blockSizesOver o.blockSizes s.blockSizes
  let pageSize ← sizeOver .pageSize o.pageSize s.geometry.pageSize
  pure
    { size := size
      blockSizes := blockSizes
      pattern := o.pattern.getD s.pattern
      seed := o.seed.or s.seed
      geometry := ⟨pageSize, o.channels.getD s.geometry.channels⟩
      output := o.output.getD s.output
      manifest := o.manifest || s.manifest
      verify := o.verify || s.verify
      dryRun := o.dryRun || s.dryRun }

end Options

end AccessPattern
