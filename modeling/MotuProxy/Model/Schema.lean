import MotuProxy.Model.Paths
import MotuProxy.Py.Json

/-! # The documented schema and the validation of writes (`schema.py`)

The `warn_unknown` callback is left out: no caller in the proxy passes one.
-/

namespace MotuProxy

open Py Paths

namespace Schema

def DATASTORE_PREFIX : Str := py "/datastore/"

def permissionError (message : Str) : Exn := ⟨.datastorePermissionError, message⟩

def validationError (message : Str) : Exn := ⟨.datastoreValidationError, message⟩

/-! ## The table -/

inductive Permission where
  | r | rw
  deriving DecidableEq, Repr

/-- A bound, and how it is printed. -/
structure Bound where
  value : ℚ
  text : Str
  deriving DecidableEq, Repr

instance : OfNat Bound n := ⟨⟨n, strNat n⟩⟩

instance : Neg Bound := ⟨fun b => ⟨-b.value, 0x2D :: b.text⟩⟩

/-- The `float` 0.01. -/
def hundredth : Bound := ⟨5764607523034235 / 576460752303423488, py "0.01"⟩

example : roundDouble (1 / 100) = .finite hundredth.value := by decide +kernel

/-- A value of an enumeration; the table holds no other numbers than integers. -/
inductive EnumValue where
  | int (n : Int)
  | str (s : Str)
  deriving DecidableEq, Repr

structure PathSchema where
  path : Str
  valueType : Str
  permission : Permission
  minimum : Option Bound := none
  maximum : Option Bound := none
  enumValues : Option (List EnumValue) := none
  deriving DecidableEq, Repr

def PathSchema.segments (entry : PathSchema) : List Str := splitOn 0x2F entry.path

/-- `_parse_enum` of a text. -/
def parseEnum (enumValues : Str) : List EnumValue :=
  (splitOn 0x2C enumValues).map fun item =>
    let value := strip (partition 0x3D item).2.2
    match int10 value with
    | some n => .int n
    | none => .str value

def row (path valueType : String) (permission : Permission) : PathSchema :=
  { path := py path, valueType := py valueType, permission }

def rangeRow (path valueType : String) (permission : Permission) (minimum maximum : Bound) :
    PathSchema :=
  { row path valueType permission with minimum := some minimum, maximum := some maximum }

def enumRow (path valueType : String) (permission : Permission) (enumValues : String) : PathSchema :=
  { row path valueType permission with enumValues := some (parseEnum (py enumValues)) }

/-- `SCHEMA`, from the rows of `RAW_SCHEMA`. -/
def SCHEMA : List PathSchema :=
  [row "uid" "string" .r,
   row "host/os" "string" .rw,
   row "ext/caps/avb" "semver_opt" .r,
   row "ext/caps/router" "semver_opt" .r,
   row "ext/caps/mixer" "semver_opt" .r,
   row "avb/devs" "string_list" .r,
   row "avb/<uid>/entity_model_id_h32" "int" .r,
   row "avb/<uid>/entity_model_id_l32" "int" .r,
   row "avb/<uid>/entity_name" "string" .rw,
   row "avb/<uid>/model_name" "string" .r,
   row "avb/<uid>/hostname" "string_opt" .r,
   row "avb/<uid>/master_clock/capable" "int_bool" .r,
   row "avb/<uid>/master_clock/uid" "string_opt" .rw,
   row "avb/<uid>/vendor_name" "string" .r,
   row "avb/<uid>/firmware_version" "string" .r,
   row "avb/<uid>/serial_number" "string" .r,
   row "avb/<uid>/controller_ignore" "int_bool" .r,
   row "avb/<uid>/acquired_id" "string" .r,
   row "avb/<uid>/motu.mdns.type" "string_opt" .r,
   row "avb/<uid>/apiversion" "semver_opt" .r,
   row "avb/<uid>/url" "string_opt" .r,
   row "avb/<uid>/current_configuration" "int" .rw,
   row "avb/<uid>/cfg/<index>/object_name" "string" .r,
   row "avb/<uid>/cfg/<index>/identify" "int_bool" .rw,
   row "avb/<uid>/cfg/<index>/current_sampling_rate" "int" .rw,
   row "avb/<uid>/cfg/<index>/sample_rates" "int_list" .r,
   row "avb/<uid>/cfg/<index>/clock_source_index" "int" .rw,
   row "avb/<uid>/cfg/<index>/clock_sources/num" "int" .r,
   row "avb/<uid>/cfg/<index>/clock_sources/<index>/object_name" "string" .r,
   row "avb/<uid>/cfg/<index>/clock_sources/<index>/type" "string" .r,
   row "avb/<uid>/cfg/<index>/clock_sources/<index>/stream_id" "int_opt" .r,
   row "avb/<uid>/cfg/<index>/<input_or_output>_streams/num" "int" .r,
   row "avb/<uid>/cfg/<index>/<input_or_output>_streams/<index>/object_name" "string" .r,
   row "avb/<uid>/cfg/<index>/<input_or_output>_streams/<index>/num_ch" "int" .r,
   row "avb/<uid>/cfg/<index>/input_streams/<index>/talker" "string_pair" .rw,
   row "ext/clockLocked" "int_bool" .r,
   row "ext/wordClockMode" "string" .rw,
   row "ext/wordClockThru" "string" .rw,
   row "ext/smuxPerBank" "int_bool" .r,
   row "ext/vlimit/lookahead" "int_bool_opt" .rw,
   row "ext/enableHostVolControls" "int_bool" .rw,
   row "ext/maxUSBToHost" "int" .rw,
   row "ext/<ibank_or_obank>/<index>/name" "string" .r,
   row "ext/<ibank_or_obank>/<index>/maxCh" "int" .r,
   row "ext/<ibank_or_obank>/<index>/numCh" "int" .r,
   row "ext/<ibank_or_obank>/<index>/userCh" "int" .rw,
   row "ext/<ibank_or_obank>/<index>/calcCh" "int" .r,
   row "ext/<ibank_or_obank>/<index>/smux" "string" .rw,
   row "ext/ibank/<index>/madiClock" "string" .r,
   row "ext/obank/<index>/madiClock" "string" .rw,
   row "ext/ibank/<index>/madiFormat" "int" .r,
   row "ext/obank/<index>/madiFormat" "int" .rw,
   row "ext/<ibank_or_obank>/<index>/ch/<index>/name" "string" .rw,
   row "ext/obank/<index>/ch/<index>/src" "int_pair_opt" .rw,
   row "ext/<ibank_or_obank>/<index>/ch/<index>/phase" "int_bool_opt" .rw,
   row "ext/<ibank_or_obank>/<index>/ch/<index>/pad" "int_bool_opt" .rw,
   row "ext/ibank/<index>/ch/<index>/48V" "int_bool_opt" .rw,
   row "ext/ibank/<index>/ch/<index>/vlLimit" "int_bool_opt" .rw,
   row "ext/ibank/<index>/ch/<index>/vlClip" "int_bool_opt" .rw,
   row "ext/<ibank_or_obank>/<index>/ch/<index>/trim" "int_opt" .rw,
   row "ext/<ibank_or_obank>/<index>/ch/<index>/trimRange" "int_pair_opt" .rw,
   row "ext/<ibank_or_obank>/<index>/ch/<index>/stereoTrim" "int_opt" .rw,
   row "ext/<ibank_or_obank>/<index>/ch/<index>/stereoTrimRange" "int_pair_opt" .rw,
   row "ext/<ibank_or_obank>/<index>/ch/<index>/connection" "int_bool_opt" .r,
   row "mix/ctrls/dsp/usage" "int" .r,
   row "mix/ctrls/<effect_resource>/avail" "int_bool_opt" .r,
   rangeRow "mix/chan/<index>/matrix/aux/<index>/send" "real" .rw 0 4,
   rangeRow "mix/chan/<index>/matrix/group/<index>/send" "real" .rw 0 4,
   rangeRow "mix/chan/<index>/matrix/reverb/<index>/send" "real" .rw 0 4,
   rangeRow "mix/chan/<index>/matrix/aux/<index>/pan" "real" .rw (-1) 1,
   rangeRow "mix/chan/<index>/matrix/group/<index>/pan" "real" .rw (-1) 1,
   rangeRow "mix/chan/<index>/matrix/reverb/<index>/pan" "real" .rw (-1) 1,
   row "mix/chan/<index>/hpf/enable" "real_bool" .rw,
   rangeRow "mix/chan/<index>/hpf/freq" "int" .rw 20 20000,
   row "mix/chan/<index>/eq/highshelf/enable" "real_bool" .rw,
   rangeRow "mix/chan/<index>/eq/highshelf/freq" "int" .rw 20 20000,
   rangeRow "mix/chan/<index>/eq/highshelf/gain" "real" .rw (-20) 20,
   rangeRow "mix/chan/<index>/eq/highshelf/bw" "real" .rw hundredth 3,
   enumRow "mix/chan/<index>/eq/highshelf/mode" "real_enum" .rw "Shelf=0,Para=1",
   row "mix/chan/<index>/eq/mid1/enable" "real_bool" .rw,
   rangeRow "mix/chan/<index>/eq/mid1/freq" "int" .rw 20 20000,
   rangeRow "mix/chan/<index>/eq/mid1/gain" "real" .rw (-20) 20,
   rangeRow "mix/chan/<index>/eq/mid1/bw" "real" .rw hundredth 3,
   row "mix/chan/<index>/eq/mid2/enable" "real_bool" .rw,
   rangeRow "mix/chan/<index>/eq/mid2/freq" "int" .rw 20 20000,
   rangeRow "mix/chan/<index>/eq/mid2/gain" "real" .rw (-20) 20,
   rangeRow "mix/chan/<index>/eq/mid2/bw" "real" .rw hundredth 3,
   row "mix/chan/<index>/eq/lowshelf/enable" "real_bool" .rw,
   rangeRow "mix/chan/<index>/eq/lowshelf/freq" "int" .rw 20 20000,
   rangeRow "mix/chan/<index>/eq/lowshelf/gain" "real" .rw (-20) 20,
   rangeRow "mix/chan/<index>/eq/lowshelf/bw" "real" .rw hundredth 3,
   enumRow "mix/chan/<index>/eq/lowshelf/mode" "real_enum" .rw "Shelf=0,Para=1",
   row "mix/chan/<index>/gate/enable" "real_bool" .rw,
   rangeRow "mix/chan/<index>/gate/release" "real" .rw 50 2000,
   rangeRow "mix/chan/<index>/gate/threshold" "real" .rw 0 1,
   rangeRow "mix/chan/<index>/gate/attack" "real" .rw 10 500,
   row "mix/chan/<index>/comp/enable" "real_bool" .rw,
   rangeRow "mix/chan/<index>/comp/release" "real" .rw 10 2000,
   rangeRow "mix/chan/<index>/comp/threshold" "real" .rw (-40) 0,
   rangeRow "mix/chan/<index>/comp/ratio" "real" .rw 1 10,
   rangeRow "mix/chan/<index>/comp/attack" "real" .rw 10 100,
   rangeRow "mix/chan/<index>/comp/trim" "real" .rw (-20) 20,
   enumRow "mix/chan/<index>/comp/peak" "real_enum" .rw "RMS=0,Peak=1",
   row "mix/chan/<index>/matrix/enable" "real_bool" .rw,
   row "mix/chan/<index>/matrix/solo" "real_bool" .rw,
   row "mix/chan/<index>/matrix/mute" "real_bool" .rw,
   rangeRow "mix/chan/<index>/matrix/pan" "real" .rw (-1) 1,
   rangeRow "mix/chan/<index>/matrix/fader" "real" .rw 0 4,
   row "mix/main/<index>/eq/highshelf/enable" "real_bool" .rw,
   rangeRow "mix/main/<index>/eq/highshelf/freq" "int" .rw 20 20000,
   rangeRow "mix/main/<index>/eq/highshelf/gain" "real" .rw (-20) 20,
   rangeRow "mix/main/<index>/eq/highshelf/bw" "real" .rw hundredth 3,
   enumRow "mix/main/<index>/eq/highshelf/mode" "real_enum" .rw "Shelf=0,Para=1",
   row "mix/main/<index>/eq/mid1/enable" "real_bool" .rw,
   rangeRow "mix/main/<index>/eq/mid1/freq" "int" .rw 20 20000,
   rangeRow "mix/main/<index>/eq/mid1/gain" "real" .rw (-20) 20,
   rangeRow "mix/main/<index>/eq/mid1/bw" "real" .rw hundredth 3,
   row "mix/main/<index>/eq/mid2/enable" "real_bool" .rw,
   rangeRow "mix/main/<index>/eq/mid2/freq" "int" .rw 20 20000,
   rangeRow "mix/main/<index>/eq/mid2/gain" "real" .rw (-20) 20,
   rangeRow "mix/main/<index>/eq/mid2/bw" "real" .rw hundredth 3,
   row "mix/main/<index>/eq/lowshelf/enable" "real_bool" .rw,
   rangeRow "mix/main/<index>/eq/lowshelf/freq" "int" .rw 20 20000,
   rangeRow "mix/main/<index>/eq/lowshelf/gain" "real" .rw (-20) 20,
   rangeRow "mix/main/<index>/eq/lowshelf/bw" "real" .rw hundredth 3,
   enumRow "mix/main/<index>/eq/lowshelf/mode" "real_enum" .rw "Shelf=0,Para=1",
   row "mix/main/<index>/leveler/enable" "real_bool" .rw,
   rangeRow "mix/main/<index>/leveler/makeup" "real" .rw 0 100,
   rangeRow "mix/main/<index>/leveler/reduction" "real" .rw 0 100,
   row "mix/main/<index>/leveler/limit" "real_bool" .rw,
   row "mix/main/<index>/matrix/enable" "real_bool" .rw,
   row "mix/main/<index>/matrix/mute" "real_bool" .rw,
   rangeRow "mix/main/<index>/matrix/fader" "real" .rw 0 4,
   row "mix/aux/<index>/eq/highshelf/enable" "real_bool" .rw,
   rangeRow "mix/aux/<index>/eq/highshelf/freq" "int" .rw 20 20000,
   rangeRow "mix/aux/<index>/eq/highshelf/gain" "real" .rw (-20) 20,
   rangeRow "mix/aux/<index>/eq/highshelf/bw" "real" .rw hundredth 3,
   enumRow "mix/aux/<index>/eq/highshelf/mode" "real_enum" .rw "Shelf=0,Para=1",
   row "mix/aux/<index>/eq/mid1/enable" "real_bool" .rw,
   rangeRow "mix/aux/<index>/eq/mid1/freq" "int" .rw 20 20000,
   rangeRow "mix/aux/<index>/eq/mid1/gain" "real" .rw (-20) 20,
   rangeRow "mix/aux/<index>/eq/mid1/bw" "real" .rw hundredth 3,
   row "mix/aux/<index>/eq/mid2/enable" "real_bool" .rw,
   rangeRow "mix/aux/<index>/eq/mid2/freq" "int" .rw 20 20000,
   rangeRow "mix/aux/<index>/eq/mid2/gain" "real" .rw (-20) 20,
   rangeRow "mix/aux/<index>/eq/mid2/bw" "real" .rw hundredth 3,
   row "mix/aux/<index>/eq/lowshelf/enable" "real_bool" .rw,
   rangeRow "mix/aux/<index>/eq/lowshelf/freq" "int" .rw 20 20000,
   rangeRow "mix/aux/<index>/eq/lowshelf/gain" "real" .rw (-20) 20,
   rangeRow "mix/aux/<index>/eq/lowshelf/bw" "real" .rw hundredth 3,
   enumRow "mix/aux/<index>/eq/lowshelf/mode" "real_enum" .rw "Shelf=0,Para=1",
   row "mix/aux/<index>/matrix/enable" "real_bool" .rw,
   row "mix/aux/<index>/matrix/prefader" "real_bool" .rw,
   row "mix/aux/<index>/matrix/panner" "real_bool" .rw,
   row "mix/aux/<index>/matrix/mute" "real_bool" .rw,
   rangeRow "mix/aux/<index>/matrix/fader" "real" .rw 0 4,
   rangeRow "mix/group/<index>/matrix/aux/<index>/send" "real" .rw 0 4,
   rangeRow "mix/group/<index>/matrix/reverb/<index>/send" "real" .rw 0 4,
   row "mix/group/<index>/eq/highshelf/enable" "real_bool" .rw,
   rangeRow "mix/group/<index>/eq/highshelf/freq" "int" .rw 20 20000,
   rangeRow "mix/group/<index>/eq/highshelf/gain" "real" .rw (-20) 20,
   rangeRow "mix/group/<index>/eq/highshelf/bw" "real" .rw hundredth 3,
   enumRow "mix/group/<index>/eq/highshelf/mode" "real_enum" .rw "Shelf=0,Para=1",
   row "mix/group/<index>/eq/mid1/enable" "real_bool" .rw,
   rangeRow "mix/group/<index>/eq/mid1/freq" "int" .rw 20 20000,
   rangeRow "mix/group/<index>/eq/mid1/gain" "real" .rw (-20) 20,
   rangeRow "mix/group/<index>/eq/mid1/bw" "real" .rw hundredth 3,
   row "mix/group/<index>/eq/mid2/enable" "real_bool" .rw,
   rangeRow "mix/group/<index>/eq/mid2/freq" "int" .rw 20 20000,
   rangeRow "mix/group/<index>/eq/mid2/gain" "real" .rw (-20) 20,
   rangeRow "mix/group/<index>/eq/mid2/bw" "real" .rw hundredth 3,
   row "mix/group/<index>/eq/lowshelf/enable" "real_bool" .rw,
   rangeRow "mix/group/<index>/eq/lowshelf/freq" "int" .rw 20 20000,
   rangeRow "mix/group/<index>/eq/lowshelf/gain" "real" .rw (-20) 20,
   rangeRow "mix/group/<index>/eq/lowshelf/bw" "real" .rw hundredth 3,
   enumRow "mix/group/<index>/eq/lowshelf/mode" "real_enum" .rw "Shelf=0,Para=1",
   row "mix/group/<index>/leveler/enable" "real_bool" .rw,
   rangeRow "mix/group/<index>/leveler/makeup" "real" .rw 0 100,
   rangeRow "mix/group/<index>/leveler/reduction" "real" .rw 0 100,
   row "mix/group/<index>/leveler/limit" "real_bool" .rw,
   row "mix/group/<index>/matrix/enable" "real_bool" .rw,
   row "mix/group/<index>/matrix/solo" "real_bool" .rw,
   row "mix/group/<index>/matrix/prefader" "real_bool" .rw,
   row "mix/group/<index>/matrix/panner" "real_bool" .rw,
   row "mix/group/<index>/matrix/mute" "real_bool" .rw,
   rangeRow "mix/group/<index>/matrix/fader" "real" .rw 0 4,
   rangeRow "mix/reverb/<index>/matrix/aux/<index>/send" "real" .rw 0 4,
   rangeRow "mix/reverb/<index>/matrix/reverb/<index>/send" "real" .rw 0 4,
   row "mix/reverb/<index>/eq/highshelf/enable" "real_bool" .rw,
   rangeRow "mix/reverb/<index>/eq/highshelf/freq" "int" .rw 20 20000,
   rangeRow "mix/reverb/<index>/eq/highshelf/gain" "real" .rw (-20) 20,
   rangeRow "mix/reverb/<index>/eq/highshelf/bw" "real" .rw hundredth 3,
   enumRow "mix/reverb/<index>/eq/highshelf/mode" "real_enum" .rw "Shelf=0,Para=1",
   row "mix/reverb/<index>/eq/mid1/enable" "real_bool" .rw,
   rangeRow "mix/reverb/<index>/eq/mid1/freq" "int" .rw 20 20000,
   rangeRow "mix/reverb/<index>/eq/mid1/gain" "real" .rw (-20) 20,
   rangeRow "mix/reverb/<index>/eq/mid1/bw" "real" .rw hundredth 3,
   row "mix/reverb/<index>/eq/mid2/enable" "real_bool" .rw,
   rangeRow "mix/reverb/<index>/eq/mid2/freq" "int" .rw 20 20000,
   rangeRow "mix/reverb/<index>/eq/mid2/gain" "real" .rw (-20) 20,
   rangeRow "mix/reverb/<index>/eq/mid2/bw" "real" .rw hundredth 3,
   row "mix/reverb/<index>/eq/lowshelf/enable" "real_bool" .rw,
   rangeRow "mix/reverb/<index>/eq/lowshelf/freq" "int" .rw 20 20000,
   rangeRow "mix/reverb/<index>/eq/lowshelf/gain" "real" .rw (-20) 20,
   rangeRow "mix/reverb/<index>/eq/lowshelf/bw" "real" .rw hundredth 3,
   enumRow "mix/reverb/<index>/eq/lowshelf/mode" "real_enum" .rw "Shelf=0,Para=1",
   row "mix/reverb/<index>/leveler/enable" "real_bool" .rw,
   rangeRow "mix/reverb/<index>/leveler/makeup" "real" .rw 0 100,
   rangeRow "mix/reverb/<index>/leveler/reduction" "real" .rw 0 100,
   row "mix/reverb/<index>/leveler/limit" "real_bool" .rw,
   row "mix/reverb/<index>/matrix/enable" "real_bool" .rw,
   row "mix/reverb/<index>/matrix/solo" "real_bool" .rw,
   row "mix/reverb/<index>/matrix/prefader" "real_bool" .rw,
   row "mix/reverb/<index>/matrix/panner" "real_bool" .rw,
   row "mix/reverb/<index>/matrix/mute" "real_bool" .rw,
   rangeRow "mix/reverb/<index>/matrix/fader" "real" .rw 0 4,
   row "mix/reverb/<index>/reverb/enable" "real_bool" .rw,
   rangeRow "mix/reverb/<index>/reverb/reverbtime" "int" .rw 100 60000,
   rangeRow "mix/reverb/<index>/reverb/hf" "int" .rw 500 15000,
   rangeRow "mix/reverb/<index>/reverb/mf" "int" .rw 500 15000,
   rangeRow "mix/reverb/<index>/reverb/predelay" "int" .rw 0 500,
   rangeRow "mix/reverb/<index>/reverb/mfratio" "int" .rw 1 100,
   rangeRow "mix/reverb/<index>/reverb/hfratio" "int" .rw 1 100,
   rangeRow "mix/reverb/<index>/reverb/tailspread" "int" .rw (-100) 100,
   rangeRow "mix/reverb/<index>/reverb/mod" "int" .rw 0 100,
   row "mix/monitor/<index>/matrix/enable" "real_bool" .rw,
   row "mix/monitor/<index>/matrix/mute" "real_bool" .rw,
   rangeRow "mix/monitor/<index>/matrix/fader" "real" .rw 0 4,
   rangeRow "mix/monitor/<index>/assign" "int" .rw (-2) 4096,
   rangeRow "mix/monitor/<index>/override" "int" .rw (-1) 4096,
   row "mix/monitor/<index>/auto" "real_bool" .rw]

/-! ## Looking up a path -/

def isPlaceholderChar (c : Nat) : Bool := isAsciiAlpha c || isAsciiDigit c || c == 0x5F

/-- `SEGMENT_PLACEHOLDER_RE.search`: the text before the first placeholder, its name, the text after
it. -/
def searchPlaceholder : Str → Option (Str × Str × Str)
  | [] => none
  | c :: s =>
    let (name, rest) := s.span isPlaceholderChar
    match c, rest with
    | 0x3C, 0x3E :: suffix =>
      if name.isEmpty then skip c (searchPlaceholder s) else some ([], name, suffix)
    | c, _ => skip c (searchPlaceholder s)
where
  skip (c : Nat) : Option (Str × Str × Str) → Option (Str × Str × Str)
    | some (before, name, suffix) => some (c :: before, name, suffix)
    | none => none

/-- `PLACEHOLDER_VALUES`. -/
def placeholderValues : List (Str × List Str) :=
  [(py "ibank_or_obank", [py "ibank", py "obank"]), (py "input_or_output", [py "input", py "output"])]

/-- `UID_RE.fullmatch`. -/
def isUid (s : Str) : Bool := s.length = 16 && s.all isHexDigit

def placeholderValueMatches (name requestedSegment : Str) : Bool :=
  if name = py "index" then isDecimal requestedSegment
  else if name = py "uid" then isUid requestedSegment
  else match placeholderValues.lookup name with
    | some allowed => requestedSegment ∈ allowed
    | none => !requestedSegment.isEmpty

def placeholderMatches (patternSegment requestedSegment : Str) : Bool :=
  match searchPlaceholder patternSegment with
  | none => false
  | some (before, name, suffix) =>
    before.isPrefixOf requestedSegment && suffix.isSuffixOf requestedSegment &&
      placeholderValueMatches name
        ((requestedSegment.take (requestedSegment.length - suffix.length)).drop before.length)

/-- `_match_score`: the numbers of exact and of placeholder segments. -/
def matchScore : List Str → List Str → Option (Nat × Nat)
  | [], [] => some (0, 0)
  | p :: pattern, r :: requested =>
    if p = r then (matchScore pattern requested).map fun (exact, placeholders) =>
      (exact + 1, placeholders)
    else if placeholderMatches p r then (matchScore pattern requested).map
      fun (exact, placeholders) => (exact, placeholders + 1)
    else none
  | _, _ => none

/-- The order of the scores `(exact, -placeholders)`. -/
def scoreLt (a b : Nat × Nat) : Bool := a.1 < b.1 || (a.1 == b.1 && b.2 < a.2)

/-- The loop of `find_path_schema`. -/
def bestMatch (requested : List Str) :
    List PathSchema → Option ((Nat × Nat) × PathSchema) → Option ((Nat × Nat) × PathSchema)
  | [], best => best
  | entry :: entries, best =>
    match matchScore entry.segments requested with
    | none => bestMatch requested entries best
    | some score =>
      bestMatch requested entries <| match best with
        | none => some (score, entry)
        | some (bestScore, bestEntry) =>
          if scoreLt bestScore score then some (score, entry) else some (bestScore, bestEntry)

/-- `_relative_datastore_path`. -/
def relativeDatastorePath (path : Str) : Except Exn (Option Str) :=
  (normalizePath path).map fun normalized =>
    if normalized = py "/datastore" then some []
    else if !DATASTORE_PREFIX.isPrefixOf normalized then none
    else some (normalized.drop DATASTORE_PREFIX.length)

/-- `SCHEMA_BY_SEGMENT_COUNT.get(count, ())`. -/
def schemaBySegmentCount (count : Nat) : List PathSchema :=
  SCHEMA.filter fun entry => entry.segments.length = count

/-- The segments that are looked up: empty ones are dropped. -/
def requestedSegments (relative : Str) : List Str :=
  (splitOn 0x2F relative).filter fun segment => !segment.isEmpty

def findEntry (requested : List Str) : Option PathSchema :=
  (bestMatch requested (schemaBySegmentCount requested.length) none).map (·.2)

def findPathSchema (path : Str) : Except Exn (Option PathSchema) :=
  (relativeDatastorePath path).map fun
    | none => none
    | some relative => findEntry (requestedSegments relative)

/-! ## Checking a value -/

/-- `_split_type`. -/
def splitType (valueType : Str) : Str × List Str :=
  match splitOn 0x5F valueType with
  | base :: modifiers => (base, modifiers)
  | [] => ([], [])

/-- `SEMVER_RE.fullmatch`. -/
def isSemver (s : Str) : Bool :=
  let (major, dot₁, rest) := partition 0x2E s
  let (minor, dot₂, rest) := partition 0x2E rest
  let (patch, suffix) := rest.span fun c => (decimalValue c).isSome
  dot₁ && dot₂ && isDecimal major && isDecimal minor && isDecimal patch &&
    match suffix with
    | [] => true
    | c :: tail => (c == 0x2D || c == 0x2B) && !tail.isEmpty &&
        tail.all fun c => isAsciiDigit c || isAsciiAlpha c || c == 0x2E || c == 0x2D

def intTooLarge : Exn := ⟨.overflowError, py "int too large to convert to float"⟩

/-- `math.isfinite` of a number. -/
def isFinite : Json → Except Exn Bool
  | .int n => match roundDouble n with
    | .finite _ => .ok true
    | .inf _ => .error intTooLarge
  | .float (.inf _) => .ok false
  | _ => .ok true

/-- A check that raises. -/
def require (c : Bool) (exc : Exn) : Except Exn Unit := if c then .ok () else .error exc

def isStr : Json → Bool
  | .str _ => true
  | _ => false

/-- `isinstance(value, int)` and not a `bool`. -/
def isInt : Json → Bool
  | .int _ => true
  | _ => false

/-- `isinstance(value, Real)` and not a `bool`. -/
def isReal : Json → Bool
  | .int _ | .float _ => true
  | _ => false

/-- `isinstance(value, str)` and `SEMVER_RE.fullmatch(value)`. -/
def isSemverStr : Json → Bool
  | .str s => isSemver s
  | _ => false

def validateScalar (path : Str) (value : Json) (baseType : Str) : Except Exn Unit :=
  if baseType = py "string" then
    require (isStr value) (validationError (path ++ py " must be a string"))
  else if baseType = py "semver" then
    require (isSemverStr value)
      (validationError (path ++ py " must be a semver string"))
  else if baseType = py "int" then
    require (isInt value) (validationError (path ++ py " must be an integer"))
  else if baseType = py "real" then do
    require (isReal value) (validationError (path ++ py " must be a number"))
    require (← isFinite value) (validationError (path ++ py " must be a finite number"))
  else .error (validationError (path ++ py " uses unsupported datastore type '" ++ baseType ++ py "'"))

/-- A part of a string, as the value that it is checked as. -/
def parsePart (path baseType part : Str) : Except Exn Json :=
  if baseType = py "int" then
    match int10 part with
    | some n => .ok (.int n)
    | none => .error (validationError (path ++ py " contains a non-integer list value"))
  else .ok (.str part)

/-- The loop of `_validate_string_parts`. -/
def validateParts (path baseType : Str) : List Str → Except Exn Unit
  | [] => .ok ()
  | part :: parts => do
    validateScalar path (← parsePart path baseType part) baseType
    validateParts path baseType parts

def validateStringParts (path valueType : Str) (value : Json) (baseType : Str) (minParts : Nat)
    (maxParts : Option Nat) : Except Exn Unit :=
  match value with
  | .str text => do
    let parts := if text = [] then [] else splitOn 0x3A text
    require (minParts ≤ parts.length ∧ ∀ n ∈ maxParts, parts.length ≤ n)
      (validationError (path ++ py " must contain " ++ strNat minParts ++
        py " colon-separated values"))
    validateParts path baseType parts
  | _ => .error (validationError (path ++ py " must be a colon-separated " ++ valueType ++
      py " string"))

/-- `value == n` for an integer `n`; a `bool` is a number here. -/
def eqInt : Json → Int → Bool
  | .int m, n => m = n
  | .float (.finite q), n => q = n
  | .bool b, n => (if b then 1 else 0) = n
  | _, _ => false

def eqEnumValue (value : Json) : EnumValue → Bool
  | .int n => eqInt value n
  | .str s => match value with
    | .str t => t = s
    | _ => false

def EnumValue.text : EnumValue → Str
  | .int n => strInt n
  | .str s => s

/-- `", ".join(str(item) for item in items)`. -/
def joinValues (items : List EnumValue) : Str :=
  (items.map EnumValue.text).intersperse (py ", ") |>.flatten

/-- `value < bound`, for a number. -/
def ltBound : Json → ℚ → Bool
  | .int n, q => n < q
  | .float (.finite x), q => x < q
  | .float (.inf negative), _ => negative
  | .bool b, q => (if b then 1 else 0) < q
  | _, _ => false

/-- `value > bound`, for a number. -/
def gtBound : Json → ℚ → Bool
  | .int n, q => q < n
  | .float (.finite x), q => q < x
  | .float (.inf negative), _ => !negative
  | .bool b, q => q < (if b then 1 else 0)
  | _, _ => false

def checkEnum (path : Str) (entry : PathSchema) (modifiers : List Str) (value : Json) :
    Except Exn Unit :=
  match entry.enumValues with
  | none => .ok ()
  | some values => require (py "enum" ∉ modifiers ∨ values.any (eqEnumValue value))
      (validationError (path ++ py " must be one of: " ++ joinValues values))

def checkMinimum (path : Str) (value : Json) : Option Bound → Except Exn Unit
  | none => .ok ()
  | some bound => require (!ltBound value bound.value)
      (validationError (path ++ py " must be >= " ++ bound.text))

def checkMaximum (path : Str) (value : Json) : Option Bound → Except Exn Unit
  | none => .ok ()
  | some bound => require (!gtBound value bound.value)
      (validationError (path ++ py " must be <= " ++ bound.text))

/-- `isinstance(value, Real)`. -/
def isRealOrBool : Json → Bool
  | .int _ | .float _ | .bool _ => true
  | _ => false

/-- The comparison with the bounds, after an `assert`. -/
def checkRange (path : Str) (entry : PathSchema) (value : Json) : Except Exn Unit :=
  if entry.minimum.isSome ∨ entry.maximum.isSome then do
    require (isRealOrBool value) ⟨.assertionError, []⟩
    checkMinimum path value entry.minimum
    checkMaximum path value entry.maximum
  else .ok ()

def isNull : Json → Bool
  | .null => true
  | _ => false

def validateValue (path : Str) (entry : PathSchema) (value : Json) : Except Exn Unit :=
  let (baseType, modifiers) := splitType entry.valueType
  if py "opt" ∈ modifiers ∧ isNull value then .ok ()
  else if py "list" ∈ modifiers then validateStringParts path entry.valueType value baseType 0 none
  else if py "pair" ∈ modifiers then
    validateStringParts path entry.valueType value baseType 2 (some 2)
  else do
    validateScalar path value baseType
    checkEnum path entry modifiers value
    require (py "bool" ∉ modifiers ∨ eqInt value 0 ∨ eqInt value 1)
      (validationError (path ++ py " must be 0 or 1"))
    checkRange path entry value

/-! ## Checking a write -/

/-- The path that a member is checked under (`_iter_write_values`). -/
def writeTarget (base key : Str) : Except Exn Str :=
  if key = py "value" then .ok base
  else if (py "/").isPrefixOf key then normalizePath key
  else if base = py "/datastore" then normalizePath key
  else normalizePath (base ++ 0x2F :: key)

def notInSchema (path : Str) : Exn :=
  validationError (path ++ py " is not in the known writable schema")

/-- One round of the loop of `validate_datastore_write_object`. -/
def validateMember (base : Str) (allowUnknown : Bool) (key : Str) (value : Json) :
    Except Exn Unit := do
  let target ← writeTarget base key
  match ← findPathSchema target with
  | none =>
    let known ← if allowUnknown then relativeDatastorePath target else .ok none
    require known.isSome (notInSchema target)
  | some entry =>
    require (entry.permission = .rw) (permissionError (target ++ py " is read-only"))
    validateValue target entry value

def validateMembers (base : Str) (allowUnknown : Bool) : List (Str × Json) → Except Exn Unit
  | [] => .ok ()
  | (key, value) :: members => do
    validateMember base allowUnknown key value
    validateMembers base allowUnknown members

/-- `normalize_path(base_path).rstrip("/")`. -/
def writeBase (path : Str) : Except Exn Str := (normalizePath path).map (rstripBy (· = 0x2F))

/-- `validate_datastore_write_object`, on the items of the body. -/
def validateDatastoreWriteObject (path : Str) (body : List (Str × Json)) (allowUnknown : Bool) :
    Except Exn Unit := do
  match ← relativeDatastorePath path with
  | none => throw (notInSchema (← normalizePath path))
  | some _ => validateMembers (← writeBase path) allowUnknown body

end Schema

end MotuProxy
