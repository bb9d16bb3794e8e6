import Mathlib.Data.List.Sort
import MotuProxy.Model.Exn
import MotuProxy.Py.Codec

/-! # The discovery of the device (`device.py`)

A snapshot of sysfs is a list of directories with the attribute files that the discovery reads. An
attribute file is missing, or may not be read, or holds some bytes. An entry of an interface's directory
that is named like an endpoint is a directory.
-/

namespace MotuProxy

open Py

namespace Device

def DEFAULT_MAX_USB_CHUNK : Int := 512

/-! ## A snapshot of sysfs -/

inductive Attr where
  | missing
  | unreadable
  | content (data : Bytes)
  deriving DecidableEq, Repr

/-- What a directory holds, in the order in which the operating system lists it. -/
inductive Listing (α : Type) where
  | missing
  | unreadable
  | entries (items : List α)
  deriving DecidableEq, Repr

/-- An entry of an interface's directory. -/
structure Entry where
  name : Str
  type : Attr := .missing
  wMaxPacketSize : Attr := .missing
  deriving DecidableEq, Repr

/-- A directory of `/sys/bus/usb/devices`, of a device or of an interface. -/
structure SysfsDir where
  name : Str
  idVendor : Attr := .missing
  idProduct : Attr := .missing
  serial : Attr := .missing
  product : Attr := .missing
  busnum : Attr := .missing
  devnum : Attr := .missing
  bInterfaceClass : Attr := .missing
  bInterfaceNumber : Attr := .missing
  /-- Whether there is a `driver`. -/
  driver : Bool := false
  entries : Listing Entry := .entries []
  deriving DecidableEq, Repr

/-! ## Reading -/

def fileNotFound : Exn := ⟨.osError 2, py "[Errno 2] No such file or directory"⟩

def permissionDenied : Exn := ⟨.osError 13, py "[Errno 13] Permission denied"⟩

def invalidLiteral : Exn := ⟨.valueError, py "invalid literal for int()"⟩

/-- `except (FileNotFoundError, PermissionError, ValueError)`. -/
def isUnavailable (e : Exn) : Bool := e.kind = .osError 2 || e.kind = .osError 13 || e.kind = .valueError

/-- `data.decode("ascii", errors="replace")`. -/
def asciiDecodeReplace (data : Bytes) : Str :=
  data.map fun b => if b < 0x80 then b.toNat else 0xFFFD

/-- The newlines of a file that is read as text. -/
def universalNewlines : Str → Str
  | 0x0D :: 0x0A :: s => 0x0A :: universalNewlines s
  | 0x0D :: s => 0x0A :: universalNewlines s
  | c :: s => c :: universalNewlines s
  | [] => []

def readText : Attr → Except Exn Str
  | .missing => .error fileNotFound
  | .unreadable => .error permissionDenied
  | .content data => .ok (strip (universalNewlines (asciiDecodeReplace data)))

def readOptionalText (attr : Attr) : Except Exn Str :=
  match readText attr with
  | .ok text => .ok text
  | .error e => if e.kind = .osError 2 then .ok [] else .error e

/-- The value of a hexadecimal digit; a decimal digit may be one of any script. -/
def hexDigitValue (c : Nat) : Option Nat := (decimalValue c).or (hexValue c)

/-- The digits of `int(s, 16)`: single underscores may stand between digits. -/
def hexDigits : Str → Option (List Nat)
  | [] => none
  | [c] => (hexDigitValue c).map ([·])
  | c :: 0x5F :: s => do return (← hexDigitValue c) :: (← hexDigits s)
  | c :: s => do return (← hexDigitValue c) :: (← hexDigits s)

/-- The text after `0x`, and after an underscore that follows it. -/
def dropHexMark : Str → Str
  | c :: mark :: s =>
    if decimalValue c = some 0 ∧ (mark = 0x78 ∨ mark = 0x58) then
      match s with
      | 0x5F :: s => s
      | s => s
    else c :: mark :: s
  | s => s

/-- `int(s, 16)`, where `none` is a `ValueError`. -/
def int16 (s : Str) : Option Int :=
  let s := intStrip s
  let (neg, s) := match s with
    | 0x2D :: s => (true, s)
    | 0x2B :: s => (false, s)
    | s => (false, s)
  (hexDigits (dropHexMark s)).map fun ds =>
    let n : Int := (ds.foldl (fun n d => 16 * n + d) 0 : Nat)
    if neg then -n else n

example : int16 (py "07fd") = some 0x07FD := by decide
example : int16 (py "0x_f_F\n") = some 0xFF := by decide
example : int16 (py "0x") = none := by decide
example : int16 [0x1C, 0x38, 0x31] = none := by decide

/-- A number that is read from a file. -/
def parseFile (int : Str → Option Int) (attr : Attr) : Except Exn Int := do
  match int (← readText attr) with
  | some n => return n
  | none => throw invalidLiteral

def parseHexFile (attr : Attr) : Except Exn Int := parseFile int16 attr

/-- `int(read_text(path))`. -/
def parseIntFile (attr : Attr) : Except Exn Int := parseFile int10 attr

/-! ## The control interface -/

structure Endpoint where
  address : Int
  maxPacketSize : Int
  deriving DecidableEq, Repr

/-- The order of texts, by their code points. -/
def strLe : Str → Str → Bool
  | [], _ => true
  | _ :: _, [] => false
  | a :: s, b :: t => a < b || (a == b && strLe s t)

/-- `sorted(path.iterdir())`. -/
def sortedBy {α : Type} (name : α → Str) (items : List α) : List α :=
  items.insertionSort fun a b => strLe (name a) (name b)

def parseEndpoint (path : Entry) : Except Exn (Option Endpoint) :=
  if !(py "ep_").isPrefixOf path.name then .ok none
  else match int16 (path.name.drop 3) with
    | none => .ok none
    | some address => do
      let epType ← readOptionalText path.type
      if epType ≠ [] ∧ lower epType ≠ py "bulk" then return none
      else match parseHexFile path.wMaxPacketSize with
        | .ok maxPacketSize => return some { address, maxPacketSize }
        | .error e =>
          if e.kind = .osError 2 ∨ e.kind = .valueError then
            return some { address, maxPacketSize := DEFAULT_MAX_USB_CHUNK }
          else throw e

/-- `ep.address & 0x80`. -/
def Endpoint.isIn (ep : Endpoint) : Bool := ep.address / 0x80 % 2 = 1

/-- `sorted(.., key=lambda ep: ep.address)`. -/
def sortedEndpoints (endpoints : List Endpoint) : List Endpoint :=
  endpoints.insertionSort fun a b => a.address ≤ b.address

/-- An interface number, the addresses of the endpoints out and in, and a packet size. -/
abbrev Candidate := Int × Int × Int × Int

/-- The candidate of an interface with these entries: the first endpoints of the two directions. -/
def endpointsCandidate (interfaceNumber : Int) (entries : List Entry) :
    Except Exn (Option Candidate) := do
  let endpoints := (← (sortedBy Entry.name entries).mapM parseEndpoint).reduceOption
  match sortedEndpoints (endpoints.filter (·.isIn)), sortedEndpoints (endpoints.filter (!·.isIn)) with
  | bulkIn :: _, bulkOut :: _ => return some (interfaceNumber, bulkOut.address, bulkIn.address,
      max bulkIn.maxPacketSize bulkOut.maxPacketSize)
  | _, _ => return none

/-- The candidate of an interface whose directory is listed, if it can be. -/
def listedCandidate (interfaceNumber : Int) : Listing Entry → Except Exn (Option Candidate)
  | .missing | .unreadable => .ok none
  | .entries entries => endpointsCandidate interfaceNumber entries

/-- The body of the loop of `_discover_control_interface`. -/
def interfaceCandidate (stem : Str) (interfacePath : SysfsDir) : Except Exn (Option Candidate) :=
  if !stem.isPrefixOf interfacePath.name then .ok none
  else
    let numbers : Except Exn (Int × Int) := do
      return (← parseHexFile interfacePath.bInterfaceClass,
        ← parseHexFile interfacePath.bInterfaceNumber)
    match numbers with
    | .error e => if isUnavailable e then .ok none else .error e
    | .ok (interfaceClass, interfaceNumber) =>
      if interfaceClass ≠ 0xFF then .ok none
      else if interfacePath.driver then .ok none
      else listedCandidate interfaceNumber interfacePath.entries

/-- The order of tuples of integers. -/
def candidateLe (a b : Candidate) : Bool :=
  a.1 < b.1 || (a.1 == b.1 && (a.2.1 < b.2.1 || (a.2.1 == b.2.1 && (a.2.2.1 < b.2.2.1 ||
    (a.2.2.1 == b.2.2.1 && a.2.2.2 ≤ b.2.2.2)))))

def discoverControlInterface (devicePath : SysfsDir) (sysfsRoot : Listing SysfsDir) :
    Except Exn (Option Candidate) :=
  match sysfsRoot with
  | .missing | .unreadable => .ok none
  | .entries paths => do
    let candidates := (← (sortedBy SysfsDir.name paths).mapM
      (interfaceCandidate (devicePath.name ++ py ":1."))).reduceOption
    return (candidates.insertionSort fun a b => candidateLe a b).head?

/-! ## The device -/

structure UsbDeviceInfo where
  sysfsPath : Str
  devfsPath : Str
  serial : Str
  product : Str
  interface : Int
  epOut : Int
  epIn : Int
  maxPacketSize : Int
  deriving DecidableEq, Repr

/-- The arguments of `find_motu_device`. The two roots are as `Path` prints them. -/
structure FindArgs where
  vid : Nat
  pid : Nat
  serial : Option Str := none
  sysfsRoot : Str := py "/sys/bus/usb/devices"
  devfsRoot : Str := py "/dev/bus/usb"
  interface : Option Int := none
  epOut : Option Int := none
  epIn : Option Int := none
  deriving DecidableEq, Repr

/-- The serial number that is asked for; an empty one is none. -/
def FindArgs.asked (a : FindArgs) : Option Str := a.serial.filter (!·.isEmpty)

/-- `root / name`. -/
def joinPath (root name : Str) : Str := root ++ 0x2F :: name

/-- `f"{n:0{w}d}"`. -/
def strInt0 (w : Nat) : Int → Str
  | .ofNat n => List.replicate (w - (strNat n).length) 0x30 ++ strNat n
  | .negSucc n => 0x2D :: (List.replicate (w - 1 - (strNat (n + 1)).length) 0x30 ++ strNat (n + 1))

/-- `f"{vid:04x}:{pid:04x}"`. -/
def FindArgs.ids (a : FindArgs) : Str := strHex 4 a.vid ++ 0x3A :: strHex 4 a.pid

/-- `text or default`. -/
def orText (text default : Str) : Str := if text.isEmpty then default else text

/-- A device of the right kind: its serial number and product, and the numbers of its bus and of the
device. -/
structure Identity where
  serial : Str
  product : Str
  bus : Int
  dev : Int
  deriving DecidableEq, Repr

/-- A directory is gone past if what is read of it is not available. -/
def goPast {α : Type} (x : Except Exn (Option α)) : Except Exn (Option α) :=
  match x with
  | .error e => if isUnavailable e then .ok none else .error e
  | .ok r => .ok r

/-- Whether the ids of the directory are those that are looked for. -/
def readIds (a : FindArgs) (path : SysfsDir) : Except Exn (Option Unit) := do
  let deviceVid ← parseHexFile path.idVendor
  let devicePid ← parseHexFile path.idProduct
  return if deviceVid ≠ a.vid ∨ devicePid ≠ a.pid then none else some ()

def readIdentity (a : FindArgs) (path : SysfsDir) : Except Exn (Option Identity) := do
  let serial ← readOptionalText path.serial
  if a.asked.any (· ≠ serial) then return none
  else
    let product ← readOptionalText path.product
    let bus ← parseIntFile path.busnum
    let dev ← parseIntFile path.devnum
    return some { serial, product, bus, dev }

/-- What the loop of `find_motu_device` reads of a directory; `none` is a directory that it goes past. -/
def identify (a : FindArgs) (path : SysfsDir) : Except Exn (Option Identity) := do
  match ← goPast (readIds a path) with
  | none => return none
  | some () => goPast (readIdentity a path)

def Identity.label (d : Identity) (a : FindArgs) : Str :=
  orText d.product a.ids ++ 0x20 :: orText d.serial (py "(no serial)")

/-- What a device comes to: the loop goes past it, or keeps its label for want of a control interface, or
keeps the device. -/
inductive Found where
  | skipped
  | lacking (label : Str)
  | device (info : UsbDeviceInfo)
  deriving DecidableEq, Repr

/-- The manual overrides, if all are given. -/
def FindArgs.overrides (a : FindArgs) : Option (Int × Int × Int) := do
  return (← a.interface, ← a.epOut, ← a.epIn)

def Identity.info (d : Identity) (a : FindArgs) (path : SysfsDir) (candidate : Candidate) :
    UsbDeviceInfo where
  sysfsPath := joinPath a.sysfsRoot path.name
  devfsPath := joinPath (joinPath a.devfsRoot (strInt0 3 d.bus)) (strInt0 3 d.dev)
  serial := d.serial
  product := d.product
  interface := candidate.1
  epOut := candidate.2.1
  epIn := candidate.2.2.1
  maxPacketSize := candidate.2.2.2

/-- The body of the loop of `find_motu_device`. -/
def examine (a : FindArgs) (sysfsRoot : Listing SysfsDir) (path : SysfsDir) : Except Exn Found := do
  match ← identify a path with
  | none => return .skipped
  | some identity =>
    let discovered ← discoverControlInterface path sysfsRoot
    match a.overrides, discovered with
    | none, none => return .lacking (identity.label a)
    | none, some candidate => return .device (identity.info a path candidate)
    | some (interface, epOut, epIn), _ => return .device (identity.info a path
        (interface, epOut, epIn, (discovered.map (·.2.2.2)).getD DEFAULT_MAX_USB_CHUNK))

def noControlInterfaceFound (labels : Str) : Exn :=
  ⟨.noControlInterfaceFound,
    py "no unbound vendor-specific bulk control interface found for " ++ labels⟩

/-- The loop of `find_motu_device`, with the devices and the labels that are kept so far. -/
def scan (a : FindArgs) (sysfsRoot : Listing SysfsDir) :
    List SysfsDir → List UsbDeviceInfo → List Str → Except Exn (List UsbDeviceInfo × List Str)
  | [], devices, labels => .ok (devices, labels)
  | path :: paths, devices, labels => do
    match ← examine a sysfsRoot path with
    | .skipped => scan a sysfsRoot paths devices labels
    | .lacking label =>
      if a.asked.isSome then throw (noControlInterfaceFound label)
      else scan a sysfsRoot paths devices (labels ++ [label])
    | .device info => scan a sysfsRoot paths (devices ++ [info]) labels

/-- The end of `find_motu_device`. -/
def conclude (a : FindArgs) (devices : List UsbDeviceInfo) (labels : List Str) :
    Except Exn UsbDeviceInfo :=
  match devices with
  | [] =>
    if labels ≠ [] then .error (noControlInterfaceFound (List.intercalate (py ", ") labels))
    else .error ⟨.noDeviceFound, py "no MOTU USB device found for " ++ a.ids ++
      (a.asked.map (py " serial " ++ ·)).getD []⟩
  | [info] => .ok info
  | _ => .error ⟨.multipleDevicesFound,
      py "multiple MOTU devices matched; choose --serial. Matches: " ++
        List.intercalate (py ", ") (devices.map fun d => orText d.serial (py "(no serial)"))⟩

def findMotuDevice (a : FindArgs) (sysfsRoot : Listing SysfsDir) : Except Exn UsbDeviceInfo := do
  if (a.interface.isSome ∨ a.epOut.isSome ∨ a.epIn.isSome) ∧ a.overrides = none then
    throw ⟨.deviceDiscoveryError false,
      py "manual USB overrides require interface, ep_out, and ep_in together"⟩
  match sysfsRoot with
  | .missing => throw ⟨.deviceDiscoveryError false, py "USB sysfs root does not exist: " ++ a.sysfsRoot⟩
  | .unreadable => throw ⟨.deviceDiscoveryError true,
      py "USB sysfs root is not readable: " ++ a.sysfsRoot⟩
  | .entries paths =>
    let (devices, labels) ← scan a sysfsRoot (sortedBy SysfsDir.name paths) [] []
    conclude a devices labels

end Device

end MotuProxy
