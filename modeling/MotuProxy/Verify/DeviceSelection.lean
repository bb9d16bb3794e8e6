import MotuProxy.Lib.Proc
import MotuProxy.Model.Device

/-! # The selection of the device

The scan of `find_motu_device` is described by what a snapshot says about its directories:
`Matching` devices, and the `ControlInterface`s that they have. The names of a directory are distinct,
so that the order in which it is listed does not matter.
-/

namespace MotuProxy

open Py

namespace Device

/-! ## Sorted lists -/

section

variable {α β : Type} {r : α → α → Prop} [DecidableRel r] [Std.Total r] [IsTrans α r] {l l' : List α}

/-- The first of the sorted items comes before all items. -/
theorem insertionSort_cons_le {a : α} {rest : List α} (h : l.insertionSort r = a :: rest) :
    a ∈ l ∧ ∀ b ∈ l, r a b := by
  have hsorted := List.pairwise_insertionSort r l
  have hmem {b : α} : b ∈ l ↔ b ∈ a :: rest := by rw [← h, List.mem_insertionSort]
  rw [h, List.pairwise_cons] at hsorted
  refine ⟨hmem.2 (List.mem_cons_self ..), fun b hb => ?_⟩
  rcases List.mem_cons.1 (hmem.1 hb) with rfl | hb
  · exact (Std.Total.total b b).elim id id
  · exact hsorted.1 b hb

omit [Std.Total r] [IsTrans α r] in
theorem insertionSort_eq_nil : l.insertionSort r = [] ↔ l = [] := by
  rw [← List.length_eq_zero_iff, List.length_insertionSort, List.length_eq_zero_iff]

/-- Items that the order tells apart are sorted in one way. -/
theorem insertionSort_perm (h : l.Perm l') (hr : ∀ a ∈ l, ∀ b ∈ l, r a b → r b a → a = b) :
    l.insertionSort r = l'.insertionSort r := by
  refine List.Perm.eq_of_pairwise ?_ (List.pairwise_insertionSort r l)
    (List.pairwise_insertionSort r l') ?_
  · intro a b ha hb hab hba
    exact hr a ((List.mem_insertionSort r).1 ha) b (h.mem_iff.2 ((List.mem_insertionSort r).1 hb)) hab hba
  · exact (List.perm_insertionSort r l).trans (h.trans (List.perm_insertionSort r l').symm)

end

section

variable {α : Type} {name : α → Str} {l l' : List α}

theorem mem_sortedBy {a : α} : a ∈ sortedBy name l ↔ a ∈ l := List.mem_insertionSort _

theorem sortedBy_nodup (h : (l.map name).Nodup) : (sortedBy name l).Nodup :=
  (List.perm_insertionSort _ l).nodup_iff.2 (List.Nodup.of_map name h)

theorem strLe_total (s t : Str) : strLe s t = true ∨ strLe t s = true := by
  induction s generalizing t with
  | nil => exact .inl rfl
  | cons a s ih =>
    cases t with
    | nil => exact .inr rfl
    | cons b t =>
      simp only [strLe, Bool.or_eq_true, decide_eq_true_eq, Bool.and_eq_true, beq_iff_eq]
      rcases ih t with h | h <;> rcases Nat.lt_trichotomy a b with hab | hab | hab <;> simp_all

theorem strLe_trans {s t u : Str} (hst : strLe s t = true) (htu : strLe t u = true) :
    strLe s u = true := by
  induction s generalizing t u with
  | nil => rfl
  | cons a s ih =>
    match t, u with
    | [], _ => cases hst
    | _ :: _, [] => cases htu
    | b :: t, c :: u =>
      simp only [strLe, Bool.or_eq_true, decide_eq_true_eq, Bool.and_eq_true, beq_iff_eq] at *
      rcases hst with hab | ⟨rfl, hst⟩ <;> rcases htu with hbc | ⟨rfl, htu⟩
      · exact .inl (hab.trans hbc)
      · exact .inl hab
      · exact .inl hbc
      · exact .inr ⟨rfl, ih hst htu⟩

theorem strLe_antisymm {s t : Str} (hst : strLe s t = true) (hts : strLe t s = true) : s = t := by
  induction s generalizing t with
  | nil => cases t with
    | nil => rfl
    | cons _ _ => cases hts
  | cons a s ih => cases t with
    | nil => cases hst
    | cons b t =>
      simp only [strLe, Bool.or_eq_true, decide_eq_true_eq, Bool.and_eq_true, beq_iff_eq] at *
      rcases hst with hab | ⟨rfl, hst⟩
      · omega
      · rw [ih hst (hts.resolve_left (Nat.lt_irrefl a)).2]

/-- Items with distinct names are sorted in one way. -/
theorem sortedBy_perm (h : l.Perm l') (hnodup : (l.map name).Nodup) :
    sortedBy name l = sortedBy name l' := by
  have : Std.Total fun a b : α => strLe (name a) (name b) = true := ⟨fun a b => strLe_total _ _⟩
  have : IsTrans α fun a b : α => strLe (name a) (name b) = true := ⟨fun a b c => strLe_trans⟩
  refine insertionSort_perm h fun a ha b hb hab hba => ?_
  exact List.inj_on_of_nodup_map hnodup ha hb (strLe_antisymm hab hba)

end

/-! ## What a snapshot says -/

/-- The number in a file. -/
def numberIn (int : Str → Option Int) (attr : Attr) : Option Int := (readText attr).toOption.bind int

def hexNumber (attr : Attr) : Option Int := numberIn int16 attr

def decNumber (attr : Attr) : Option Int := numberIn int10 attr

/-- The text of a file that may be missing. -/
def optionalText (attr : Attr) : Option Str := (readOptionalText attr).toOption

/-- A directory of a device with the right ids, and with the serial number if one is asked for. Its
numbers can be read, and so can its serial number and product if they are there. -/
structure Matching (a : FindArgs) (d : SysfsDir) : Prop where
  vendor : hexNumber d.idVendor = some (a.vid : Int)
  model : hexNumber d.idProduct = some (a.pid : Int)
  serial : ∃ text, optionalText d.serial = some text ∧ ∀ asked ∈ a.asked, asked = text
  product : (optionalText d.product).isSome = true
  bus : (decNumber d.busnum).isSome = true
  dev : (decNumber d.devnum).isSome = true

/-- The address in the name of an endpoint's directory. -/
def endpointAddress (e : Entry) : Option Int :=
  if (py "ep_").isPrefixOf e.name then int16 (e.name.drop 3) else none

/-- The endpoint is declared to be of another type than bulk. -/
def DeclaredOther (e : Entry) : Prop :=
  ∃ text, optionalText e.type = some text ∧ text ≠ [] ∧ lower text ≠ py "bulk"

/-- There is an endpoint with this address that is not declared to be of another type. -/
def IsEndpoint (i : SysfsDir) (address : Int) : Prop :=
  ∃ entries, i.entries = .entries entries ∧ ∃ e ∈ entries,
    endpointAddress e = some address ∧ ¬DeclaredOther e

def isInput (address : Int) : Bool := address / 0x80 % 2 = 1

/-- The lowest of the endpoints in one direction. -/
structure Lowest (i : SysfsDir) (input : Bool) (address : Int) : Prop where
  isEndpoint : IsEndpoint i address
  direction : isInput address = input
  least : ∀ address', IsEndpoint i address' → isInput address' = input → address ≤ address'

/-- An interface of the device that is not bound to a driver and is specific to the vendor. -/
structure Unbound (dirs : List SysfsDir) (d i : SysfsDir) (number : Int) : Prop where
  mem : i ∈ dirs
  belongs : d.name ++ py ":1." <+: i.name
  vendorSpecific : hexNumber i.bInterfaceClass = some 0xFF
  number : hexNumber i.bInterfaceNumber = some number
  unbound : i.driver = false

/-- A usable control interface of the device. -/
structure ControlInterface (dirs : List SysfsDir) (d i : SysfsDir) (number : Int) : Prop extends
    Unbound dirs d i number where
  input : ∃ address, IsEndpoint i address ∧ isInput address = true
  output : ∃ address, IsEndpoint i address ∧ isInput address = false

/-- The device has a usable control interface. -/
def Usable (dirs : List SysfsDir) (d : SysfsDir) : Prop := ∃ i number, ControlInterface dirs d i number

/-- The candidate is that of the usable interface with the lowest number, and names the lowest endpoint of
each direction. -/
def Chosen (dirs : List SysfsDir) (d : SysfsDir) (interface epOut epIn : Int) : Prop :=
  ∃ i, ControlInterface dirs d i interface ∧
    (∀ i' number, ControlInterface dirs d i' number → interface ≤ number) ∧
    Lowest i true epIn ∧ Lowest i false epOut

/-- The attributes that are read of an endpoint's directory can be read, or are missing. -/
def EndpointReadable (e : Entry) : Prop :=
  (endpointAddress e).isSome = true →
    e.type ≠ .unreadable ∧ (¬DeclaredOther e → e.wMaxPacketSize ≠ .unreadable)

/-! ## Reading -/

theorem readText_error {attr : Attr} {e : Exn} (h : readText attr = .error e) :
    isUnavailable e = true := by
  cases attr with
  | missing => cases h; rfl
  | unreadable => cases h; rfl
  | content _ => cases h

theorem parseFile_cases (int : Str → Option Int) (attr : Attr) :
    (∃ n, parseFile int attr = .ok n ∧ numberIn int attr = some n) ∨
      (∃ e, parseFile int attr = .error e ∧ isUnavailable e = true ∧ numberIn int attr = none) := by
  unfold parseFile numberIn
  cases htext : readText attr with
  | error e => exact .inr ⟨e, rfl, readText_error htext, rfl⟩
  | ok text =>
    simp only [bind, Except.bind, Except.toOption, Option.bind_some]
    cases int text with
    | some n => exact .inl ⟨n, rfl, rfl⟩
    | none => exact .inr ⟨invalidLiteral, rfl, rfl, rfl⟩

theorem parseFile_error {int : Str → Option Int} {attr : Attr} {e : Exn} (hread : attr ≠ .unreadable)
    (h : parseFile int attr = .error e) : e.kind = .osError 2 ∨ e.kind = .valueError := by
  cases attr with
  | missing => cases h; exact .inl rfl
  | unreadable => exact absurd rfl hread
  | content data =>
    simp only [parseFile, readText, bind, Except.bind] at h
    split at h
    · cases h
    · cases h
      exact .inr rfl

theorem readOptionalText_cases (attr : Attr) :
    (∃ text, readOptionalText attr = .ok text ∧ optionalText attr = some text) ∨
      (attr = .unreadable ∧ readOptionalText attr = .error permissionDenied ∧
        optionalText attr = none) := by
  cases attr with
  | missing => exact .inl ⟨[], rfl, rfl⟩
  | unreadable => exact .inr ⟨rfl, rfl, rfl⟩
  | content data => exact .inl ⟨_, rfl, rfl⟩

/-- What is read of a directory, or that it is gone past. -/
inductive Reads {α : Type} (P : Prop) : Except Exn (Option α) → Prop
  | found {r : α} (h : P) : Reads P (.ok (some r))
  | other (h : ¬P) : Reads P (.ok none)
  | unavailable {e : Exn} (h : ¬P) (he : isUnavailable e = true) : Reads P (.error e)

theorem Reads.goPast {α : Type} {P : Prop} {x : Except Exn (Option α)} (h : Reads P x) :
    (∃ r, Device.goPast x = .ok (some r) ∧ P) ∨ (Device.goPast x = .ok none ∧ ¬P) := by
  cases h with
  | found h => exact .inl ⟨_, rfl, h⟩
  | other h => exact .inr ⟨rfl, h⟩
  | unavailable h he => exact .inr ⟨by simp [Device.goPast, he], h⟩

theorem readIds_reads (a : FindArgs) (d : SysfsDir) :
    Reads (hexNumber d.idVendor = some (a.vid : Int) ∧ hexNumber d.idProduct = some (a.pid : Int))
      (readIds a d) := by
  unfold readIds parseHexFile hexNumber
  rcases parseFile_cases int16 d.idVendor with ⟨vid, hvid, hvid'⟩ | ⟨e, hvid, he, hvid'⟩
  · rcases parseFile_cases int16 d.idProduct with ⟨pid, hpid, hpid'⟩ | ⟨e, hpid, he, hpid'⟩
    · simp only [hvid, hpid, hvid', hpid', bind, Except.bind, pure, Except.pure, Option.some.injEq]
      split
      · next h => exact .other (by tauto)
      · next h => exact .found (by tauto)
    · simp only [hvid, hpid, bind, Except.bind]
      exact .unavailable (by simp [hpid']) he
  · simp only [hvid, bind, Except.bind]
    exact .unavailable (by simp [hvid']) he

theorem readIdentity_reads (a : FindArgs) (d : SysfsDir) :
    Reads ((∃ text, optionalText d.serial = some text ∧ ∀ asked ∈ a.asked, asked = text) ∧
        (optionalText d.product).isSome = true ∧ (decNumber d.busnum).isSome = true ∧
        (decNumber d.devnum).isSome = true) (readIdentity a d) := by
  unfold readIdentity parseIntFile decNumber
  rcases readOptionalText_cases d.serial with ⟨serial, hserial, hserial'⟩ | ⟨-, hserial, hserial'⟩
  · have hasked : (∃ text, optionalText d.serial = some text ∧ ∀ asked ∈ a.asked, asked = text) ↔
        ¬a.asked.any (· ≠ serial) = true := by
      simp only [hserial', Option.some.injEq, exists_eq_left']
      cases a.asked <;> simp
    simp only [hserial, hasked, bind, Except.bind]
    split
    · next h => exact .other fun hno => hno.1 h
    · next h =>
      rcases readOptionalText_cases d.product with ⟨product, hprod, hprod'⟩ | ⟨-, hprod, hprod'⟩
      · rcases parseFile_cases int10 d.busnum with ⟨bus, hbus, hbus'⟩ | ⟨e, hbus, he, hbus'⟩
        · rcases parseFile_cases int10 d.devnum with ⟨dev, hdev, hdev'⟩ | ⟨e, hdev, he, hdev'⟩
          · simp only [hprod, hbus, hdev, pure, Except.pure]
            exact .found ⟨h, by simp [hprod'], by simp [hbus'], by simp [hdev']⟩
          · simp only [hprod, hbus, hdev]
            exact .unavailable (by simp [hdev']) he
        · simp only [hprod, hbus]
          exact .unavailable (by simp [hbus']) he
      · simp only [hprod]
        exact .unavailable (by simp [hprod']) rfl
  · simp only [hserial, bind, Except.bind]
    exact .unavailable (by simp [hserial']) rfl

/-- A directory is gone past exactly if it is not one of a matching device. -/
theorem identify_cases (a : FindArgs) (d : SysfsDir) :
    (∃ identity, identify a d = .ok (some identity) ∧ Matching a d) ∨
      (identify a d = .ok none ∧ ¬Matching a d) := by
  unfold identify
  rcases (readIds_reads a d).goPast with ⟨_, hids, hvendor, hmodel⟩ | ⟨hids, hno⟩
  · rw [hids]
    rcases (readIdentity_reads a d).goPast with ⟨r, hread, hserial, hproduct, hbus, hdev⟩ | ⟨hread, hno⟩
    · exact .inl ⟨r, hread, hvendor, hmodel, hserial, hproduct, hbus, hdev⟩
    · exact .inr ⟨hread, fun h => hno ⟨h.serial, h.product, h.bus, h.dev⟩⟩
  · rw [hids]
    exact .inr ⟨rfl, fun h => hno ⟨h.vendor, h.model⟩⟩

/-! ## The endpoints of an interface -/

theorem parseEndpoint_ok {e : Entry} (h : EndpointReadable e) : ∃ r, parseEndpoint e = .ok r ∧
    ∀ address, (∃ ep, r = some ep ∧ ep.address = address) ↔
      endpointAddress e = some address ∧ ¬DeclaredOther e := by
  unfold parseEndpoint endpointAddress
  by_cases hname : (py "ep_").isPrefixOf e.name = true
  · simp only [hname, Bool.not_true, Bool.false_eq_true, if_false, if_true]
    cases haddress : int16 (e.name.drop 3) with
    | none => exact ⟨none, rfl, by simp⟩
    | some address =>
      obtain ⟨htype, hsize⟩ := h (by simp [endpointAddress, hname, haddress])
      obtain ⟨text, htext, htext'⟩ :=
        (readOptionalText_cases e.type).resolve_right fun hno => htype hno.1
      have hdeclared : DeclaredOther e ↔ text ≠ [] ∧ lower text ≠ py "bulk" := by
        unfold DeclaredOther
        simp [htext']
      simp only [htext, bind, Except.bind]
      split
      · next hother => exact ⟨none, rfl, by simp [hdeclared.2 hother]⟩
      · next hother =>
        have hno : ¬DeclaredOther e := fun hd => hother (hdeclared.1 hd)
        have hsome (size : Int) : ∀ address', (∃ ep, some (Endpoint.mk address size) = some ep ∧
            ep.address = address') ↔ some address = some address' ∧ ¬DeclaredOther e := by
          simp [hno]
        unfold parseHexFile
        rcases parseFile_cases int16 e.wMaxPacketSize with ⟨size, hread, -⟩ | ⟨exc, hread, -, -⟩
        · exact ⟨_, by simp [hread, pure, Except.pure], hsome size⟩
        · have hkind := parseFile_error (hsize hno) hread
          exact ⟨_, by simp [hread, hkind, pure, Except.pure], hsome DEFAULT_MAX_USB_CHUNK⟩
  · simp only [hname, Bool.not_false, if_true]
    exact ⟨none, rfl, by simp⟩

/-- The result of a step that does not fail. -/
def resultOf {α : Type} : Except Exn (Option α) → Option α
  | .ok r => r
  | .error _ => none

theorem mapM_reduceOption {α β : Type} {f : α → Except Exn (Option β)} {l : List α}
    (h : ∀ x ∈ l, ∃ r, f x = .ok r) :
    ∃ rs, l.mapM f = .ok rs ∧ rs.reduceOption = l.filterMap (resultOf ∘ f) := by
  induction l with
  | nil => exact ⟨[], rfl, rfl⟩
  | cons x l ih =>
    obtain ⟨⟨r, hr⟩, hrest⟩ := List.forall_mem_cons.1 h
    obtain ⟨rs, hrs, heq⟩ := ih hrest
    refine ⟨r :: rs, by simp [List.mapM_cons, hr, hrs, bind, Except.bind, pure, Except.pure], ?_⟩
    have hx : (resultOf ∘ f) x = r := by simp [hr, resultOf]
    cases r with
    | none => rw [List.filterMap_cons_none hx, ← heq]; rfl
    | some r => rw [List.filterMap_cons_some hx, ← heq]; rfl

/-- The addresses of the endpoints that are found. -/
theorem endpoints_iff {entries : List Entry} (h : ∀ e ∈ entries, EndpointReadable e) {address : Int} :
    (∃ ep ∈ (sortedBy Entry.name entries).filterMap (resultOf ∘ parseEndpoint),
        ep.address = address) ↔
      ∃ e ∈ entries, endpointAddress e = some address ∧ ¬DeclaredOther e := by
  simp only [List.mem_filterMap, mem_sortedBy, Function.comp]
  constructor
  · rintro ⟨ep, ⟨e, he, hep⟩, haddress⟩
    obtain ⟨r, hr, hiff⟩ := parseEndpoint_ok (h e he)
    rw [hr] at hep
    exact ⟨e, he, (hiff address).1 ⟨ep, hep, haddress⟩⟩
  · rintro ⟨e, he, hendpoint⟩
    obtain ⟨r, hr, hiff⟩ := parseEndpoint_ok (h e he)
    obtain ⟨ep, hep, haddress⟩ := (hiff address).2 hendpoint
    exact ⟨ep, ⟨e, he, by rw [hr]; exact hep⟩, haddress⟩

instance : Std.Total fun a b : Endpoint => a.address ≤ b.address := ⟨fun _ _ => le_total _ _⟩

instance : IsTrans Endpoint fun a b => a.address ≤ b.address := ⟨fun _ _ _ => le_trans⟩

section

variable {i : SysfsDir} {entries : List Entry} {number : Int}
  (hentries : i.entries = .entries entries) (h : ∀ e ∈ entries, EndpointReadable e)
include hentries h

theorem isEndpoint_iff {address : Int} : IsEndpoint i address ↔
    ∃ ep ∈ (sortedBy Entry.name entries).filterMap (resultOf ∘ parseEndpoint),
      ep.address = address := by
  rw [endpoints_iff h]
  simp [IsEndpoint, hentries]

/-- The first of the endpoints of one direction, sorted, is the lowest, and there is none if there is no
first. -/
theorem sortedEndpoints_cases {input : Bool} {p : Endpoint → Bool}
    (hp : ∀ ep, p ep = true ↔ isInput ep.address = input) :
    (∃ ep rest, sortedEndpoints (((sortedBy Entry.name entries).filterMap
        (resultOf ∘ parseEndpoint)).filter p) = ep :: rest ∧ Lowest i input ep.address) ∨
      (sortedEndpoints (((sortedBy Entry.name entries).filterMap
        (resultOf ∘ parseEndpoint)).filter p) = [] ∧
        ¬∃ address, IsEndpoint i address ∧ isInput address = input) := by
  have hiff {address : Int} : IsEndpoint i address ↔ _ := isEndpoint_iff hentries h
  generalize (sortedBy Entry.name entries).filterMap (resultOf ∘ parseEndpoint) = endpoints at *
  cases hsorted : sortedEndpoints (endpoints.filter p) with
  | nil =>
    refine .inr ⟨rfl, ?_⟩
    rintro ⟨address, haddress, hinput⟩
    obtain ⟨ep, hep, rfl⟩ := hiff.1 haddress
    have hempty := insertionSort_eq_nil.1 hsorted
    exact List.filter_eq_nil_iff.1 hempty ep hep ((hp ep).2 hinput)
  | cons ep rest =>
    obtain ⟨hmem, hle⟩ := insertionSort_cons_le hsorted
    obtain ⟨hmem, hinput⟩ := List.mem_filter.1 hmem
    refine .inl ⟨ep, rest, rfl, hiff.2 ⟨ep, hmem, rfl⟩, (hp ep).1 hinput, ?_⟩
    intro address haddress hinput'
    obtain ⟨ep', hep', rfl⟩ := hiff.1 haddress
    exact hle ep' (List.mem_filter.2 ⟨hep', (hp ep').2 hinput'⟩)

/-- The candidate of an interface whose directory can be listed. -/
theorem endpointsCandidate_ok : ∃ r, endpointsCandidate number entries = .ok r ∧
    (r = none → ¬((∃ address, IsEndpoint i address ∧ isInput address = true) ∧
      ∃ address, IsEndpoint i address ∧ isInput address = false)) ∧
    ∀ c, r = some c → c.1 = number ∧ Lowest i false c.2.1 ∧ Lowest i true c.2.2.1 := by
  have hparse : ∀ e ∈ sortedBy Entry.name entries, ∃ r, parseEndpoint e = .ok r := fun e he =>
    (parseEndpoint_ok (h e (mem_sortedBy.1 he))).imp fun _ hr => hr.1
  obtain ⟨rs, hrs, heq⟩ := mapM_reduceOption hparse
  have hin := @sortedEndpoints_cases i entries hentries h true (fun ep => ep.isIn) fun _ => Iff.rfl
  have hout := @sortedEndpoints_cases i entries hentries h false (fun ep => !ep.isIn)
    fun _ => by rw [Bool.not_eq_true']; rfl
  unfold endpointsCandidate
  simp only [hrs, bind, Except.bind, heq]
  rcases hin with ⟨epIn, restIn, hin, hlowIn⟩ | ⟨hin, hno⟩
  · rcases hout with ⟨epOut, restOut, hout, hlowOut⟩ | ⟨hout, hno⟩
    · rw [hin, hout]
      refine ⟨_, rfl, nofun, ?_⟩
      rintro _ ⟨⟩
      exact ⟨rfl, hlowOut, hlowIn⟩
    · rw [hin, hout]
      exact ⟨none, rfl, fun _ hboth => hno hboth.2, nofun⟩
  · rw [hin]
    exact ⟨none, rfl, fun _ hboth => hno hboth.1, nofun⟩

end

/-! ## The control interface of a device -/

section

variable {dirs : List SysfsDir} {d i : SysfsDir}

/-- The candidate of an unbound interface of the device. -/
theorem listedCandidate_ok {number : Int} (h : Unbound dirs d i number)
    (hread : ∀ entries, i.entries = .entries entries → ∀ e ∈ entries, EndpointReadable e) :
    ∃ r, listedCandidate number i.entries = .ok r ∧
      (r = none → ∀ number, ¬ControlInterface dirs d i number) ∧
      ∀ c, r = some c → ControlInterface dirs d i c.1 ∧ Lowest i false c.2.1 ∧ Lowest i true c.2.2.1 := by
  have hunlisted (hno : ∀ entries, i.entries ≠ .entries entries) (number : Int) :
      ¬ControlInterface dirs d i number := by
    intro hc
    obtain ⟨_, ⟨entries, hentries, -⟩, -⟩ := hc.input
    exact hno entries hentries
  cases hentries : i.entries with
  | missing => exact ⟨none, rfl, fun _ => hunlisted (by simp [hentries]), nofun⟩
  | unreadable => exact ⟨none, rfl, fun _ => hunlisted (by simp [hentries]), nofun⟩
  | entries entries =>
    obtain ⟨r, hr, hnone, hsome⟩ := endpointsCandidate_ok hentries (hread entries hentries)
    refine ⟨r, hr, fun h _ hc => hnone h ⟨hc.input, hc.output⟩, fun c hc => ?_⟩
    obtain ⟨rfl, hout, hin⟩ := hsome c hc
    exact ⟨⟨h, ⟨_, hin.isEndpoint, hin.direction⟩, ⟨_, hout.isEndpoint, hout.direction⟩⟩, hout, hin⟩

theorem interfaceCandidate_ok (hi : i ∈ dirs)
    (hread : ∀ number, Unbound dirs d i number → ∀ entries, i.entries = .entries entries →
      ∀ e ∈ entries, EndpointReadable e) :
    ∃ r, interfaceCandidate (d.name ++ py ":1.") i = .ok r ∧
      (r = none → ∀ number, ¬ControlInterface dirs d i number) ∧
      ∀ c, r = some c → ControlInterface dirs d i c.1 ∧ Lowest i false c.2.1 ∧ Lowest i true c.2.2.1 := by
  unfold interfaceCandidate parseHexFile
  by_cases hname : (d.name ++ py ":1.").isPrefixOf i.name = true
  · simp only [hname, Bool.not_true, Bool.false_eq_true, if_false]
    rcases parseFile_cases int16 i.bInterfaceClass with ⟨cls, hcls, hcls'⟩ | ⟨e, hcls, he, hcls'⟩
    · rcases parseFile_cases int16 i.bInterfaceNumber with ⟨number, hnum, hnum'⟩ | ⟨e, hnum, he, hnum'⟩
      · simp only [hcls, hnum, bind, Except.bind, pure, Except.pure]
        by_cases hff : cls = 0xFF
        · subst hff
          cases hdriver : i.driver with
          | true =>
            refine ⟨none, by simp, fun _ n h => ?_, nofun⟩
            have := h.unbound
            rw [hdriver] at this
            cases this
          | false =>
            have hunbound : Unbound dirs d i number :=
              ⟨hi, List.isPrefixOf_iff_prefix.1 hname, hcls', hnum', hdriver⟩
            simp only [ne_eq, not_true, Bool.false_eq_true, if_false]
            exact listedCandidate_ok hunbound (hread number hunbound)
        · refine ⟨none, by simp [hff], fun _ n h => ?_, nofun⟩
          have := hcls'.symm.trans h.vendorSpecific
          exact hff (Option.some.inj this)
      · refine ⟨none, by simp [hcls, hnum, bind, Except.bind, he], fun _ n h => ?_, nofun⟩
        cases hnum'.symm.trans h.number
    · refine ⟨none, by simp [hcls, bind, Except.bind, he], fun _ n h => ?_, nofun⟩
      cases hcls'.symm.trans h.vendorSpecific
  · refine ⟨none, by simp [hname], fun _ n h => ?_, nofun⟩
    exact hname (List.isPrefixOf_iff_prefix.2 h.belongs)

theorem candidateLe_iff {a b : Candidate} : candidateLe a b = true ↔
    a.1 < b.1 ∨ (a.1 = b.1 ∧ (a.2.1 < b.2.1 ∨ (a.2.1 = b.2.1 ∧ (a.2.2.1 < b.2.2.1 ∨
      (a.2.2.1 = b.2.2.1 ∧ a.2.2.2 ≤ b.2.2.2))))) := by
  simp [candidateLe]

instance : Std.Total fun a b : Candidate => candidateLe a b = true :=
  ⟨fun a b => by rw [candidateLe_iff, candidateLe_iff]; omega⟩

instance : IsTrans Candidate fun a b => candidateLe a b = true :=
  ⟨fun a b c => by rw [candidateLe_iff, candidateLe_iff, candidateLe_iff]; omega⟩

/-- The interface that is discovered is the usable one with the lowest number. -/
theorem discoverControlInterface_ok
    (hread : ∀ i number, Unbound dirs d i number → ∀ entries, i.entries = .entries entries →
      ∀ e ∈ entries, EndpointReadable e) :
    ∃ r, discoverControlInterface d (.entries dirs) = .ok r ∧ (r = none → ¬Usable dirs d) ∧
      ∀ c, r = some c → Chosen dirs d c.1 c.2.1 c.2.2.1 := by
  have hok : ∀ i ∈ sortedBy SysfsDir.name dirs, ∃ r,
      interfaceCandidate (d.name ++ py ":1.") i = .ok r := fun i hi =>
    (interfaceCandidate_ok (mem_sortedBy.1 hi) (hread i)).imp fun _ hr => hr.1
  obtain ⟨rs, hrs, heq⟩ := mapM_reduceOption hok
  -- Every usable interface is among the candidates.
  have hcandidate (i : SysfsDir) (number : Int) (hc : ControlInterface dirs d i number) :
      ∃ c ∈ (sortedBy SysfsDir.name dirs).filterMap
        (resultOf ∘ interfaceCandidate (d.name ++ py ":1.")), c.1 = number := by
    obtain ⟨r, hr, hnone, hsome⟩ := interfaceCandidate_ok hc.mem (hread i)
    cases r with
    | none => exact absurd hc (hnone rfl number)
    | some c =>
      refine ⟨c, List.mem_filterMap.2 ⟨i, mem_sortedBy.2 hc.mem, by rw [Function.comp, hr]; rfl⟩, ?_⟩
      exact Option.some.inj ((hsome c rfl).1.number.symm.trans hc.number)
  unfold discoverControlInterface
  simp only [hrs, bind, Except.bind, heq]
  refine ⟨_, rfl, ?_, ?_⟩
  · rintro hnone ⟨i, number, hc⟩
    rw [List.head?_eq_none_iff, insertionSort_eq_nil] at hnone
    obtain ⟨c, hmem, -⟩ := hcandidate i number hc
    rw [hnone] at hmem
    cases hmem
  · intro c hc
    obtain ⟨rest, hsorted⟩ := List.head?_eq_some_iff.1 hc
    obtain ⟨hmem, hle⟩ := insertionSort_cons_le hsorted
    obtain ⟨i, hi, hres⟩ := List.mem_filterMap.1 hmem
    obtain ⟨r, hr, -, hsome⟩ := interfaceCandidate_ok (mem_sortedBy.1 hi) (hread i)
    rw [Function.comp, hr] at hres
    obtain ⟨hcontrol, hout, hin⟩ := hsome c hres
    refine ⟨i, hcontrol, fun i' number hc' => ?_, hin, hout⟩
    obtain ⟨c', hmem', rfl⟩ := hcandidate i' number hc'
    have := candidateLe_iff.1 (hle c' hmem')
    omega

end

/-! ## The scan -/

/-- The attributes that are read of the endpoints can be read, or are missing. -/
def EndpointsReadable (a : FindArgs) (dirs : List SysfsDir) : Prop :=
  ∀ d ∈ dirs, Matching a d → ∀ i number, Unbound dirs d i number → ∀ entries,
    i.entries = .entries entries → ∀ e ∈ entries, EndpointReadable e

/-- The info is that of the device, and of the control interface that is chosen for it. -/
structure Describes (a : FindArgs) (dirs : List SysfsDir) (d : SysfsDir) (info : UsbDeviceInfo) :
    Prop where
  sysfsPath : info.sysfsPath = joinPath a.sysfsRoot d.name
  chosen : Chosen dirs d info.interface info.epOut info.epIn

/-- What a directory comes to, without manual overrides. -/
inductive Examined (a : FindArgs) (dirs : List SysfsDir) (d : SysfsDir) : Found → Prop
  | skipped (h : ¬Matching a d) : Examined a dirs d .skipped
  | lacking (h : Matching a d) (hno : ¬Usable dirs d) (label : Str) : Examined a dirs d (.lacking label)
  | device (h : Matching a d) (info : UsbDeviceInfo) (hinfo : Describes a dirs d info) :
    Examined a dirs d (.device info)

section

variable {a : FindArgs} {dirs l : List SysfsDir} {d : SysfsDir} {devices : List UsbDeviceInfo}
  {labels : List Str}

theorem Describes.usable {info : UsbDeviceInfo} (h : Describes a dirs d info) : Usable dirs d := by
  obtain ⟨i, hc, -⟩ := h.chosen
  exact ⟨i, _, hc⟩

theorem examine_ok (hmanual : a.overrides = none) (hread : EndpointsReadable a dirs) (hd : d ∈ dirs) :
    ∃ found, examine a (.entries dirs) d = .ok found ∧ Examined a dirs d found := by
  unfold examine
  rcases identify_cases a d with ⟨identity, hidentity, hmatch⟩ | ⟨hidentity, hno⟩
  · obtain ⟨r, hr, hnone, hsome⟩ := discoverControlInterface_ok (hread d hd hmatch)
    simp only [hidentity, hr, hmanual, bind, Except.bind]
    cases r with
    | none => exact ⟨_, rfl, .lacking hmatch (hnone rfl) _⟩
    | some c => exact ⟨_, rfl, .device hmatch _ ⟨rfl, hsome c rfl⟩⟩
  · simp only [hidentity, bind, Except.bind]
    exact ⟨_, rfl, .skipped hno⟩

open Classical in
/-- The directories of usable devices. -/
noncomputable def usable (a : FindArgs) (dirs l : List SysfsDir) : List SysfsDir :=
  l.filter fun d => Matching a d ∧ Usable dirs d

/-- A scan that does not stop at a device without a control interface. -/
theorem scan_ok (hmanual : a.overrides = none) (hread : EndpointsReadable a dirs)
    (hl : ∀ d ∈ l, d ∈ dirs)
    (hgo : a.asked = none ∨ ∀ d ∈ l, Matching a d → Usable dirs d) :
    ∃ infos more, scan a (.entries dirs) l devices labels = .ok (devices ++ infos, labels ++ more) ∧
      List.Forall₂ (Describes a dirs) (usable a dirs l) infos ∧
      (more = [] ↔ ∀ d ∈ l, Matching a d → Usable dirs d) := by
  induction l generalizing devices labels with
  | nil => exact ⟨[], [], by simp [scan], .nil, by simp⟩
  | cons d l ih =>
    obtain ⟨hd, hl⟩ := List.forall_mem_cons.1 hl
    obtain ⟨found, hfound, hexamined⟩ := examine_ok hmanual hread hd
    have hgo' : a.asked = none ∨ ∀ d ∈ l, Matching a d → Usable dirs d :=
      hgo.imp id fun h => (List.forall_mem_cons.1 h).2
    rw [scan, hfound]
    cases hexamined with
    | skipped hno =>
      obtain ⟨infos, more, hscan, hinfos, hmore⟩ := @ih devices labels hl hgo'
      refine ⟨infos, more, hscan, ?_, ?_⟩
      · rwa [usable, List.filter_cons_of_neg (by simp [hno])]
      · simp [hmore, hno]
    | lacking hmatch hno label =>
      have hasked : a.asked = none := hgo.resolve_right fun h => hno (h d (List.mem_cons_self ..) hmatch)
      obtain ⟨infos, more, hscan, hinfos, hmore⟩ := @ih devices (labels ++ [label]) hl hgo'
      refine ⟨infos, label :: more, ?_, ?_, ?_⟩
      · simpa [bind, Except.bind, hasked] using hscan
      · rwa [usable, List.filter_cons_of_neg (by simp [hno])]
      · simp [hmatch, hno]
    | device hmatch info hinfo =>
      obtain ⟨infos, more, hscan, hinfos, hmore⟩ := @ih (devices ++ [info]) labels hl hgo'
      refine ⟨info :: infos, more, by simpa [bind, Except.bind] using hscan, ?_, ?_⟩
      · rw [usable, List.filter_cons_of_pos (by simp [hmatch, hinfo.usable])]
        exact .cons hinfo hinfos
      · simp [hmore, hinfo.usable]

/-- A scan for a serial number stops at a device without a control interface. -/
theorem scan_error (hmanual : a.overrides = none) (hread : EndpointsReadable a dirs)
    (hl : ∀ d ∈ l, d ∈ dirs) (hasked : a.asked.isSome = true)
    (h : ∃ d ∈ l, Matching a d ∧ ¬Usable dirs d) :
    ∃ e, scan a (.entries dirs) l devices labels = .error e ∧ e.kind = .noControlInterfaceFound := by
  induction l generalizing devices labels with
  | nil =>
    obtain ⟨_, hd, -⟩ := h
    cases hd
  | cons d l ih =>
    obtain ⟨hd, hl⟩ := List.forall_mem_cons.1 hl
    obtain ⟨found, hfound, hexamined⟩ := examine_ok hmanual hread hd
    have hlater (hne : ¬(Matching a d ∧ ¬Usable dirs d)) : ∃ d ∈ l, Matching a d ∧ ¬Usable dirs d := by
      obtain ⟨d', hd', hlacking⟩ := h
      rcases List.mem_cons.1 hd' with rfl | hd'
      · exact absurd hlacking hne
      · exact ⟨d', hd', hlacking⟩
    rw [scan, hfound]
    cases hexamined with
    | skipped hno => exact ih hl (hlater fun h => hno h.1)
    | lacking hmatch hno label => exact ⟨_, by simp [bind, Except.bind, hasked]; rfl, rfl⟩
    | device hmatch info hinfo => exact ih hl (hlater fun h => h.2 hinfo.usable)

/-- No manual overrides. -/
def NoOverrides (a : FindArgs) : Prop := a.interface = none ∧ a.epOut = none ∧ a.epIn = none

theorem findMotuDevice_eq (h : NoOverrides a) : findMotuDevice a (.entries dirs) =
    (scan a (.entries dirs) (sortedBy SysfsDir.name dirs) [] [] >>= fun r => conclude a r.1 r.2) := by
  obtain ⟨hinterface, hout, hin⟩ := h
  simp [findMotuDevice, hinterface, hout, hin]

theorem NoOverrides.overrides (h : NoOverrides a) : a.overrides = none := by
  simp [FindArgs.overrides, h.1]

/-- What `find_motu_device` comes to. -/
inductive Selected (a : FindArgs) (dirs : List SysfsDir) : Except Exn UsbDeviceInfo → Prop
  | device {d : SysfsDir} {info : UsbDeviceInfo} (hd : d ∈ dirs) (h : Matching a d)
    (hinfo : Describes a dirs d info)
    (hone : ∀ d' ∈ dirs, Matching a d' → Usable dirs d' → d' = d) : Selected a dirs (.ok info)
  | several {d d' : SysfsDir} {e : Exn} (hd : d ∈ dirs ∧ Matching a d ∧ Usable dirs d)
    (hd' : d' ∈ dirs ∧ Matching a d' ∧ Usable dirs d') (hne : d ≠ d')
    (he : e.kind = .multipleDevicesFound) : Selected a dirs (.error e)
  | lacking {e : Exn} (hno : ∀ d ∈ dirs, Matching a d → ¬Usable dirs d)
    (h : ∃ d ∈ dirs, Matching a d) (he : e.kind = .noControlInterfaceFound) :
    Selected a dirs (.error e)
  | noDevice {e : Exn} (hno : ∀ d ∈ dirs, ¬Matching a d) (he : e.kind = .noDeviceFound) :
    Selected a dirs (.error e)

theorem mem_usable : d ∈ usable a dirs (sortedBy SysfsDir.name dirs) ↔
    d ∈ dirs ∧ Matching a d ∧ Usable dirs d := by
  simp [usable, mem_sortedBy]

/-- The end of a scan that went through all directories. -/
theorem conclude_selected {infos : List UsbDeviceInfo} {found : List SysfsDir} (hnodup : found.Nodup)
    (hmem : ∀ d, d ∈ found ↔ d ∈ dirs ∧ Matching a d ∧ Usable dirs d)
    (hinfos : List.Forall₂ (Describes a dirs) found infos)
    (hlabels : labels = [] ↔ ∀ d ∈ dirs, Matching a d → Usable dirs d) :
    Selected a dirs (conclude a infos labels) := by
  cases hinfos with
  | nil =>
    have hno : ∀ d ∈ dirs, Matching a d → ¬Usable dirs d := fun d hd hmatch husable => by
      cases (hmem d).2 ⟨hd, hmatch, husable⟩
    by_cases hlack : labels = []
    · subst hlack
      exact .noDevice (fun d hd hmatch => hno d hd hmatch (hlabels.1 rfl d hd hmatch)) rfl
    · simp only [conclude, ne_eq, hlack, not_false_eq_true, if_true]
      have hsome : ∃ d ∈ dirs, Matching a d := by
        by_contra hnone
        exact hlack (hlabels.2 fun d hd hmatch => absurd ⟨d, hd, hmatch⟩ hnone)
      exact .lacking hno hsome rfl
  | @cons d info rest infos hinfo hrest =>
    obtain ⟨hd, hmatch, husable⟩ := (hmem d).1 (List.mem_cons_self ..)
    cases hrest with
    | nil =>
      exact .device hd hmatch hinfo fun d' hd' hmatch' husable' =>
        List.mem_singleton.1 ((hmem d').2 ⟨hd', hmatch', husable'⟩)
    | @cons d' info' rest infos hinfo' _ =>
      have hne : d ≠ d' := fun h => (List.nodup_cons.1 hnodup).1 (h ▸ List.mem_cons_self ..)
      exact .several ⟨hd, hmatch, husable⟩
        ((hmem d').1 (List.mem_cons_of_mem _ (List.mem_cons_self ..))) hne rfl

theorem findMotuDevice_selected (hnames : (dirs.map SysfsDir.name).Nodup)
    (hserial : a.asked.isSome = true → ∀ d ∈ dirs, ∀ d' ∈ dirs, Matching a d → Matching a d' → d = d')
    (hmanual : NoOverrides a) (hread : EndpointsReadable a dirs) :
    Selected a dirs (findMotuDevice a (.entries dirs)) := by
  have hl : ∀ d ∈ sortedBy SysfsDir.name dirs, d ∈ dirs := fun d => mem_sortedBy.1
  rw [findMotuDevice_eq hmanual]
  by_cases hstop : a.asked.isSome = true ∧ ∃ d ∈ dirs, Matching a d ∧ ¬Usable dirs d
  · obtain ⟨hasked, d, hd, hmatch, hno⟩ := hstop
    obtain ⟨e, hscan, he⟩ := @scan_error a dirs _ [] [] hmanual.overrides hread hl hasked
      ⟨d, mem_sortedBy.2 hd, hmatch, hno⟩
    rw [hscan]
    refine .lacking (fun d' hd' hmatch' => ?_) ⟨d, hd, hmatch⟩ he
    rwa [← hserial hasked d hd d' hd' hmatch hmatch']
  · have hgo : a.asked = none ∨ ∀ d ∈ sortedBy SysfsDir.name dirs, Matching a d → Usable dirs d := by
      cases hasked : a.asked with
      | none => exact .inl rfl
      | some _ =>
        refine .inr fun d hd hmatch => of_not_not fun hno => hstop ?_
        exact ⟨by rw [hasked]; rfl, d, hl d hd, hmatch, hno⟩
    obtain ⟨infos, more, hscan, hinfos, hmore⟩ :=
      @scan_ok a dirs _ [] [] hmanual.overrides hread hl hgo
    simp only [mem_sortedBy] at hmore
    rw [hscan]
    exact conclude_selected ((sortedBy_nodup hnames).filter _) (fun d => mem_usable) hinfos hmore

end

/-! ## The order of the listings -/

/-- The same directory contents, listed in another order. -/
inductive SameListing : Listing Entry → Listing Entry → Prop
  | missing : SameListing .missing .missing
  | unreadable : SameListing .unreadable .unreadable
  | entries {l l' : List Entry} (h : l.Perm l') : SameListing (.entries l) (.entries l')

/-- The same directory, with its entries listed in another order. -/
def SameDir (d d' : SysfsDir) : Prop :=
  ∃ listing, SameListing d.entries listing ∧ d' = { d with entries := listing }

/-- The same directories, listed in another order, and each with its entries in another order. -/
def Relisted (dirs dirs' : List SysfsDir) : Prop :=
  ∃ dirs'', dirs.Perm dirs'' ∧ List.Forall₂ SameDir dirs'' dirs'

def sortListing : Listing Entry → Listing Entry
  | .entries entries => .entries (sortedBy Entry.name entries)
  | listing => listing

/-- The directory with its entries sorted. -/
def sortEntries (d : SysfsDir) : SysfsDir := { d with entries := sortListing d.entries }

theorem sortedBy_idem {α : Type} {name : α → Str} {l : List α} :
    sortedBy name (sortedBy name l) = sortedBy name l := by
  have : Std.Total fun a b : α => strLe (name a) (name b) = true := ⟨fun a b => strLe_total _ _⟩
  have : IsTrans α fun a b : α => strLe (name a) (name b) = true := ⟨fun a b c => strLe_trans⟩
  exact (List.pairwise_insertionSort _ l).insertionSort_eq

theorem interfaceCandidate_sortEntries {stem : Str} (i : SysfsDir) :
    interfaceCandidate stem (sortEntries i) = interfaceCandidate stem i := by
  have hlisted (number : Int) : listedCandidate number (sortEntries i).entries =
      listedCandidate number i.entries := by
    rw [sortEntries]
    cases i.entries with
    | missing => rfl
    | unreadable => rfl
    | entries entries => simp only [sortListing, listedCandidate, endpointsCandidate, sortedBy_idem]
  unfold interfaceCandidate
  rw [show (sortEntries i).name = i.name from rfl,
    show (sortEntries i).bInterfaceClass = i.bInterfaceClass from rfl,
    show (sortEntries i).bInterfaceNumber = i.bInterfaceNumber from rfl,
    show (sortEntries i).driver = i.driver from rfl]
  simp only [hlisted]

theorem sortedBy_map {dirs : List SysfsDir} : sortedBy SysfsDir.name (dirs.map sortEntries) =
    (sortedBy SysfsDir.name dirs).map sortEntries := by
  unfold sortedBy
  exact (List.map_insertionSort _ _ sortEntries dirs fun _ _ _ _ => Iff.rfl).symm

section

variable {a : FindArgs} {dirs dirs' : List SysfsDir} {d : SysfsDir}

theorem discoverControlInterface_sortEntries :
    discoverControlInterface (sortEntries d) (.entries (dirs.map sortEntries)) =
      discoverControlInterface d (.entries dirs) := by
  have hname : (sortEntries d).name = d.name := rfl
  have hcandidate : interfaceCandidate (d.name ++ py ":1.") ∘ sortEntries =
      interfaceCandidate (d.name ++ py ":1.") := funext interfaceCandidate_sortEntries
  simp only [discoverControlInterface, sortedBy_map, hname, List.mapM_map, hcandidate]

theorem examine_sortEntries : examine a (.entries (dirs.map sortEntries)) (sortEntries d) =
    examine a (.entries dirs) d := by
  have hidentify : identify a (sortEntries d) = identify a d := rfl
  unfold examine
  rw [hidentify, discoverControlInterface_sortEntries]
  rfl

theorem scan_congr {root root' : Listing SysfsDir} {f : SysfsDir → SysfsDir}
    (h : ∀ d, examine a root' (f d) = examine a root d) (l : List SysfsDir)
    (devices : List UsbDeviceInfo) (labels : List Str) :
    scan a root' (l.map f) devices labels = scan a root l devices labels := by
  induction l generalizing devices labels with
  | nil => rfl
  | cons d l ih => simp only [List.map_cons, scan, h, ih]

theorem findMotuDevice_sortEntries : findMotuDevice a (.entries (dirs.map sortEntries)) =
    findMotuDevice a (.entries dirs) := by
  have hscan := scan_congr (@examine_sortEntries a dirs) (sortedBy SysfsDir.name dirs) [] []
  simp only [findMotuDevice, sortedBy_map, hscan]

theorem findMotuDevice_perm (h : dirs.Perm dirs') (hnames : (dirs.map SysfsDir.name).Nodup) :
    findMotuDevice a (.entries dirs) = findMotuDevice a (.entries dirs') := by
  have hsorted := sortedBy_perm h hnames
  have hexamine (d : SysfsDir) : examine a (.entries dirs') (id d) = examine a (.entries dirs) d := by
    simp only [examine, discoverControlInterface, hsorted, id]
  have hscan := scan_congr hexamine (sortedBy SysfsDir.name dirs) [] []
  rw [List.map_id] at hscan
  simp only [findMotuDevice, ← hsorted, hscan]

theorem SameDir.sortEntries (h : SameDir d d') (hnames : ∀ entries, d.entries = .entries entries →
    (entries.map Entry.name).Nodup) : sortEntries d = sortEntries d' := by
  obtain ⟨listing, hlisting, rfl⟩ := h
  have hsorted : sortListing d.entries = sortListing listing := by
    cases hd : d.entries with
    | missing =>
      rw [hd] at hlisting
      cases hlisting
      rfl
    | unreadable =>
      rw [hd] at hlisting
      cases hlisting
      rfl
    | entries entries =>
      rw [hd] at hlisting
      cases hlisting with
      | entries hperm => rw [sortListing, sortListing, sortedBy_perm hperm (hnames entries hd)]
  rw [Device.sortEntries, Device.sortEntries, hsorted]

/-- The outcome does not depend on the order of the listings. -/
theorem findMotuDevice_relisted (h : Relisted dirs dirs') (hnames : (dirs.map SysfsDir.name).Nodup)
    (hentries : ∀ d ∈ dirs, ∀ entries, d.entries = .entries entries →
      (entries.map Entry.name).Nodup) :
    findMotuDevice a (.entries dirs) = findMotuDevice a (.entries dirs') := by
  obtain ⟨dirs'', hperm, hsame⟩ := h
  have hmap : dirs''.map Device.sortEntries = dirs'.map Device.sortEntries := by
    have hentries'' : ∀ d ∈ dirs'', ∀ entries, d.entries = .entries entries →
        (entries.map Entry.name).Nodup := fun d hd => hentries d (hperm.mem_iff.2 hd)
    clear hperm
    induction hsame with
    | nil => rfl
    | cons hd _ ih =>
      obtain ⟨hfirst, hrest⟩ := List.forall_mem_cons.1 hentries''
      rw [List.map_cons, List.map_cons, hd.sortEntries hfirst, ih hrest]
  rw [findMotuDevice_perm hperm hnames, ← @findMotuDevice_sortEntries a dirs'', hmap,
    findMotuDevice_sortEntries]

end

/-! ## The selection -/

/-- A snapshot of a readable root: the names in a directory are distinct. -/
structure Snapshot where
  dirs : List SysfsDir
  names : (dirs.map SysfsDir.name).Nodup
  entryNames : ∀ d ∈ dirs, ∀ entries, d.entries = .entries entries → (entries.map Entry.name).Nodup

/-- Without manual overrides the discovery finds the one device that has a usable control interface, and
the lowest such interface of it with its lowest endpoints; it tells apart that there are several, that
none of the matching devices has one, and that none matches. -/
theorem device_selection (a : FindArgs) (s : Snapshot) (hmanual : NoOverrides a)
    (hserial : a.asked.isSome = true →
      ∀ d ∈ s.dirs, ∀ d' ∈ s.dirs, Matching a d → Matching a d' → d = d')
    (hread : EndpointsReadable a s.dirs) :
    ((∃ info, findMotuDevice a (.entries s.dirs) = .ok info) ↔
        ∃! d, d ∈ s.dirs ∧ Matching a d ∧ Usable s.dirs d) ∧
      (∀ info, findMotuDevice a (.entries s.dirs) = .ok info →
        ∃ d ∈ s.dirs, Matching a d ∧ Describes a s.dirs d info) ∧
      ((∃ d ∈ s.dirs, ∃ d' ∈ s.dirs, d ≠ d' ∧ (Matching a d ∧ Usable s.dirs d) ∧
          Matching a d' ∧ Usable s.dirs d') →
        ∃ e, findMotuDevice a (.entries s.dirs) = .error e ∧ e.kind = .multipleDevicesFound) ∧
      ((∃ d ∈ s.dirs, Matching a d) → (∀ d ∈ s.dirs, Matching a d → ¬Usable s.dirs d) →
        ∃ e, findMotuDevice a (.entries s.dirs) = .error e ∧ e.kind = .noControlInterfaceFound) ∧
      ((∀ d ∈ s.dirs, ¬Matching a d) →
        ∃ e, findMotuDevice a (.entries s.dirs) = .error e ∧ e.kind = .noDeviceFound) ∧
      ∀ s' : Snapshot, Relisted s.dirs s'.dirs →
        findMotuDevice a (.entries s'.dirs) = findMotuDevice a (.entries s.dirs) := by
  have hselected := findMotuDevice_selected s.names hserial hmanual hread
  have hrelisted (s' : Snapshot) (h : Relisted s.dirs s'.dirs) :
      findMotuDevice a (.entries s'.dirs) = findMotuDevice a (.entries s.dirs) :=
    (findMotuDevice_relisted h s.names s.entryNames).symm
  refine ⟨?_, ?_, ?_, ?_, ?_, hrelisted⟩ <;>
    generalize findMotuDevice a (.entries s.dirs) = outcome at hselected <;> clear hrelisted
  · cases hselected with
    | device hd h hinfo hone =>
      refine ⟨fun _ => ⟨_, ⟨hd, h, hinfo.usable⟩, fun d' hd' => hone d' hd'.1 hd'.2.1 hd'.2.2⟩,
        fun _ => ⟨_, rfl⟩⟩
    | several hd hd' hne _ => exact ⟨nofun, fun h => absurd (h.unique hd hd') hne⟩
    | lacking hno _ _ => exact ⟨nofun, fun ⟨d, hd, _⟩ => absurd hd.2.2 (hno d hd.1 hd.2.1)⟩
    | noDevice hno _ => exact ⟨nofun, fun ⟨d, hd, _⟩ => absurd hd.2.1 (hno d hd.1)⟩
  · rintro info rfl
    cases hselected with
    | device hd h hinfo _ => exact ⟨_, hd, h, hinfo⟩
  · rintro ⟨d₁, hd₁, d₂, hd₂, hne, ⟨h₁, husable₁⟩, h₂, husable₂⟩
    cases hselected with
    | device _ _ _ hone => exact absurd ((hone d₁ hd₁ h₁ husable₁).trans (hone d₂ hd₂ h₂ husable₂).symm) hne
    | several _ _ _ he => exact ⟨_, rfl, he⟩
    | lacking hno _ _ => exact absurd husable₁ (hno d₁ hd₁ h₁)
    | noDevice hno _ => exact absurd h₁ (hno d₁ hd₁)
  · rintro ⟨d₁, hd₁, h₁⟩ hno
    cases hselected with
    | device hd h hinfo _ => exact absurd hinfo.usable (hno _ hd h)
    | several hd _ _ _ => exact absurd hd.2.2 (hno _ hd.1 hd.2.1)
    | lacking _ _ he => exact ⟨_, rfl, he⟩
    | noDevice hno' _ => exact absurd h₁ (hno' d₁ hd₁)
  · intro hno
    cases hselected with
    | device hd h _ _ => exact absurd h (hno _ hd)
    | several hd _ _ _ => exact absurd hd.2.1 (hno _ hd.1)
    | lacking _ h _ =>
      obtain ⟨d, hd, h⟩ := h
      exact absurd h (hno d hd)
    | noDevice _ he => exact ⟨_, rfl, he⟩

/-! ## A device with an audio and a control interface -/

def asciiFile (s : String) : Attr := .content ((py s).map UInt8.ofNat)

def deviceDir : SysfsDir where
  name := py "3-3"
  idVendor := asciiFile "07fd"
  idProduct := asciiFile "0005"
  serial := asciiFile "0001f2fffe00c719"
  product := asciiFile "624"
  busnum := asciiFile "3"
  devnum := asciiFile "4"

def audioDir : SysfsDir where
  name := py "3-3:1.0"
  bInterfaceClass := asciiFile "ff"
  bInterfaceNumber := asciiFile "00"
  driver := true
  entries := .entries [{ name := py "ep_01" }, { name := py "ep_81" }]

def controlEntries : List Entry := [{ name := py "ep_83" }, { name := py "ep_03" }]

def controlDir : SysfsDir where
  name := py "3-3:1.3"
  bInterfaceClass := asciiFile "ff"
  bInterfaceNumber := asciiFile "03"
  entries := .entries controlEntries

def findBySerial : FindArgs where
  vid := 0x07FD
  pid := 0x0005
  serial := some (py "0001f2fffe00c719")

def deviceSnapshot : Snapshot where
  dirs := [controlDir, audioDir, deviceDir]
  names := by decide
  entryNames := by
    simp only [List.forall_mem_cons]
    refine ⟨?_, ?_, ?_, by simp⟩ <;> rintro _ ⟨⟩ <;> decide

/-- A directory without an `idVendor` is not that of a device. -/
theorem not_matching {a : FindArgs} {d : SysfsDir} (h : d.idVendor = .missing) : ¬Matching a d := by
  intro hmatch
  have hvendor := hmatch.vendor
  rw [h] at hvendor
  cases hvendor

theorem mem_deviceSnapshot {d : SysfsDir} (h : d ∈ deviceSnapshot.dirs) :
    d = controlDir ∨ d = audioDir ∨ d = deviceDir := by
  simpa [deviceSnapshot] using h

theorem deviceSnapshot_readable {a : FindArgs} : EndpointsReadable a deviceSnapshot.dirs := by
  intro _ _ _ i _ hunbound entries hentries e he
  have hmissing : e.type = .missing ∧ e.wMaxPacketSize = .missing := by
    rcases mem_deviceSnapshot hunbound.mem with rfl | rfl | rfl <;> cases hentries <;> revert e <;>
      decide
  intro _
  rw [hmissing.1, hmissing.2]
  exact ⟨nofun, fun _ => nofun⟩

theorem device_selection_control : ∃ info,
    findMotuDevice findBySerial (.entries deviceSnapshot.dirs) = .ok info ∧ info.interface = 3 ∧
      ∃ d ∈ deviceSnapshot.dirs, Describes findBySerial deviceSnapshot.dirs d info := by
  have hfind : (findMotuDevice findBySerial (.entries deviceSnapshot.dirs)).map
      (·.interface) = .ok 3 := by decide +kernel
  obtain ⟨info, hok, hinterface⟩ := except_map_eq_ok.1 hfind
  have hdevice (d : SysfsDir) (hd : d ∈ deviceSnapshot.dirs) (h : Matching findBySerial d) :
      d = deviceDir := by
    rcases mem_deviceSnapshot hd with rfl | rfl | rfl
    · exact absurd h (not_matching rfl)
    · exact absurd h (not_matching rfl)
    · rfl
  obtain ⟨d, hd, -, hdescribes⟩ := (device_selection findBySerial deviceSnapshot ⟨rfl, rfl, rfl⟩
    (fun _ d hd d' hd' h h' => (hdevice d hd h).trans (hdevice d' hd' h').symm)
    deviceSnapshot_readable).2.1 info hok
  exact ⟨info, hok, hinterface, d, hd, hdescribes⟩

/-! ## A device whose product may not be read -/

/-- A directory of a device with the right ids and serial number, whose bus and device numbers can be
read. -/
structure MatchingNumbers (a : FindArgs) (d : SysfsDir) : Prop where
  vendor : hexNumber d.idVendor = some (a.vid : Int)
  model : hexNumber d.idProduct = some (a.pid : Int)
  serial : ∀ asked ∈ a.asked, optionalText d.serial = some asked
  bus : (decNumber d.busnum).isSome = true
  dev : (decNumber d.devnum).isSome = true

def hiddenDir : SysfsDir := { deviceDir with product := .unreadable }

def hiddenDirs : List SysfsDir := [controlDir, hiddenDir]

/-- Its control interface is usable, but the directory is gone past. -/
theorem hidden_product_skipped :
    ¬((∃ info, findMotuDevice findBySerial (.entries hiddenDirs) = .ok info) ↔
      ∃! d, d ∈ hiddenDirs ∧ MatchingNumbers findBySerial d ∧ Usable hiddenDirs d) := by
  have hfind : (findMotuDevice findBySerial (.entries hiddenDirs)).isOk = false := by decide +kernel
  have hendpoint (address : Int) (name : Str) (hmem : { name } ∈ controlEntries)
      (haddress : endpointAddress { name } = some address) : IsEndpoint controlDir address := by
    refine ⟨controlEntries, rfl, { name }, hmem, haddress, ?_⟩
    rintro ⟨_, ⟨⟩, hne, -⟩
    exact hne rfl
  have hcontrol : ControlInterface hiddenDirs hiddenDir controlDir 3 :=
    ⟨⟨by simp [hiddenDirs], by decide, by decide, by decide, rfl⟩,
      ⟨0x83, hendpoint _ (py "ep_83") (by simp [controlEntries]) (by decide), by decide⟩,
      ⟨0x03, hendpoint _ (py "ep_03") (by simp [controlEntries]) (by decide), by decide⟩⟩
  have hmatching : MatchingNumbers findBySerial hiddenDir :=
    ⟨by decide, by decide, by decide, by decide, by decide⟩
  have hone (d : SysfsDir) (hd : d ∈ hiddenDirs ∧ MatchingNumbers findBySerial d ∧
      Usable hiddenDirs d) : d = hiddenDir := by
    rcases List.mem_cons.1 hd.1 with rfl | hmem
    · cases hd.2.1.vendor
    · exact List.mem_singleton.1 hmem
  intro h
  obtain ⟨info, hinfo⟩ := h.2 ⟨hiddenDir, ⟨by simp [hiddenDirs], hmatching, _, _, hcontrol⟩, hone⟩
  rw [hinfo] at hfind
  cases hfind

end Device

end MotuProxy
