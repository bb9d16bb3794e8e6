import Mathlib.Data.List.Induction
import MotuProxy.Model.Cli
import MotuProxy.Verify.WritePath

/-! # The body that is validated and the body that is sent

The validation runs over the `dict` of the body, and the text of the body is what is sent. A member
that a later one of the same key overrides is in the text and not in the `dict`, so it is sent
without having been checked.
-/

namespace MotuProxy

open Py Paths Schema Dispatch

/-! ## Members and items -/

namespace Py

variable {α : Type} {members : List (Str × α)} {m : Str × α}

/-- A later member has the key of `m`. -/
def Overridden (members : List (Str × α)) (m : Str × α) : Prop :=
  ∃ before after, members = before ++ m :: after ∧ m.1 ∈ after.map Prod.fst

theorem Overridden.mem (h : Overridden members m) : m ∈ members := by
  obtain ⟨before, after, rfl, -⟩ := h
  exact List.mem_append_right _ (List.mem_cons_self ..)

theorem dict_concat (members : List (Str × α)) (x : Str × α) :
    dict (members ++ [x]) =
      if (dict members).any (·.1 = x.1) then
        (dict members).map fun item => if item.1 = x.1 then x else item
      else dict members ++ [x] := by
  rw [dict, List.foldl_append]
  rfl

theorem mem_dict_concat_self (members : List (Str × α)) (x : Str × α) :
    x ∈ dict (members ++ [x]) := by
  rw [dict_concat]
  split
  · next h =>
    obtain ⟨item, hitem, hkey⟩ := List.any_eq_true.1 h
    exact List.mem_map.2 ⟨item, hitem, if_pos (of_decide_eq_true hkey)⟩
  · exact List.mem_append_right _ (List.mem_singleton_self x)

theorem mem_dict_concat_of_ne {x : Str × α} (h : m ∈ dict members) (hne : m.1 ≠ x.1) :
    m ∈ dict (members ++ [x]) := by
  rw [dict_concat]
  split
  · exact List.mem_map.2 ⟨m, h, if_neg hne⟩
  · exact List.mem_append_left _ h

/-- What is written is in the `dict`, or is overridden. -/
theorem mem_dict_or_overridden (h : m ∈ members) : m ∈ dict members ∨ Overridden members m := by
  induction members using List.reverseRecOn with
  | nil => cases h
  | append_singleton members x ih =>
    rcases List.mem_append.1 h with h | h
    · rcases ih h with hdict | ⟨before, after, rfl, hkey⟩
      · by_cases hx : m.1 = x.1
        · obtain ⟨before, after, rfl⟩ := List.append_of_mem h
          refine .inr ⟨before, after ++ [x], by simp, ?_⟩
          rw [hx, List.map_append]
          exact List.mem_append_right _ (List.mem_singleton_self _)
        · exact .inl (mem_dict_concat_of_ne hdict hx)
      · refine .inr ⟨before, after ++ [x], by simp, ?_⟩
        rw [List.map_append]
        exact List.mem_append_left _ hkey
    · cases List.mem_singleton.1 h
      exact .inl (mem_dict_concat_self members m)

end Py

namespace Schema

/-! ## What an entry asks of a value -/

variable {entry : PathSchema} {value : Json} {path baseType : Str}

/-- The number that a value is. -/
def number : Json → Option ℚ
  | .int n => some n
  | .float (.finite q) => some q
  | .bool b => some (if b then 1 else 0)
  | _ => none

/-- The value has the base type. -/
inductive ScalarConforms : Str → Json → Prop
  | string (s : Str) : ScalarConforms (py "string") (.str s)
  | semver (s : Str) (h : isSemver s = true) : ScalarConforms (py "semver") (.str s)
  | int (n : Int) : ScalarConforms (py "int") (.int n)
  /-- A number that a `float` can hold. -/
  | realInt (n : Int) (q : ℚ) (h : roundDouble n = .finite q) : ScalarConforms (py "real") (.int n)
  | real (q : ℚ) : ScalarConforms (py "real") (.float (.finite q))

/-- One of the values of a colon-separated text. -/
def PartConforms (baseType part : Str) : Prop :=
  if baseType = py "int" then ∃ n, int10 part = some n else ScalarConforms baseType (.str part)

/-- The value is a text of colon-separated values, of which there are as many as `count` says. -/
def PartsConform (baseType : Str) (count : Nat → Prop) (value : Json) : Prop :=
  ∃ text, value = .str text ∧ count (if text = [] then [] else splitOn 0x3A text).length ∧
    ∀ part ∈ (if text = [] then [] else splitOn 0x3A text), PartConforms baseType part

def EnumConforms (value : Json) : EnumValue → Prop
  | .int n => number value = some n
  | .str s => value = .str s

/-- The value is a single one, of the type, the enumeration and the range of the entry. -/
structure SingleConforms (entry : PathSchema) (value : Json) : Prop where
  type : ScalarConforms (splitType entry.valueType).1 value
  enum : py "enum" ∈ (splitType entry.valueType).2 → ∀ values ∈ entry.enumValues,
    ∃ v ∈ values, EnumConforms value v
  bool : py "bool" ∈ (splitType entry.valueType).2 → number value = some 0 ∨ number value = some 1
  minimum : ∀ bound ∈ entry.minimum, ∃ q, number value = some q ∧ bound.value ≤ q
  maximum : ∀ bound ∈ entry.maximum, ∃ q, number value = some q ∧ q ≤ bound.value

/-- The value is one that the entry admits. -/
def Conforms (entry : PathSchema) (value : Json) : Prop :=
  if py "opt" ∈ (splitType entry.valueType).2 ∧ isNull value then True
  else if py "list" ∈ (splitType entry.valueType).2 then
    PartsConform (splitType entry.valueType).1 (fun _ => True) value
  else if py "pair" ∈ (splitType entry.valueType).2 then
    PartsConform (splitType entry.valueType).1 (· = 2) value
  else SingleConforms entry value

theorem isReal_isFinite :
    isReal value = true ∧ isFinite value = .ok true ↔ ScalarConforms (py "real") value := by
  constructor
  · rintro ⟨hreal, hfinite⟩
    cases value with
    | int n =>
      dsimp only [isFinite] at hfinite
      cases hq : roundDouble n with
      | finite q => exact .realInt n q hq
      | inf negative =>
        rw [hq] at hfinite
        cases hfinite
    | float x =>
      cases x with
      | finite q => exact .real q
      | inf negative => cases hfinite
    | _ => cases hreal
  · intro h
    cases h with
    | realInt n q h => exact ⟨rfl, by rw [isFinite, h]⟩
    | real q => exact ⟨rfl, rfl⟩

theorem validateScalar_eq_ok :
    validateScalar path value baseType = .ok () ↔ ScalarConforms baseType value := by
  unfold validateScalar
  constructor
  · intro h
    split at h
    · next hbase =>
      subst hbase
      cases value with
      | str s => exact .string s
      | _ => cases h
    · split at h
      · next hbase =>
        subst hbase
        cases value with
        | str s => exact .semver s (require_eq_ok.1 h)
        | _ => cases h
      · split at h
        · next hbase =>
          subst hbase
          cases value with
          | int n => exact .int n
          | _ => cases h
        · split at h
          · next hbase =>
            subst hbase
            obtain ⟨hreal, h⟩ := check_bind_eq_ok.1 h
            obtain ⟨finite, hfinite, h⟩ := except_bind_eq_ok.1 h
            cases require_eq_ok.1 h
            exact isReal_isFinite.1 ⟨require_eq_ok.1 hreal, hfinite⟩
          · cases h
  · intro h
    cases h with
    | string s => rfl
    | semver s h => exact require_eq_ok.2 h
    | int n => rfl
    | realInt n q h =>
      refine check_bind_eq_ok.2 ⟨rfl, except_bind_eq_ok.2 ⟨true, ?_, rfl⟩⟩
      exact (isReal_isFinite.2 (.realInt n q h)).2
    | real q => rfl

theorem validateParts_eq_ok {parts : List Str} :
    validateParts path baseType parts = .ok () ↔ ∀ part ∈ parts, PartConforms baseType part := by
  induction parts with
  | nil => exact ⟨fun _ => nofun, fun _ => rfl⟩
  | cons part parts ih =>
    rw [List.forall_mem_cons, ← ih, validateParts, except_bind_eq_ok]
    simp only [check_bind_eq_ok, validateScalar_eq_ok]
    have hpart : (∃ v, parsePart path baseType part = .ok v ∧ ScalarConforms baseType v) ↔
        PartConforms baseType part := by
      unfold parsePart PartConforms
      split
      · next hint =>
        subst hint
        cases int10 part with
        | none => simp
        | some n => simp [ScalarConforms.int]
      · simp
    rw [← hpart]
    constructor
    · rintro ⟨v, hv, hscalar, hrest⟩
      exact ⟨⟨v, hv, hscalar⟩, hrest⟩
    · rintro ⟨⟨v, hv, hscalar⟩, hrest⟩
      exact ⟨v, hv, hscalar, hrest⟩

theorem validateStringParts_eq_ok {valueType : Str} {minParts : Nat} {maxParts : Option Nat} :
    validateStringParts path valueType value baseType minParts maxParts = .ok () ↔
      PartsConform baseType (fun n => minParts ≤ n ∧ ∀ m ∈ maxParts, n ≤ m) value := by
  unfold validateStringParts PartsConform
  cases value with
  | str text =>
    simp only [check_bind_eq_ok, require_eq_ok, decide_eq_true_eq, validateParts_eq_ok,
      Json.str.injEq, exists_eq_left']
  | _ => simp

theorem eqInt_iff {n : Int} : eqInt value n = true ↔ number value = some (n : ℚ) := by
  cases value with
  | int m => simp [eqInt, number]
  | float x => cases x <;> simp [eqInt, number]
  | bool b => cases b <;> simp [eqInt, number, eq_comm]
  | _ => simp [eqInt, number]

theorem eqEnumValue_iff {v : EnumValue} : eqEnumValue value v = true ↔ EnumConforms value v := by
  cases v with
  | int n => exact eqInt_iff
  | str s =>
    unfold eqEnumValue EnumConforms
    cases value <;> simp

theorem checkEnum_eq_ok {modifiers : List Str} :
    checkEnum path entry modifiers value = .ok () ↔
      (py "enum" ∈ modifiers → ∀ values ∈ entry.enumValues, ∃ v ∈ values, EnumConforms value v) := by
  unfold checkEnum
  cases entry.enumValues with
  | none => simp
  | some values =>
    simp only [require_eq_ok, List.any_eq_true, eqEnumValue_iff, decide_eq_true_eq,
      Option.mem_def, Option.some.injEq, forall_eq']
    exact imp_iff_not_or.symm

theorem ltBound_of_number {q b : ℚ} (h : number value = some q) :
    ltBound value b = decide (q < b) := by
  cases value with
  | float x => cases x <;> cases h; rfl
  | _ => cases h <;> rfl

theorem gtBound_of_number {q b : ℚ} (h : number value = some q) :
    gtBound value b = decide (b < q) := by
  cases value with
  | float x => cases x <;> cases h; rfl
  | _ => cases h <;> rfl

theorem isRealOrBool_of_number {q : ℚ} (h : number value = some q) : isRealOrBool value = true := by
  cases value <;> first | rfl | cases h

theorem ScalarConforms.number (h : ScalarConforms baseType value) (hreal : isRealOrBool value = true) :
    ∃ q, Schema.number value = some q := by
  cases h with
  | string s | semver s h => cases hreal
  | int n | realInt n q h | real q => exact ⟨_, rfl⟩

theorem checkMinimum_eq_ok {q : ℚ} {bound : Option Bound} (h : number value = some q) :
    checkMinimum path value bound = .ok () ↔ ∀ b ∈ bound, b.value ≤ q := by
  cases bound with
  | none => simp [checkMinimum]
  | some b => simp [checkMinimum, require_eq_ok, ltBound_of_number h]

theorem checkMaximum_eq_ok {q : ℚ} {bound : Option Bound} (h : number value = some q) :
    checkMaximum path value bound = .ok () ↔ ∀ b ∈ bound, q ≤ b.value := by
  cases bound with
  | none => simp [checkMaximum]
  | some b => simp [checkMaximum, require_eq_ok, gtBound_of_number h]

theorem checkRange_eq_ok (h : ScalarConforms baseType value) :
    checkRange path entry value = .ok () ↔
      (∀ bound ∈ entry.minimum, ∃ q, number value = some q ∧ bound.value ≤ q) ∧
      (∀ bound ∈ entry.maximum, ∃ q, number value = some q ∧ q ≤ bound.value) := by
  unfold checkRange
  split
  · next hsome =>
    rw [check_bind_eq_ok, check_bind_eq_ok, require_eq_ok]
    constructor
    · rintro ⟨hreal, hmin, hmax⟩
      obtain ⟨q, hq⟩ := h.number hreal
      exact ⟨fun b hb => ⟨q, hq, (checkMinimum_eq_ok hq).1 hmin b hb⟩,
        fun b hb => ⟨q, hq, (checkMaximum_eq_ok hq).1 hmax b hb⟩⟩
    · rintro ⟨hmin, hmax⟩
      have hnumber : ∃ q, number value = some q := by
        rcases hsome with hsome | hsome
        · obtain ⟨b, hb⟩ := Option.isSome_iff_exists.1 hsome
          obtain ⟨q, hq, -⟩ := hmin b hb
          exact ⟨q, hq⟩
        · obtain ⟨b, hb⟩ := Option.isSome_iff_exists.1 hsome
          obtain ⟨q, hq, -⟩ := hmax b hb
          exact ⟨q, hq⟩
      obtain ⟨q, hq⟩ := hnumber
      simp only [hq, Option.some.injEq, exists_eq_left'] at hmin hmax
      exact ⟨isRealOrBool_of_number hq, (checkMinimum_eq_ok hq).2 hmin, (checkMaximum_eq_ok hq).2 hmax⟩
  · next hnone =>
    simp only [not_or, Option.not_isSome_iff_eq_none] at hnone
    simp [hnone]

/-- A single value, after what `opt`, `list` and `pair` ask for. -/
theorem validateSingle_eq_ok : (do
      validateScalar path value (splitType entry.valueType).1
      checkEnum path entry (splitType entry.valueType).2 value
      require (py "bool" ∉ (splitType entry.valueType).2 ∨ eqInt value 0 ∨ eqInt value 1)
        (validationError (path ++ py " must be 0 or 1"))
      checkRange path entry value) = .ok () ↔ SingleConforms entry value := by
  simp only [check_bind_eq_ok, validateScalar_eq_ok, checkEnum_eq_ok, require_eq_ok,
    decide_eq_true_eq, eqInt_iff, Int.cast_zero, Int.cast_one, ← imp_iff_not_or]
  constructor
  · rintro ⟨htype, henum, hbool, hrange⟩
    obtain ⟨hmin, hmax⟩ := (checkRange_eq_ok htype).1 hrange
    exact ⟨htype, henum, hbool, hmin, hmax⟩
  · rintro ⟨htype, henum, hbool, hmin, hmax⟩
    exact ⟨htype, henum, hbool, (checkRange_eq_ok htype).2 ⟨hmin, hmax⟩⟩

/-- The code accepts exactly the values that an entry admits. -/
theorem validateValue_eq_ok : validateValue path entry value = .ok () ↔ Conforms entry value := by
  have hpair : (fun n => 2 ≤ n ∧ ∀ m ∈ some 2, n ≤ m) = (· = 2) := by
    funext n
    simp only [Option.mem_def, Option.some.injEq, forall_eq', eq_iff_iff]
    omega
  have hlist : (fun n => 0 ≤ n ∧ ∀ m ∈ (none : Option Nat), n ≤ m) = fun _ => True := by
    funext n
    simp
  change (if py "opt" ∈ (splitType entry.valueType).2 ∧ isNull value then .ok ()
    else if py "list" ∈ (splitType entry.valueType).2 then _
    else if py "pair" ∈ (splitType entry.valueType).2 then _ else _) = Except.ok () ↔ _
  unfold Conforms
  split
  · simp
  · split
    · rw [← hlist]
      exact validateStringParts_eq_ok
    · split
      · rw [← hpair]
        exact validateStringParts_eq_ok
      · exact validateSingle_eq_ok

/-- The target of a member has an rw entry, which admits the value. -/
def Writable (path : Str) (m : Str × Json) : Prop :=
  ∃ entry, checkedEntry path m.1 = .ok (some entry) ∧ entry.permission = .rw ∧ Conforms entry m.2

theorem validateMember_iff_writable {base : Str} {m : Str × Json} (hbase : writeBase path = .ok base) :
    validateMember base false m.1 m.2 = .ok () ↔ Writable path m := by
  rw [validateMember_eq_ok]
  simp only [validateValue_eq_ok]
  constructor
  · rintro ⟨target, entry, htarget, hentry, hrw, hvalue⟩
    refine ⟨entry, ?_, hrw, hvalue⟩
    exact except_bind_eq_ok.2 ⟨base, hbase, except_bind_eq_ok.2 ⟨target, htarget, hentry⟩⟩
  · rintro ⟨entry, hentry, hrw, hvalue⟩
    obtain ⟨base', hbase', h⟩ := except_bind_eq_ok.1 hentry
    cases hbase.symm.trans hbase'
    obtain ⟨target, htarget, hentry⟩ := except_bind_eq_ok.1 h
    exact ⟨target, entry, htarget, hentry, hrw, hvalue⟩

/-- If the path is one of the datastore, an object passes exactly if each item may be written. -/
theorem validateDatastoreWriteObject_iff {relative : Str} {object : List (Str × Json)}
    (hrelative : relativeDatastorePath path = .ok (some relative)) :
    validateDatastoreWriteObject path object false = .ok () ↔ ∀ m ∈ object, Writable path m := by
  have hbase : ∃ base, writeBase path = .ok base := by
    obtain ⟨normal, hnormal, -⟩ := except_map_eq_ok.1 hrelative
    exact ⟨_, except_map_eq_ok.2 ⟨normal, hnormal, rfl⟩⟩
  obtain ⟨base, hbase⟩ := hbase
  rw [validateDatastoreWriteObject_eq_ok]
  constructor
  · rintro ⟨relative', base', -, hbase', h⟩ m hm
    cases hbase.symm.trans hbase'
    exact (validateMember_iff_writable hbase).1 (h m hm)
  · intro h
    exact ⟨relative, base, hrelative, hbase, fun m hm => (validateMember_iff_writable hbase).2 (h m hm)⟩

/-- If the `dict` of the members passes, the members may be written exactly if those that are
overridden would have passed too, each on its own. -/
theorem members_writable_iff {members : List (Str × Json)}
    (h : validateDatastoreWriteObject path (dict members) false = .ok ()) :
    (∀ m ∈ members, Writable path m) ↔
      ∀ m, Overridden members m → validateDatastoreWriteObject path [m] false = .ok () := by
  obtain ⟨relative, -, hrelative, -⟩ := validateDatastoreWriteObject_eq_ok.1 h
  simp only [validateDatastoreWriteObject_iff hrelative, List.forall_mem_singleton] at h ⊢
  constructor
  · intro hall m hm
    exact hall m hm.mem
  · intro hover m hm
    rcases mem_dict_or_overridden hm with hm | hm
    · exact h m hm
    · exact hover m hm

end Schema

namespace Cli

open DatastoreDispatcher (lifted encodeBody_eq_ok)

variable {σ α : Type} {post : WriteCall → EStateM Exn σ α} {depth : Nat} {args : PostArgs} {s : σ}
  {call : WriteCall}

/-- The calls of `post` that the command makes. -/
def posted (post : WriteCall → EStateM Exn σ α) (depth : Nat) (args : PostArgs) (s : σ) :
    List WriteCall :=
  (finalState (commandPost (fun call s => lifted (post call) (s.1, s.2 ++ [call])) depth args
    (s, []))).2

theorem mem_posted : call ∈ posted post depth args s ↔ preparePost depth args = .ok call := by
  cases hcall : preparePost depth args with
  | error exc => simp [posted, commandPost, hcall, DatastoreDispatcher.liftExcept, throw_eq, bind,
      EStateM.bind, finalState]
  | ok call' =>
    have hcalls : posted post depth args s = [call'] := by
      unfold posted commandPost
      rw [hcall]
      change (finalState (lifted (post call') (s, [call']))).2 = _
      unfold lifted
      cases post call' s <;> rfl
    rw [hcalls, List.mem_singleton, Except.ok.injEq, eq_comm]

theorem preparePost_eq_ok (hv : args.noValidate = false) :
    preparePost depth args = .ok call ↔ normalizePath args.path = .ok call.path ∧ call.client = none ∧
      utf8Encode args.jsonBody = some call.body ∧
      ∃ object, loadJsonObject depth args.jsonBody = .ok object ∧
        validateDatastoreWriteObject call.path object args.allowUnknownWrites = .ok () := by
  have hcheck (path : Str) (object : List (Str × Json)) : checkPost args path object =
      validateDatastoreWriteObject path object args.allowUnknownWrites := by
    rw [checkPost, hv, if_neg Bool.false_ne_true]
  unfold preparePost
  simp only [except_bind_eq_ok, hcheck, encodeBody_eq_ok]
  constructor
  · rintro ⟨path, hpath, object, hobject, body, hbody, _, hvalid, hcall⟩
    cases hcall
    exact ⟨hpath, rfl, hbody, object, hobject, hvalid⟩
  · rintro ⟨hpath, hclient, hbody, object, hobject, hvalid⟩
    refine ⟨call.path, hpath, object, hobject, call.body, hbody, (), hvalid, ?_⟩
    rw [← hclient]
    rfl

end Cli

namespace Dispatch

/-! ## What is sent -/

/-- A write is forwarded, over HTTP or by the command line, with validation on and without unknown
paths: the path, the text of the body and its bytes. -/
inductive ForwardedWrite (depth : Nat) : Str → Str → Bytes → Prop
  | http {σ : Type} (d : DatastoreDispatcher σ) (a : DispatchArgs) (s : σ) (call : WriteCall) (text : Str)
    (hv : d.validateWrites = true) (hu : d.allowUnknownWrites = false) (hd : d.recursionDepth = depth)
    (hcall : call ∈ d.forwarded a s) (htext : parseWriteBody a.rawBody a.contentType = .ok text) :
    ForwardedWrite depth call.path text call.body
  | cli {σ α : Type} (post : WriteCall → EStateM Exn σ α) (args : Cli.PostArgs) (s : σ)
    (call : WriteCall) (hv : args.noValidate = false) (hu : args.allowUnknownWrites = false)
    (hcall : call ∈ Cli.posted post depth args s) :
    ForwardedWrite depth call.path args.jsonBody call.body

variable {depth : Nat} {path text : Str} {body : Bytes}

/-- What is forwarded is the text that was decoded, and the `dict` of its members has passed. -/
theorem ForwardedWrite.validated (h : ForwardedWrite depth path text body) :
    utf8Encode text = some body ∧ ∃ members, loadMembers depth text = .ok members ∧
      validateDatastoreWriteObject path (dict members) false = .ok () := by
  have hmembers {object : List (Str × Json)} (hobject : loadJsonObject depth text = .ok object)
      (hvalid : validateDatastoreWriteObject path object false = .ok ()) :
      ∃ members, loadMembers depth text = .ok members ∧
        validateDatastoreWriteObject path (dict members) false = .ok () := by
    obtain ⟨members, hload, rfl⟩ := except_map_eq_ok.1 hobject
    exact ⟨members, hload, hvalid⟩
  cases h with
  | http d a s call text' hv hu hd hcall htext =>
    obtain ⟨hm, hcall⟩ := DatastoreDispatcher.mem_forwarded.1 hcall
    obtain ⟨-, -, -, hbody⟩ := (DatastoreDispatcher.preparedCall_eq_ok hm).1 hcall
    obtain ⟨text', object, htext', hobject, hbytes, hvalid⟩ := hbody.accepted
    cases htext.symm.trans htext'
    rw [hu] at hvalid
    rw [hd] at hobject
    exact ⟨hbytes, hmembers hobject (hvalid hv)⟩
  | cli post args s call hv hu hcall =>
    obtain ⟨-, -, hbytes, object, hobject, hvalid⟩ :=
      (Cli.preparePost_eq_ok hv).1 (Cli.mem_posted.1 hcall)
    rw [hu] at hvalid
    exact ⟨hbytes, hmembers hobject hvalid⟩

/-- What is sent is the text of an object, and all that is written in it may be written exactly if
what a repeated key overrides would have passed on its own. -/
theorem sent_members_writable_iff (h : ForwardedWrite depth path text body) :
    utf8Encode text = some body ∧ ∃ members, loadMembers depth text = .ok members ∧
      ((∀ m ∈ members, Writable path m) ↔
        ∀ m, Overridden members m → validateDatastoreWriteObject path [m] false = .ok ()) := by
  obtain ⟨hbytes, members, hload, hvalid⟩ := h.validated
  exact ⟨hbytes, members, hload, members_writable_iff hvalid⟩

/-- The fader twice: out of its range at first, and then within it. -/
theorem forwarded_repeated_key : ForwardedWrite 900 (py "/datastore/mix/chan/0/matrix/fader")
    (py "\x7b\"value\": 99, \"value\": 1\x7d")
    ((py "\x7b\"value\": 99, \"value\": 1\x7d").map UInt8.ofNat) := by
  refine .http DatastoreDispatcher.writable
    (DatastoreDispatcher.faderWrite "/datastore/mix/chan/0/matrix/fader"
      "\x7b\"value\": 99, \"value\": 1\x7d") ()
    (DatastoreDispatcher.faderCall "/datastore/mix/chan/0/matrix/fader"
      "\x7b\"value\": 99, \"value\": 1\x7d") _ rfl rfl rfl ?_ (by decide +kernel)
  refine @DatastoreDispatcher.mem_forwarded_of_unvalidated _ _ _ _ _ [(py "value", .int 1)] (by decide)
    (by decide +kernel) rfl ?_
  refine validateDatastoreWriteObject_eq_ok.2 ⟨py "mix/chan/0/matrix/fader",
    py "/datastore/mix/chan/0/matrix/fader", by decide +kernel, by decide +kernel,
    List.forall_mem_singleton.2 ?_⟩
  exact DatastoreDispatcher.validateMember_fader (by decide +kernel) (by decide +kernel)

theorem sent_repeated_key_writable_iff :
    utf8Encode (py "\x7b\"value\": 99, \"value\": 1\x7d") =
      some ((py "\x7b\"value\": 99, \"value\": 1\x7d").map UInt8.ofNat) ∧
    ∃ members, loadMembers 900 (py "\x7b\"value\": 99, \"value\": 1\x7d") = .ok members ∧
      ((∀ m ∈ members, Writable (py "/datastore/mix/chan/0/matrix/fader") m) ↔
        ∀ m, Overridden members m →
          validateDatastoreWriteObject (py "/datastore/mix/chan/0/matrix/fader") [m] false = .ok ()) :=
  sent_members_writable_iff forwarded_repeated_key

/-- A fader takes values up to 4; the 99 is sent and never checked. -/
theorem repeated_key_not_writable :
    ¬∀ (depth : Nat) (path text : Str) (body : Bytes), ForwardedWrite depth path text body →
      ∀ members, loadMembers depth text = .ok members → ∀ m ∈ members, Writable path m := by
  intro h
  have hmembers : loadMembers 900 (py "\x7b\"value\": 99, \"value\": 1\x7d") =
      .ok [(py "value", .int 99), (py "value", .int 1)] := rfl
  have hwritable := h _ _ _ _ forwarded_repeated_key _ hmembers _ (List.mem_cons_self ..)
  obtain ⟨entry, hentry, -, hvalue⟩ := hwritable
  have hfader : checkedEntry (py "/datastore/mix/chan/0/matrix/fader") (py "value") =
      .ok (some (rangeRow "mix/chan/<index>/matrix/fader" "real" .rw 0 4)) := by
    refine except_bind_eq_ok.2 ⟨py "/datastore/mix/chan/0/matrix/fader", by decide +kernel, ?_⟩
    exact except_bind_eq_ok.2 ⟨_, by decide +kernel, findPathSchema_fader⟩
  cases hfader.symm.trans hentry
  have hrejected : validateValue [] (rangeRow "mix/chan/<index>/matrix/fader" "real" .rw 0 4) (.int 99) ≠
      .ok () := by decide +kernel
  exact hrejected (validateValue_eq_ok.2 hvalue)

end Dispatch

end MotuProxy
