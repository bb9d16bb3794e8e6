import MotuProxy.Model.Exn
import MotuProxy.Py.Url

/-! # Datastore paths (`paths.py`) -/

namespace MotuProxy

open Py

namespace Paths

def isHexDigit (c : Nat) : Bool := (hexValue c).isSome

/-- `UID_PREFIX_RE.sub(r"\1", path)`: the prefix is dropped if a path follows it, in which a newline
may only stand at the end. -/
def dropUidPrefix (path : Str) : Str :=
  match path with
  | 0x2F :: rest =>
    let uid := rest.take 16
    match rest.drop 16 with
    | 0x2F :: tail =>
      if uid.all isHexDigit ∧ 0x0A ∉ tail.dropLast then 0x2F :: tail else path
    | _ => path
  | _ => path

/-- `urlparse` raises `ValueError` on a bad network location. -/
def invalidUrl : Exn := ⟨.valueError, py "invalid URL"⟩

/-- The path of an absolute URL. -/
def stripUrl (path : Str) : Except Exn Str :=
  if (py "http://").isPrefixOf path ∨ (py "https://").isPrefixOf path then
    match urlparse path true with
    | some url => .ok url.path
    | none => .error invalidUrl
  else .ok path

/-- `normalize_path`, after the URL and the UID are gone. -/
def addDatastore (path : Str) : Str :=
  let path := if (py "/").isPrefixOf path then path else 0x2F :: path
  if path = py "/" then py "/datastore"
  else if path = py "/datastore" ∨ (py "/datastore/").isPrefixOf path ∨ path = py "/apiversion" ∨
      path = py "/meters" then path
  else py "/datastore" ++ path

def normalizePath (path : Str) : Except Exn Str :=
  let path := unquote (strip path)
  if path = [] then .ok (py "/datastore")
  else (stripUrl path).map fun path => addDatastore (dropUidPrefix path)

example : normalizePath (py " mix/chan/0 ") = .ok (py "/datastore/mix/chan/0") := by decide
example : normalizePath (py "/0001f2fffe00a0b1/datastore/uid") = .ok (py "/datastore/uid") := by
  decide
example : normalizePath (py "http://localhost:1280/meters?x") = .ok (py "/meters") := by decide

end Paths

end MotuProxy
