import MotuProxy.Model.Dispatch

/-! # The `post` command (`cli.py`)

What `command_post` does with the response is left out, and `post` is what it does with an open
datastore: `open_datastore` and `datastore.post`.
-/

namespace MotuProxy

open Py Paths Schema Dispatch

namespace Cli

/-- The options of `command_post` that a write depends on. -/
structure PostArgs where
  path : Str
  jsonBody : Str
  noValidate : Bool := false
  allowUnknownWrites : Bool := false
  deriving DecidableEq, Repr

/-- `if not args.no_validate`. -/
def checkPost (args : PostArgs) (path : Str) (writeObject : List (Str × Json)) : Except Exn Unit :=
  if args.noValidate then .ok ()
  else validateDatastoreWriteObject path writeObject args.allowUnknownWrites

/-- `command_post`, up to the point where it opens the device. -/
def preparePost (depth : Nat) (args : PostArgs) : Except Exn WriteCall := do
  let path ← normalizePath args.path
  let writeObject ← loadJsonObject depth args.jsonBody
  let body ← DatastoreDispatcher.encodeBody args.jsonBody
  checkPost args path writeObject
  return { path, body, client := none }

def commandPost (post : WriteCall → EStateM Exn σ α) (depth : Nat) (args : PostArgs) :
    EStateM Exn σ α := do
  let call ← DatastoreDispatcher.liftExcept (preparePost depth args)
  post call

end Cli

end MotuProxy
