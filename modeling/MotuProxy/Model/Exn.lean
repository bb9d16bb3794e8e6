import MotuProxy.Py.Str

/-! # Exceptions

An exception is its class and its text. `ExnKind` lists the exception classes that the proxy
raises or that it lets through from the standard library and the operating system.
-/

namespace MotuProxy

open Py

inductive ExnKind where
  /-- `parser.ResponseFrameError`. -/
  | responseFrameError
  /-- The exceptions of `protocol.py`. -/
  | protocolFrameTooLarge | invalidHostSequence
  /-- The exceptions of `datastore.py`. -/
  | shortUsbFrame | shortUsbWrite | datastoreNoResponse | datastoreTimeout
  | datastoreResponseLimit | datastoreCancelled | datastoreDeviceUnavailable
  /-- The exceptions of `device.py`; `unreadable` says that sysfs could not be read. -/
  | deviceDiscoveryError (unreadable : Bool)
  | noDeviceFound | noControlInterfaceFound | multipleDevicesFound
  /-- The exceptions of `http_server.py`, `json_body.py` and `schema.py`. -/
  | writesDisabled | crossOriginWrite | hostNotAllowed | writeTokenRequired
  | requestBodyTooLarge | requestBodyTimeout | badRequest | invalidJsonBody
  | datastorePermissionError | datastoreValidationError
  /-- `OSError` with its `errno`, and the two subclasses that the proxy tells apart. -/
  | osError (errno : Nat) | interruptedError | timeoutError
  /-- Other built-in exceptions. -/
  | structError | indexError | valueError | unicodeEncodeError | overflowError | assertionError
  | recursionError | runtimeError
  deriving DecidableEq, Repr

structure Exn where
  kind : ExnKind
  message : Str
  deriving DecidableEq, Repr

end MotuProxy
