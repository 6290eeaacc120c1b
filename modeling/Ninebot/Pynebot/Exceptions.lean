import Mathlib.Data.List.Basic

/-! # Exceptions

    The classes of `pynebot/exceptions.py`, together with the library classes
    that the client's handlers name.  A handler selects an exception by its
    class or by any base class of it, so the class order is data here: `mro`
    lists a class with all its bases. -/

namespace Ninebot

inductive ErrorClass where
  | exception
  | ninebotError
  | ninebotConnectionError
  | ninebotTimeoutError
  | ninebotAuthError
  | ninebotPairingRequiredError
  | ninebotProtocolError
  | bleakError
  | osError
  | timeoutError
  | valueError
  | indexError
  | keyError
  | attributeError
  deriving DecidableEq, Repr

/-- A class and its bases, most derived first.  `TimeoutError` is an
    `OSError`, so a handler that names only the latter also takes it. -/
def ErrorClass.mro : ErrorClass → List ErrorClass
  | .exception => [.exception]
  | .ninebotError => [.ninebotError, .exception]
  | .ninebotConnectionError => [.ninebotConnectionError, .ninebotError, .exception]
  | .ninebotTimeoutError => [.ninebotTimeoutError, .ninebotError, .exception]
  | .ninebotAuthError => [.ninebotAuthError, .ninebotError, .exception]
  | .ninebotPairingRequiredError =>
      [.ninebotPairingRequiredError, .ninebotAuthError, .ninebotError, .exception]
  | .ninebotProtocolError => [.ninebotProtocolError, .ninebotError, .exception]
  | .bleakError => [.bleakError, .exception]
  | .osError => [.osError, .exception]
  | .timeoutError => [.timeoutError, .osError, .exception]
  | .valueError => [.valueError, .exception]
  | .indexError => [.indexError, .exception]
  | .keyError => [.keyError, .exception]
  | .attributeError => [.attributeError, .exception]

/-- An exception: its class and its text. -/
structure Exc where
  cls : ErrorClass
  msg : String
  deriving DecidableEq, Repr

/-- `isinstance(self, classes)`, which is also what `except classes` asks. -/
def Exc.isInstance (classes : List ErrorClass) (self : Exc) : Bool :=
  classes.any fun c => decide (c ∈ self.cls.mro)

/-- The clause `except (BleakError, TimeoutError, OSError)`. -/
def Exc.isTransport (self : Exc) : Bool :=
  self.isInstance [.bleakError, .timeoutError, .osError]

/-- An exception that the BLE stack may raise: none of pynebot's own. -/
def Fault : Type := { e : Exc // e.isInstance [.ninebotError] = false }

end Ninebot
