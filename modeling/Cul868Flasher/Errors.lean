/-!
# Exceptions of the flasher

Every exception here is a subclass of Python's `Exception`; which handler sees it
is decided by its class, what the operator reads by its message and its notes.
-/

namespace Cul868Flasher

inductive ExnClass where
  | flashError
  | dfuTransferError
  | supervisorError
  | usbTopologyError
  | hexFileError
  | valueError
  | indexError
  | osError
  | attributeError
  | assertionError
  | keyError
  | ingressError
  | operationBusyError
  | other
  deriving DecidableEq

structure Exn where
  cls : ExnClass
  message : String
  notes : List String
  deriving DecidableEq

namespace Exn

instance : ToString Exn := ⟨Exn.message⟩

def flashError (message : String) : Exn := ⟨.flashError, message, []⟩
def dfuTransferError (message : String) : Exn := ⟨.dfuTransferError, message, []⟩
def supervisorError (message : String) : Exn := ⟨.supervisorError, message, []⟩
def usbTopologyError (message : String) : Exn := ⟨.usbTopologyError, message, []⟩
def hexFileError (message : String) : Exn := ⟨.hexFileError, message, []⟩
def valueError (message : String) : Exn := ⟨.valueError, message, []⟩
def indexError (message : String) : Exn := ⟨.indexError, message, []⟩
def osError (message : String) : Exn := ⟨.osError, message, []⟩
def attributeError (message : String) : Exn := ⟨.attributeError, message, []⟩
def assertionError (message : String) : Exn := ⟨.assertionError, message, []⟩
def keyError (message : String) : Exn := ⟨.keyError, message, []⟩
def ingressError (message : String) : Exn := ⟨.ingressError, message, []⟩
def operationBusyError (message : String) : Exn := ⟨.operationBusyError, message, []⟩

/-- `DfuTransferError` is a subclass of `FlashError`. -/
def isFlashError (e : Exn) : Bool := e.cls = .flashError || e.cls = .dfuTransferError
def isDfuTransferError (e : Exn) : Bool := e.cls = .dfuTransferError
def isSupervisorError (e : Exn) : Bool := e.cls = .supervisorError
def isOSError (e : Exn) : Bool := e.cls = .osError
def isUsbTopologyError (e : Exn) : Bool := e.cls = .usbTopologyError
def isHexFileError (e : Exn) : Bool := e.cls = .hexFileError

def addNote (e : Exn) (note : String) : Exn := { e with notes := e.notes ++ [note] }

@[simp] theorem addNote_cls (e : Exn) (note : String) : (e.addNote note).cls = e.cls := rfl

@[simp] theorem addNote_notes (e : Exn) (note : String) :
    (e.addNote note).notes = e.notes ++ [note] := rfl

@[simp] theorem addNote_isFlashError (e : Exn) (note : String) :
    (e.addNote note).isFlashError = e.isFlashError := rfl

@[simp] theorem flashError_isFlashError (message : String) :
    (flashError message).isFlashError = true := rfl

@[simp] theorem hexFileError_isHexFileError (message : String) :
    (hexFileError message).isHexFileError = true := rfl

@[simp] theorem dfuTransferError_isFlashError (message : String) :
    (dfuTransferError message).isFlashError = true := rfl

end Exn
end Cul868Flasher
