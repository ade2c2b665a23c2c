import UsbSentinel.ByteString

/-! Status codes and their stable names. -/
namespace UsbSentinel
open ByteString

inductive Status
  | ok | invalidArg | notFound | io | accessDenied | noMemory | unsupported | internal
  deriving DecidableEq, Repr

def statusString : Status → Bytes
  | .ok => ascii "USBS_OK"
  | .invalidArg => ascii "USBS_ERR_INVALID_ARG"
  | .notFound => ascii "USBS_ERR_NOT_FOUND"
  | .io => ascii "USBS_ERR_IO"
  | .accessDenied => ascii "USBS_ERR_ACCESS_DENIED"
  | .noMemory => ascii "USBS_ERR_NO_MEMORY"
  | .unsupported => ascii "USBS_ERR_UNSUPPORTED"
  | .internal => ascii "USBS_ERR_INTERNAL"

end UsbSentinel
