import UsbSentinel.ByteStream
import UsbSentinel.Status

/-! The platform boundary: what directory iteration and file reads hand out, and the
operations the report store is built on. -/
namespace UsbSentinel
open ByteString

def nameMax : ℕ := 1024

structure DirEntry where
  name : Bytes
  isDirectory : Bool := false
  isReparsePoint : Bool := false
  isHidden : Bool := false
  sizeBytes : UInt64 := 0
  deriving DecidableEq, Repr

/-- What an open iterator delivers: entries, then the status that ends the listing,
`notFound` being the normal end. -/
structure Listing where
  entries : List DirEntry
  ending : Status := .notFound

abbrev FileStream := ByteStream.Stream Status

structure StorePlatform (σ : Type) where
  makeDirs : Bytes → σ → Status × σ
  writeFile : Bytes → Bytes → σ → Status × σ
  /-- Destination first, then the file that replaces it. -/
  replaceFile : Bytes → Bytes → σ → Status × σ
  deleteFile : Bytes → σ → Status × σ
  dirOpen : Bytes → σ → Except Status Listing × σ
  fileOpenRead : Bytes → σ → Except Status FileStream × σ

end UsbSentinel
