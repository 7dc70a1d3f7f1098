import Coriolis.Library.Bytes

/-!
# The messages to the backup writers

`encode_data` frames the content of a write for `write_data`: the id of the message, the
length of its body, the length of the body after it is inflated, and the body, which is
compressed if that makes it shorter. `encode_eod` frames the end of the data.
-/

namespace Coriolis.Providers

inductive CompressionFormat where
  | gzip
  | zlib
  deriving DecidableEq, Repr

inductive DataTransferError where
  /-- `compressor_address is not a valid unix socket`. -/
  | invalidSocket
  /-- `struct.error`: a number does not fit its field. -/
  | structError
  | zeroDivisionError
  deriving DecidableEq, Repr

/-- The compressors of a process. -/
structure Compressor where
  /-- `_COMPRESS_FUNC`. -/
  compressFunc : CompressionFormat → List UInt8 → List UInt8
  /-- `_get_session_and_address`: the service at `compressor_address`, if one is set. The
  service answers with data, or fails. -/
  session : Except DataTransferError (Option (CompressionFormat → List UInt8 → Option (List UInt8)))

namespace Compressor

/-- The data of the service, or of the built-in function if there is none or it fails. -/
def compressed (c : Compressor)
    (service : Option (CompressionFormat → List UInt8 → Option (List UInt8)))
    (fmt : CompressionFormat) (content : List UInt8) : List UInt8 :=
  match service with
  | none => c.compressFunc fmt content
  | some post => (post fmt content).getD (c.compressFunc fmt content)

/-- `compression_proxy`. -/
def compressionProxy (c : Compressor) (content : List UInt8) (fmt : CompressionFormat) :
    Except DataTransferError (List UInt8 × Bool) :=
  match c.session with
  | .error err => .error err
  | .ok service =>
    let compressed := c.compressed service fmt content
    -- the saving is logged as a share of the content
    if content.length = 0 then .error .zeroDivisionError
    else if content.length ≤ compressed.length then .ok (content, false)
    else .ok (compressed, true)

end Compressor

/-- `struct.pack` of one unsigned number of `k` bytes. -/
def pack (k n : Nat) : Except DataTransferError (List UInt8) :=
  if n < 256 ^ k then .ok (Bytes.le k n) else .error .structError

/-- `path.encode()`. -/
def encode (path : String) : List UInt8 := path.toList.flatMap String.utf8EncodeChar

/-- What a message carries of its body, and whether that is compressed. -/
def Compressor.dataContent (c : Compressor) (compress : Bool) (inflated : List UInt8) :
    Except DataTransferError (List UInt8 × Bool) :=
  if compress then c.compressionProxy inflated .zlib else .ok (inflated, false)

/-- `encode_data`. -/
def encodeData (c : Compressor) (msgId : Nat) (path : String) (offset : Nat)
    (content : List UInt8) (compress : Bool) : Except DataTransferError (List UInt8) := do
  let inflated := encode path ++ 0 :: ((← pack 8 offset) ++ content)
  let (data, compressed) ← c.dataContent compress inflated
  let inflatedLen := if compressed then inflated.length else 0
  return (← pack 4 msgId) ++ (← pack 4 data.length) ++ (← pack 4 inflatedLen) ++ data

/-- `encode_eod`. -/
def encodeEod (msgId : Nat) : Except DataTransferError (List UInt8) := do
  return (← pack 4 msgId) ++ (← pack 4 0)

end Coriolis.Providers
