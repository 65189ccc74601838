import Mathlib.Data.List.Basic
import Mathlib.Algebra.Order.Ring.Int
import Mathlib.Tactic.Common

/-! The data types of the key delivery interface: status and service codes, quality of
service, the six messages and the frame header. -/
namespace EtsiQkd004

abbrev Bytes := List UInt8

/-- A `char *` value: the characters before its terminating NUL. -/
@[ext] structure CString where
  chars : Bytes
  noNul : 0 ∉ chars
  deriving DecidableEq

/-- `qkd_bytes_t`: a buffer together with the number of bytes it holds. -/
@[ext] structure QkdBytes where
  size : UInt32
  data : Bytes
  size_eq : data.length = size.toNat
  deriving DecidableEq

namespace QkdBytes

/-- The zero-initialised value. -/
def empty : QkdBytes := ⟨0,[],rfl⟩

/-- A buffer whose `size_t` length is narrowed into the 32-bit `size` field. Whoever holds
the value reads `size` bytes of the buffer. -/
def ofBuffer (buffer : Bytes) : QkdBytes where
  size := UInt32.ofNat buffer.length
  data := buffer.take (buffer.length % 2^32)
  size_eq := by
    rw [UInt32.toNat_ofNat',List.length_take]
    omega

lemma length_lt (b : QkdBytes) : b.data.length < 2^32 := by
  rw [b.size_eq]
  exact b.size.toNat_lt

/-- The size follows the data. -/
lemma eq_of_data {a b : QkdBytes} (h : a.data=b.data) : a=b := by
  apply QkdBytes.ext _ h
  apply UInt32.toNat_inj.mp
  rw [← a.size_eq,← b.size_eq,h]

lemma ofBuffer_data {buffer : Bytes} (h : buffer.length < 2^32) :
    (ofBuffer buffer).data = buffer := by
  change buffer.take (buffer.length % 2^32) = buffer
  rw [Nat.mod_eq_of_lt h,List.take_length]

end QkdBytes

/-- `uuid_t`: sixteen bytes. -/
@[ext] structure Uuid where
  bytes : Bytes
  length_eq : bytes.length = 16
  deriving DecidableEq

namespace Uuid

/-- The identifier 00000000-0000-0000-0000-000000000000. -/
def nil : Uuid := ⟨List.replicate 16 0,rfl⟩

/-- The identifier with all sixteen bytes equal to `b`. -/
def fill (b : UInt8) : Uuid := ⟨List.replicate 16 b,by simp⟩

end Uuid

/-- `qkd_status_code_t`: the two codes that the server answers with. -/
inductive QkdStatusCode
  | successful
  | gkPeerNotConnected
  deriving DecidableEq

/-- The value of a status code in a `qkd_status_t` field. -/
def QkdStatusCode.code : QkdStatusCode → UInt32
  | successful => 0
  | gkPeerNotConnected => 3

/-- `qkd_key_info_type_t` -/
inductive QkdKeyInfoType
  | symmetric
  | oblivious
  deriving DecidableEq

def QkdKeyInfoType.code : QkdKeyInfoType → UInt8
  | symmetric => 0x00
  | oblivious => 0x01

/-- `qkd_qos_t` -/
@[ext] structure QkdQos where
  keyChunkSize : UInt32
  maxBps : UInt32
  minBps : UInt32
  jitter : UInt32
  priority : UInt32
  timeout : UInt32
  ttl : UInt32
  metadataMimetype : CString
  deriving DecidableEq

@[ext] structure OpenConnectRequest where
  source : CString
  destination : CString
  qos : QkdQos
  keyStreamId : Uuid
  deriving DecidableEq

@[ext] structure OpenConnectResponse where
  status : UInt32
  qos : QkdQos
  keyStreamId : Uuid
  deriving DecidableEq

@[ext] structure GetKeyRequest where
  keyStreamId : Uuid
  index : UInt32
  metadata : QkdBytes
  deriving DecidableEq

@[ext] structure GetKeyResponse where
  status : UInt32
  index : UInt32
  keyBuffer : QkdBytes
  metadata : QkdBytes
  deriving DecidableEq

@[ext] structure CloseRequest where
  keyStreamId : Uuid
  deriving DecidableEq

@[ext] structure CloseResponse where
  status : UInt32
  deriving DecidableEq

/-- `enum qkd_service` -/
inductive QkdService
  | openConnectRequest
  | openConnectResponse
  | getKeyRequest
  | getKeyResponse
  | closeRequest
  | closeResponse
  | closeServer
  deriving DecidableEq

/-- The service byte of a frame header. -/
def QkdService.code : QkdService → UInt8
  | openConnectRequest => 0b10
  | openConnectResponse => 0b11
  | getKeyRequest => 0b100
  | getKeyResponse => 0b101
  | closeRequest => 0b1000
  | closeResponse => 0b1001
  | closeServer => 0xFF

@[ext] structure Version where
  major : UInt8
  minor : UInt8
  micro : UInt8
  deriving DecidableEq

/-- `QKD_004_VERSION` -/
def qkd004Version : Version := ⟨2,1,1⟩

/-- `qkd_header_t`. A received header may carry any service byte. -/
@[ext] structure QkdHeader where
  version : Version
  service : UInt8
  payloadSize : UInt32
  deriving DecidableEq

end EtsiQkd004
