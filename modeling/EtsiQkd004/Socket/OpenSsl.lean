import EtsiQkd004.Models
import EtsiQkd004.Library.Chunks

/-! What the code relies on of OpenSSL, over a connection whose peer has sent some records and then
closed it. -/
namespace EtsiQkd004
open Chunks

/-- The reads and writes of the library. A read returns at most what is left of one record, and 0
once all of them have been read. A write sends what it is given in records of at most 2^14 bytes,
the first of them as long as it can be. Both refuse a negative number of bytes. -/
class OpenSsl where
  /-- The result of `SSL_read` for `num` bytes, with these records left. -/
  sslRead (num : Int32) (records : List Bytes) : Int32
  /-- The bytes that `SSL_write` sends of `num` bytes at `data`. -/
  sslWrite (num : Int32) (data : Bytes) : Bytes
  /-- The records in which it sends them. -/
  sslRecords (data : Bytes) : List Bytes
  read_refused {num : Int32} (records : List Bytes) (h : num < 0) : sslRead num records = -1
  read_closed {num : Int32} {records : List Bytes} (h : 0 < num) (hnone : first records = []) :
    sslRead num records = 0
  read_record {num : Int32} {records : List Bytes} (h : 0 < num) (hsome : first records ≠ []) :
    sslRead num records = Int32.ofNat (min num.toInt.toNat (first records).length)
  write_refused {num : Int32} (data : Bytes) (h : num < 0) : sslWrite num data = []
  write_sent {num : Int32} {data : Bytes} (h : 0 < num) (hle : num.toInt.toNat ≤ data.length) :
    sslWrite num data = data.take num.toInt.toNat
  records_flatten (data : Bytes) : (sslRecords data).flatten = data
  records_le (data : Bytes) : ∀ record ∈ sslRecords data, record.length ≤ 16384
  records_first {data : Bytes} (h : data ≠ []) :
    ∃ later, sslRecords data = data.take 16384::later

namespace PlainSsl

/-- A library that does just this. -/
scoped instance plainSsl : OpenSsl where
  sslRead num records :=
    if num < 0 then -1 else Int32.ofNat (min num.toInt.toNat (first records).length)
  sslWrite num data := if num < 0 then [] else data.take num.toInt.toNat
  sslRecords data := pieces 16384 data
  read_refused _ h := if_pos h
  read_closed h hnone := by
    rw [if_neg (Int32.lt_asymm h),hnone,List.length_nil,Nat.min_zero]
    rfl
  read_record h _ := if_neg (Int32.lt_asymm h)
  write_refused _ h := if_pos h
  write_sent h _ := if_neg (Int32.lt_asymm h)
  records_flatten _ := flatten_pieces (by decide)
  records_le _ := length_le_of_mem_pieces
  records_first h := pieces_eq_cons h

end PlainSsl

end EtsiQkd004
