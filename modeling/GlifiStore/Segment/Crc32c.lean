import GlifiStore.Core.Types

/-!
# CRC32C

The table-driven software update. The hardware variants compute the same
function.
-/

namespace GlifiStore

def kCrc32cInit : UInt32 := 0xFFFFFFFF
def kCrc32cPoly : UInt32 := 0x82F63B78

/-- One bit of `make_crc32c_table`. -/
def crc32cBit (crc : UInt32) : UInt32 :=
  (crc >>> 1) ^^^ (kCrc32cPoly &&& (0 - (crc &&& 1)))

def crc32cTable (index : UInt32) : UInt32 :=
  (List.range 8).foldl (fun crc _ => crc32cBit crc) index

def crc32cUpdate (crc : UInt32) (data : Bytes) : UInt32 :=
  data.foldl (fun crc byte => crc32cTable ((crc ^^^ byte.toUInt32) &&& 0xFF) ^^^ (crc >>> 8)) crc

def crc32c (bytes : Bytes) : UInt32 :=
  ~~~ crc32cUpdate kCrc32cInit bytes

def crc32cWithZeroedChecksumField (bytes : Bytes) : UInt32 :=
  let checksumOffset := 20
  let checksumSize := 4
  let prefixed :=
    if bytes.length ≥ checksumOffset then crc32cUpdate kCrc32cInit (bytes.take checksumOffset)
    else kCrc32cInit
  if bytes.length > checksumOffset then
    let zeroed := List.replicate (min checksumSize (bytes.length - checksumOffset)) 0
    let blanked := crc32cUpdate prefixed zeroed
    if bytes.length > checksumOffset + checksumSize then
      ~~~ crc32cUpdate blanked (bytes.drop (checksumOffset + checksumSize))
    else
      ~~~ blanked
  else
    ~~~ prefixed

theorem crc32cWithZeroedChecksumField_congr {left right : Bytes}
    (lengths : left.length = right.length) (before : left.take 20 = right.take 20)
    (after : left.drop 24 = right.drop 24) :
    crc32cWithZeroedChecksumField left = crc32cWithZeroedChecksumField right := by
  simp only [crc32cWithZeroedChecksumField, lengths, before, after]

end GlifiStore
