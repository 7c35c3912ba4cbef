import HdyUtils.Ltp.Sdnv
import HdyUtils.Ltp.Segment

/-! The segment serializer (`segment/write.rs`). -/

namespace HdyUtils.Ltp

def writeExtensions (exts : List Extension) : Bytes :=
  exts.flatMap fun e => e.tag :: (Sdnv.encode e.value.length ++ e.value)

def writeClaims (claims : List ReceptionClaim) : Bytes :=
  claims.flatMap fun claim => Sdnv.encode claim.offset ++ Sdnv.encode claim.length

def writeReport (rs : ReportSegment) : Bytes :=
  Sdnv.encode rs.reportSerial.val.toNat ++ (Sdnv.encode rs.checkpointSerial.toNat ++
    (Sdnv.encode rs.upperBound ++ (Sdnv.encode rs.lowerBound ++
      (Sdnv.encode rs.claims.length ++ writeClaims rs.claims))))

/-- The serials that a checkpoint carries between its length and its data. -/
def writeCheckpoint : Option Checkpoint → Bytes
  | some cp => Sdnv.encode cp.serial.val.toNat ++ Sdnv.encode cp.reportSerial.toNat
  | none => []

def writeData (ds : DataSegment) : Bytes :=
  Sdnv.encode ds.clientService.toNat ++ (Sdnv.encode ds.offset ++
    (Sdnv.encode ds.data.length ++ (writeCheckpoint ds.kind.checkpoint ++ ds.data)))

def writeBody : SegmentBody → Bytes
  | .data ds => writeData ds
  | .report rs => writeReport rs
  | .reportAck reportSerial => Sdnv.encode reportSerial.toNat
  | .cancelSender reason | .cancelReceiver reason => [reason.code]
  | .cancelAckSender | .cancelAckReceiver => []

/-- The octet that counts the header and trailer extensions. -/
def extCounts (header trailer : List Extension) : UInt8 :=
  ((UInt8.ofNat header.length &&& 0x0F) <<< 4) ||| (UInt8.ofNat trailer.length &&& 0x0F)

/-- The wire form of a segment.  At most 15 extensions of each list are written. -/
def Segment.encodeToVec (seg : Segment) : Bytes :=
  let header := seg.headerExt.take (min seg.headerExt.length 15)
  let trailer := seg.trailerExt.take (min seg.trailerExt.length 15)
  seg.typeCode :: (Sdnv.encode seg.session.originator.val.toNat ++
    (Sdnv.encode seg.session.number.toNat ++ (extCounts header trailer ::
      (writeExtensions header ++ (writeBody seg.body ++ writeExtensions trailer)))))

/-- The length of the written extensions. -/
def extensionsLen (exts : List Extension) : Nat :=
  (exts.map fun e => 1 + Sdnv.encodedLen e.value.length + e.value.length).sum

def bodyLen : SegmentBody → Nat
  | .data ds =>
    Sdnv.encodedLen ds.clientService.toNat + Sdnv.encodedLen ds.offset +
      Sdnv.encodedLen ds.data.length + ds.data.length +
      match ds.kind.checkpoint with
      | some cp => Sdnv.encodedLen cp.serial.val.toNat + Sdnv.encodedLen cp.reportSerial.toNat
      | none => 0
  | .report rs =>
    Sdnv.encodedLen rs.reportSerial.val.toNat + Sdnv.encodedLen rs.checkpointSerial.toNat +
      Sdnv.encodedLen rs.upperBound + Sdnv.encodedLen rs.lowerBound +
      Sdnv.encodedLen rs.claims.length +
      (rs.claims.map fun claim =>
        Sdnv.encodedLen claim.offset + Sdnv.encodedLen claim.length).sum
  | .reportAck reportSerial => Sdnv.encodedLen reportSerial.toNat
  | .cancelSender _ | .cancelReceiver _ => 1
  | .cancelAckSender | .cancelAckReceiver => 0

/-- The length that `encodeToVec` reserves for the segment with the given extensions. -/
def Segment.exactEncodedLen (seg : Segment) (header trailer : List Extension) : Nat :=
  1 + Sdnv.encodedLen seg.session.originator.val.toNat +
    Sdnv.encodedLen seg.session.number.toNat + 1 + extensionsLen (header ++ trailer) +
    bodyLen seg.body

end HdyUtils.Ltp
